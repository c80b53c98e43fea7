import HttpRuntime.Core.HeaderLines
import HttpRuntime.Dsl.Lexer.Lemmas
import HttpRuntime.Lib.Position

/-!
This module contains where the tokens of a source are: each of them has a span, and only blanks and
comments are left between the spans.
-/

open Lib

namespace HttpRuntime

def DslLexer.isBlank (c : UInt8) : Bool := c == 32 || c == 9 || c == 13

-- From the `#` to the end of the line or of the text.
structure Comment (text : Bytes) (start stop : Nat) : Prop where
  lt : start < stop
  head : text[start]? = some 35
  line : 10 ∉ slice text start stop
  ends : ∀ c ∈ text[stop]?, c = 10

/-- What the lexer passes over between two tokens. -/
inductive Skipped (text : Bytes) (start : Nat) : Nat → Prop where
  | refl : Skipped text start start
  | blank {stop : Nat} {c : UInt8} (h : Skipped text start stop) (hc : text[stop]? = some c)
      (hblank : DslLexer.isBlank c = true)
    : Skipped text start (stop + 1)
  | comment {i stop : Nat} (h : Skipped text start i) (hcomment : Comment text i stop)
    : Skipped text start stop

/-- What a token says about its span. The text of a newline is escaped, that of an error is a message. -/
def DslToken.Spelled (token : DslToken) (bytes : Bytes) : Prop :=
  match token.type with
  | .eof => token.str = none ∧ bytes = []
  | .error =>
    (token.str = some (ascii "unterminated string") ∧ bytes.head? = some 34) ∨
      ∃ c, token.str = some (ascii "unexpected character '" ++ [c] ++ ascii "'") ∧ bytes = [c]
  | .newline => token.str = some (ascii "\\n") ∧ bytes = [10]
  | .string => ∃ str, token.str = some str ∧ bytes = [34] ++ str ++ [34]
  | _ => token.str = some bytes

structure DslToken.At (token : DslToken) (text : Bytes) (span : Span) : Prop where
  stop_le : span.stop ≤ text.length
  line : token.line = lineAt 10 text span.start
  column : token.column = columnAt 10 text span.start
  spelled : token.Spelled (span.slice text)
  eof : token.type = .eof → span.start = text.length

/-- The cursor of the lexer. -/
structure DslLexer.At (lexer : DslLexer) (text : Bytes) : Prop where
  input : cstring lexer.input = text
  line : lexer.line = lineAt 10 text lexer.pos
  column : lexer.column = columnAt 10 text lexer.pos

theorem DslToken.At.of_inner {token : DslToken} {text : Bytes} {span : Span} (htype : token.type ≠ .eof)
    (hstop : span.stop ≤ text.length) (hline : token.line = lineAt 10 text span.start)
    (hcolumn : token.column = columnAt 10 text span.start) (hspelled : token.Spelled (span.slice text))
    : token.At text span :=
  ⟨hstop, hline, hcolumn, hspelled, fun heof => absurd heof htype⟩

section Skipped

variable {text : Bytes} {start i j : Nat}

theorem Skipped.trans (h : Skipped text start i) (h' : Skipped text i j) : Skipped text start j := by
  induction h' with
  | refl => exact h
  | blank _ hc hblank ih => exact .blank ih hc hblank
  | comment _ hcomment ih => exact .comment ih hcomment

theorem Skipped.le (h : Skipped text i j) : i ≤ j := by
  induction h with
  | refl => omega
  | blank _ _ _ ih => omega
  | comment _ hcomment ih =>
    have := hcomment.lt
    omega

theorem Skipped.of_blanks (hij : i ≤ j) (hj : j ≤ text.length)
    (hblank : ∀ c ∈ slice text i j, DslLexer.isBlank c = true) : Skipped text i j := by
  induction hij with
  | refl => exact .refl
  | @step j hij ih =>
    have hc : text[j]? = some text[j] := List.getElem?_eq_getElem hj
    rw [← slice_append_slice hij (Nat.le_succ j), slice_succ hc] at hblank
    have hlast := hblank text[j] (by simp)
    refine .blank (ih (by omega) ?_) hc hlast
    intro c hmem
    exact hblank c (List.mem_append_left _ hmem)

/-- A skipped position is a blank, or it is in a comment that is skipped as a whole. -/
theorem Skipped.position (h : Skipped text start j) (hi : start ≤ i) (hij : i < j)
    : (∃ c, text[i]? = some c ∧ DslLexer.isBlank c = true) ∨
        ∃ k l, Comment text k l ∧ start ≤ k ∧ k ≤ i ∧ i < l ∧ l ≤ j := by
  induction h with
  | refl => omega
  | @blank stop c _ hc hblank ih =>
    by_cases hstop : i = stop
    . subst hstop
      exact .inl ⟨c, hc, hblank⟩
    . cases ih (by omega) with
      | inl hblank => exact .inl hblank
      | inr hcomment =>
        rcases hcomment with ⟨k, l, hcomment, _, _, _, _⟩
        exact .inr ⟨k, l, hcomment, by omega, by omega, by omega, by omega⟩
  | @comment k stop hskip hcomment ih =>
    by_cases hk : k ≤ i
    . exact .inr ⟨k, stop, hcomment, hskip.le, hk, hij, Nat.le_refl _⟩
    . have := hcomment.lt
      cases ih (by omega) with
      | inl hblank => exact .inl hblank
      | inr hcomment =>
        rcases hcomment with ⟨k, l, hcomment, _, _, _, _⟩
        exact .inr ⟨k, l, hcomment, by omega, by omega, by omega, by omega⟩

-- A skipped comment meets no span, when every span is before the skipped part or behind it.
theorem Skipped.outside {spans : List Span} (h : Skipped text start j) (hi : start ≤ i) (hij : i < j)
    (hspans : ∀ span ∈ spans, span.stop ≤ start ∨ j ≤ span.start)
    : (∃ c, text[i]? = some c ∧ DslLexer.isBlank c = true) ∨
        ∃ k l, Comment text k l ∧ start ≤ k ∧ k ≤ i ∧ i < l ∧
          ∀ span ∈ spans, span.stop ≤ k ∨ l ≤ span.start := by
  cases h.position hi hij with
  | inl hblank => exact .inl hblank
  | inr hcomment =>
    rcases hcomment with ⟨k, l, hcomment, hstart, hki, hil, hlj⟩
    refine .inr ⟨k, l, hcomment, hstart, hki, hil, ?_⟩
    intro span hspan
    have := hspans span hspan
    omega

end Skipped

namespace DslLexer

variable {p : UInt8 → Bool} {hp : p 0 = false} {lexer : DslLexer} {text : Bytes}

theorem At.length (h : lexer.At text) : text.length = lexer.len := by
  rw [← h.input, lexer.len_eq]
  rfl

theorem At.rest (h : lexer.At text) : lexer.rest = text.drop lexer.pos := by
  unfold DslLexer.rest
  rw [h.input]

theorem At.peek (h : lexer.At text) (hpeek : lexer.peek ≠ 0) : text[lexer.pos]? = some lexer.peek := by
  have hrest := peek_eq lexer
  rw [h.rest] at hrest
  cases hdrop : text.drop lexer.pos with
  | nil =>
    rw [hdrop] at hrest
    exact absurd hrest hpeek
  | cons c rest =>
    rw [hdrop, List.headD_cons] at hrest
    rw [hrest, ← List.head?_drop, hdrop, List.head?_cons]

theorem At.peek_eq {c : UInt8} (h : lexer.At text) (hc : text[lexer.pos]? = some c)
    : lexer.peek = c ∧ c ≠ 0 := by
  have hrest : lexer.rest.head? = some c := by
    rw [h.rest, List.head?_drop, hc]
  refine ⟨?_, ?_⟩
  . rw [DslLexer.peek_eq, List.headD_eq_head?_getD, hrest]
    rfl
  . intro hzero
    rw [hzero] at hrest
    exact lexer.zero_not_mem_rest (List.mem_of_mem_head? hrest)

theorem At.advance (h : lexer.At text) : lexer.advance.At text := by
  by_cases hpeek : lexer.peek = 0
  . unfold DslLexer.advance
    rw [dif_pos hpeek]
    exact h
  . have hc := h.peek hpeek
    refine ⟨?_, ?_, ?_⟩
    . rw [advance_input]
      exact h.input
    all_goals
      rw [advance_pos hpeek]
      unfold DslLexer.advance
      rw [dif_neg hpeek]
      dsimp only
    . split
      . next hnewline => rw [lineAt_newline (hnewline ▸ hc), h.line]
      . next hne => rw [lineAt_of_ne hc hne, h.line]
    . split
      . next hnewline => rw [columnAt_newline (hnewline ▸ hc)]
      . next hne => rw [columnAt_of_ne hc hne, h.column]

theorem At.advanceWhile (h : lexer.At text) : (lexer.advanceWhile p hp).At text := by
  fun_induction DslLexer.advanceWhile p hp lexer with
  | case1 lexer hpeek ih => exact ih h.advance
  | case2 => exact h

theorem At.slice_eq (h : lexer.At text) (p : UInt8 → Bool) (hp : p 0 = false)
    : slice text lexer.pos (lexer.advanceWhile p hp).pos = lexer.rest.takeWhile p := by
  rw [(rest_advanceWhile lexer).2, slice_eq_take, ← h.rest]
  exact (List.prefix_iff_eq_take.mp (List.takeWhile_prefix p)).symm

theorem At.pos_le (h : lexer.At text) : lexer.pos ≤ text.length := by
  rw [h.length]
  exact lexer.pos_le

theorem At.skipped (h : lexer.At text) (hblank : ∀ c, p c = true → DslLexer.isBlank c = true)
    : Skipped text lexer.pos (lexer.advanceWhile p hp).pos := by
  apply Skipped.of_blanks
  . exact pos_le_advanceWhile p hp lexer
  . exact h.advanceWhile.pos_le
  . rw [h.slice_eq]
    intro c hc
    exact hblank c (List.mem_takeWhile_imp hc)

theorem peek_advanceWhile (lexer : DslLexer) : p (lexer.advanceWhile p hp).peek = false := by
  fun_induction DslLexer.advanceWhile p hp lexer with
  | case1 lexer hpeek ih => exact ih
  | case2 lexer hpeek => exact Bool.not_eq_true _ ▸ hpeek

-- The spaces in front of a raw body do not end the line.
theorem advanceWhile_line (hline : p 10 = false) (lexer : DslLexer)
    : (lexer.advanceWhile p hp).line = lexer.line := by
  fun_induction DslLexer.advanceWhile p hp lexer with
  | case1 lexer hpeek ih =>
    have hne : lexer.peek ≠ 10 := by
      intro heq
      rw [heq, hline] at hpeek
      cases hpeek
    rw [ih]
    unfold DslLexer.advance
    split
    . rfl
    . dsimp only
  | case2 => rfl

end DslLexer

/-- A call of the lexer at `pos` finds `token` at `span`, and leaves the cursor at `next`. -/
structure DslToken.ScannedAt (token : DslToken) (text : Bytes) (pos : Nat) (span : Span) (next : Nat)
    : Prop where
  before : Skipped text pos span.start
  token : token.At text span
  behind : Skipped text span.stop next

section Scanners

open DslLexer

variable {lexer : DslLexer} {text : Bytes}

/-- What a scanner returns that is called at the first byte of a token. -/
def Scanned (lexer : DslLexer) (text : Bytes) (res : DslToken × DslLexer) : Prop :=
  ∃ span, res.1.ScannedAt text lexer.pos span res.2.pos ∧ res.2.At text

theorem DslLexer.At.spelled_advanceWhile (h : lexer.At text) (p : UInt8 → Bool) (hp : p 0 = false)
    : dslStrndup (lexer.input.drop lexer.pos) ((lexer.advanceWhile p hp).pos - lexer.pos) =
        slice text lexer.pos (lexer.advanceWhile p hp).pos := by
  rw [text_advanceWhile, h.slice_eq]

theorem scanNumber_scanned (h : lexer.At text) : Scanned lexer text lexer.scanNumber := by
  refine ⟨⟨lexer.pos, _, pos_le_advanceWhile isdigit (by decide) lexer⟩, ⟨.refl, ?_, .refl⟩,
    h.advanceWhile⟩
  refine .of_inner (by intro h; cases h) h.advanceWhile.pos_le h.line h.column ?_
  exact congrArg some (h.spelled_advanceWhile isdigit (by decide))

theorem keywordType_spelled {word : Bytes} {line column : Nat}
    : DslToken.Spelled ⟨keywordType word, some word, line, column⟩ word := by
  have heof := @keywordType_ne .eof word (by decide)
  have herror := @keywordType_ne .error word (by decide)
  have hnewline := @keywordType_ne .newline word (by decide)
  have hstring := @keywordType_ne .string word (by decide)
  unfold DslToken.Spelled
  dsimp only
  split <;> first | contradiction | rfl

theorem scanIdentifier_scanned (h : lexer.At text) : Scanned lexer text lexer.scanIdentifier := by
  have hspelled := h.spelled_advanceWhile isIdentChar (by decide)
  have hnext := @DslLexer.At.advanceWhile isIdentChar (by decide) lexer text h
  have hres : lexer.scanIdentifier.2.At text := by
    unfold scanIdentifier
    dsimp only
    split
    . exact ⟨hnext.input, hnext.line, hnext.column⟩
    . exact hnext
  have hpos : lexer.scanIdentifier.2.pos = (lexer.advanceWhile isIdentChar (by decide)).pos := by
    unfold scanIdentifier
    dsimp only
    split <;> rfl
  refine ⟨⟨lexer.pos, _, pos_le_advanceWhile isIdentChar (by decide) lexer⟩, ⟨.refl, ?_, ?_⟩, hres⟩
  . refine .of_inner (keywordType_ne _ (by decide)) hnext.pos_le h.line h.column ?_
    unfold Span.slice
    dsimp only
    rw [← hspelled]
    exact keywordType_spelled
  . rw [hpos]
    exact .refl

theorem scanString_scanned (h : lexer.At text) (hquote : lexer.peek = 34)
    : Scanned lexer text lexer.scanString := by
  have hpeek : lexer.peek ≠ 0 := by
    rw [hquote]
    decide
  have hopened := advance_pos hpeek
  have hfirst := h.peek hpeek
  rw [hquote] at hfirst
  have hspelled := h.advance.spelled_advanceWhile (fun c => c != 34 && c != 0 && c != 10) rfl
  rw [advance_input] at hspelled
  have hle := pos_le_advanceWhile (fun c => c != 34 && c != 0 && c != 10) rfl lexer.advance
  have hnext := @DslLexer.At.advanceWhile (fun c => c != 34 && c != 0 && c != 10) rfl _ text h.advance
  unfold scanString
  dsimp only
  generalize lexer.advance.advanceWhile (fun c => c != 34 && c != 0 && c != 10) rfl = next at *
  split
  . refine ⟨⟨lexer.pos, next.pos, by omega⟩, ⟨.refl, ?_, .refl⟩, hnext⟩
    refine .of_inner (by intro h; cases h) hnext.pos_le h.line h.column (.inl ⟨rfl, ?_⟩)
    unfold Span.slice
    dsimp only
    rw [slice_cons hfirst (by omega)]
    rfl
  . next hclosed =>
    rw [ne_eq, Decidable.not_not] at hclosed
    have hclosedPeek : next.peek ≠ 0 := by
      rw [hclosed]
      decide
    have hlast := hnext.peek hclosedPeek
    rw [hclosed] at hlast
    have hclose := advance_pos hclosedPeek
    have hclosed_le : lexer.pos ≤ next.advance.pos := by omega
    refine ⟨⟨lexer.pos, next.advance.pos, hclosed_le⟩, ⟨.refl, ?_, .refl⟩, hnext.advance⟩
    refine .of_inner (by intro h; cases h) hnext.advance.pos_le h.line h.column ⟨_, rfl, ?_⟩
    have hinner : slice text lexer.pos next.pos = [34] ++ slice text lexer.advance.pos next.pos := by
      rw [slice_cons hfirst (by omega), hopened]
      rfl
    unfold Span.slice
    dsimp only
    rw [hspelled, hclose, ← slice_append_slice (by omega) (Nat.le_succ next.pos), slice_succ hlast, hinner]

-- The blanks at the end are cut off the text of a raw body, and no token has them.
theorem rdropWhile_blanks {start stop : Nat} {p : UInt8 → Bool} (hle : start ≤ stop)
    (hstop : stop ≤ text.length) (hblank : ∀ c, p c = true → DslLexer.isBlank c = true)
    : ∃ mid, start ≤ mid ∧ mid ≤ stop ∧ slice text start mid = (slice text start stop).rdropWhile p ∧
        Skipped text mid stop := by
  induction hle with
  | refl =>
    have hnil : slice text start start = [] := by simp [slice]
    exact ⟨start, Nat.le_refl _, Nat.le_refl _, by rw [hnil]; rfl, .refl⟩
  | @step stop hle ih =>
    have hc : text[stop]? = some text[stop] := List.getElem?_eq_getElem hstop
    have hsplit : slice text start (stop + 1) = slice text start stop ++ [text[stop]] := by
      rw [← slice_append_slice hle (Nat.le_succ stop), slice_succ hc]
    by_cases hlast : p text[stop] = true
    . rcases ih (by omega) with ⟨mid, hmid, hmid', hslice, hskip⟩
      refine ⟨mid, hmid, by omega, ?_, hskip.blank hc (hblank _ hlast)⟩
      rw [hslice, hsplit, List.rdropWhile_concat_pos _ _ _ hlast]
    . refine ⟨stop + 1, by omega, Nat.le_refl _, ?_, .refl⟩
      rw [hsplit, List.rdropWhile_concat_neg _ _ _ hlast]

theorem scanBodyRaw_scanned (h : lexer.At text) : Scanned lexer text lexer.scanBodyRaw := by
  have hstart := @DslLexer.At.advanceWhile (fun c => c == 32 || c == 9) rfl _ text h
  have hline := @advanceWhile_line (fun c => c == 32 || c == 9) rfl rfl lexer
  have hskip := @DslLexer.At.skipped (fun c => c == 32 || c == 9) rfl lexer text h
    (by intro c hc; simp [DslLexer.isBlank, hc])
  have hinput := @advanceWhile_input (fun c => c == 32 || c == 9) rfl lexer
  unfold scanBodyRaw
  dsimp only
  generalize lexer.advanceWhile (fun c => c == 32 || c == 9) rfl = start at *
  have hspelled := hstart.spelled_advanceWhile (fun c => c != 0 && c != 10 && c != 13) rfl
  have hle := pos_le_advanceWhile (fun c => c != 0 && c != 10 && c != 13) rfl start
  have hnext := @DslLexer.At.advanceWhile (fun c => c != 0 && c != 10 && c != 13) rfl _ text hstart
  rw [hinput] at hspelled
  generalize start.advanceWhile (fun c => c != 0 && c != 10 && c != 13) rfl = next at *
  have htrim := @rdropWhile_blanks text start.pos next.pos (fun c => c == 32 || c == 9) hle hnext.pos_le
    (by intro c hc; simp [DslLexer.isBlank, hc])
  rcases htrim with ⟨mid, hmid, hmid', hraw, hbehind⟩
  refine ⟨⟨start.pos, mid, hmid⟩, ⟨hskip, ?_, hbehind⟩, hnext⟩
  refine .of_inner (by intro h; cases h) (Nat.le_trans hmid' hnext.pos_le) ?_ hstart.column ?_
  . exact hline.symm.trans hstart.line
  . rw [hspelled]
    exact congrArg some hraw.symm

theorem DslLexer.At.skipSpacesAndTabs (h : lexer.At text)
    : Skipped text lexer.pos lexer.skipSpacesAndTabs.pos ∧ lexer.skipSpacesAndTabs.At text :=
  ⟨h.skipped (fun _ hc => hc), h.advanceWhile⟩

theorem DslLexer.At.skipComment (h : lexer.At text) (hc : lexer.peek = 35)
    : Comment text lexer.pos lexer.skipComment.pos ∧ lexer.skipComment.At text := by
  have hpeek : lexer.peek ≠ 0 := by
    rw [hc]
    decide
  have hnext : lexer.skipComment.At text := h.advanceWhile
  refine ⟨⟨?_, hc ▸ h.peek hpeek, ?_, ?_⟩, hnext⟩
  . apply pos_lt_advanceWhile
    rw [hc]
    decide
  . unfold DslLexer.skipComment
    rw [h.slice_eq]
    intro hmem
    have := List.mem_takeWhile_imp hmem
    simp at this
  . intro c hmem
    have hlast := hnext.peek_eq hmem
    have hstop := @peek_advanceWhile (fun c => c != 0 && c != 10) rfl lexer
    unfold DslLexer.skipComment at hlast
    rw [hlast.1] at hstop
    simpa [hlast.2] using hstop

theorem Scanned.of_skipped {start : DslLexer} {res : DslToken × DslLexer} (h : Scanned start text res)
    (hskip : Skipped text lexer.pos start.pos) : Scanned lexer text res := by
  rcases h with ⟨span, hspan, hnext⟩
  exact ⟨span, ⟨hskip.trans hspan.before, hspan.token, hspan.behind⟩, hnext⟩

/-- A call of the lexer finds one token, and only blanks and comments around it. -/
theorem dslLexerNextToken_scanned (h : lexer.At text) : Scanned lexer text (dslLexerNextToken lexer) := by
  fun_induction dslLexerNextToken lexer with
  | case1 lexer start hraw =>
    have hstart := h.skipSpacesAndTabs
    have hflag : { start with readBodyRawNext := false }.At text :=
      ⟨hstart.2.input, hstart.2.line, hstart.2.column⟩
    exact (scanBodyRaw_scanned hflag).of_skipped hstart.1
  | case2 lexer start c hraw hc =>
    have hstart := h.skipSpacesAndTabs
    have hend : start.pos = text.length := by
      have hrest := peek_eq_zero_iff.mp hc
      rw [hstart.2.rest, List.drop_eq_nil_iff] at hrest
      exact Nat.le_antisymm hstart.2.pos_le hrest
    refine ⟨⟨start.pos, start.pos, Nat.le_refl _⟩, ⟨hstart.1, ?_, .refl⟩, hstart.2⟩
    refine ⟨hstart.2.pos_le, hstart.2.line, hstart.2.column, ⟨rfl, ?_⟩, fun _ => hend⟩
    simp [Span.slice, slice]
  | case3 lexer start c hraw hc hnewline =>
    have hstart := h.skipSpacesAndTabs
    refine ⟨⟨start.pos, start.advance.pos, pos_le_advance start⟩, ⟨hstart.1, ?_, .refl⟩, hstart.2.advance⟩
    have hpos := hstart.2.advance.pos_le
    refine .of_inner (by intro h; cases h) hpos hstart.2.line hstart.2.column ⟨rfl, ?_⟩
    have hfirst := hstart.2.peek hc
    unfold Span.slice
    dsimp only
    rw [advance_pos hc, slice_succ hfirst]
    exact congrArg (fun c => [c]) hnewline
  | case4 lexer start c hraw hc hnewline hquote =>
    exact (scanString_scanned h.skipSpacesAndTabs.2 hquote).of_skipped h.skipSpacesAndTabs.1
  | case5 lexer start c hraw hc hnewline hquote hdigit =>
    exact (scanNumber_scanned h.skipSpacesAndTabs.2).of_skipped h.skipSpacesAndTabs.1
  | case6 lexer start c hraw hc hnewline hquote hdigit hident =>
    exact (scanIdentifier_scanned h.skipSpacesAndTabs.2).of_skipped h.skipSpacesAndTabs.1
  | case7 lexer start c hraw hc hnewline hquote hdigit hident hcomment ih =>
    have hstart := h.skipSpacesAndTabs
    have hskip := hstart.2.skipComment hcomment
    exact (ih hskip.2).of_skipped (hstart.1.comment hskip.1)
  | case8 lexer start c hraw hc hnewline hquote hdigit hident hcomment msg =>
    have hstart := h.skipSpacesAndTabs
    refine ⟨⟨start.pos, start.advance.pos, pos_le_advance start⟩, ⟨hstart.1, ?_, .refl⟩, hstart.2.advance⟩
    have hpos := hstart.2.advance.pos_le
    refine .of_inner (by intro h; cases h) hpos hstart.2.line hstart.2.column (.inr ⟨c, rfl, ?_⟩)
    have hfirst := hstart.2.peek hc
    unfold Span.slice
    dsimp only
    rw [advance_pos hc, slice_succ hfirst]

end Scanners

section Stream

variable {lexer : DslLexer} {text : Bytes}

theorem dslCreateLexer_at (source : Bytes) : (dslCreateLexer source).At (cstring source) where
  input := rfl
  line := rfl
  column := rfl

/-- The tokens from `pos` on with their spans, one call after the other. -/
inductive Tokenized (text : Bytes) : Nat → List DslToken → List Span → Prop where
  | last {pos next : Nat} {token : DslToken} {span : Span} (h : token.ScannedAt text pos span next)
    : Tokenized text pos [token] [span]
  | cons {pos next : Nat} {token : DslToken} {span : Span} {tokens : List DslToken}
      {spans : List Span} (h : token.ScannedAt text pos span next)
      (hrest : Tokenized text next tokens spans)
    : Tokenized text pos (token :: tokens) (span :: spans)

theorem dslLexerGetTokens_tokenized (h : lexer.At text)
    : ∃ spans, Tokenized text lexer.pos (dslLexerGetTokens lexer) spans := by
  fun_induction dslLexerGetTokens lexer with
  | case1 lexer hfinal =>
    rcases dslLexerNextToken_scanned h with ⟨span, hspan, _⟩
    exact ⟨[span], .last hspan⟩
  | case2 lexer hfinal ih =>
    rcases dslLexerNextToken_scanned h with ⟨span, hspan, hnext⟩
    rcases ih hnext with ⟨spans, hrest⟩
    exact ⟨span :: spans, .cons hspan hrest⟩

namespace Tokenized

variable {pos i : Nat} {tokens : List DslToken} {spans : List Span}

theorem forall₂_at (h : Tokenized text pos tokens spans)
    : List.Forall₂ (fun token span => token.At text span) tokens spans := by
  induction h with
  | last h => exact .cons h.token .nil
  | cons h _ ih => exact .cons h.token ih

theorem le_start (h : Tokenized text pos tokens spans) : ∀ span ∈ spans, pos ≤ span.start := by
  induction h with
  | last h =>
    intro span hspan
    rw [List.mem_singleton] at hspan
    rw [hspan]
    exact h.before.le
  | @cons pos next token span tokens spans h _ ih =>
    intro span' hspan
    have hbefore := h.before.le
    have hbehind := h.behind.le
    have hspan_le := span.start_le
    cases List.mem_cons.mp hspan with
    | inl heq =>
      rw [heq]
      exact hbefore
    | inr hmem =>
      have := ih span' hmem
      omega

theorem pairwise (h : Tokenized text pos tokens spans)
    : spans.Pairwise (fun span span' => span.stop ≤ span'.start) := by
  induction h with
  | last h => exact List.pairwise_singleton _ _
  | @cons pos next token span tokens spans h hrest ih =>
    refine List.pairwise_cons.mpr ⟨?_, ih⟩
    intro span' hspan
    have hbehind := h.behind.le
    have hnext := hrest.le_start span' hspan
    omega

/-- A position that no token has is a blank, or it is in a comment that no token has a part of. -/
theorem between (h : Tokenized text pos tokens spans) (hpos : pos ≤ i)
    (hbefore : ∃ span ∈ spans, i < span.start) (hout : ∀ span ∈ spans, ¬ span.Covers i)
    : (∃ c, text[i]? = some c ∧ DslLexer.isBlank c = true) ∨
        ∃ start stop, Comment text start stop ∧ pos ≤ start ∧ start ≤ i ∧ i < stop ∧
          ∀ span ∈ spans, span.stop ≤ start ∨ stop ≤ span.start := by
  induction h with
  | @last pos next token span h =>
    simp only [List.mem_singleton, exists_eq_left] at hbefore
    apply h.before.outside hpos hbefore
    intro span' hspan
    rw [List.mem_singleton] at hspan
    rw [hspan]
    exact .inr (Nat.le_refl _)
  | @cons pos next token span tokens spans h hrest ih =>
    have hle := h.before.le
    have hspan := span.start_le
    have hbehind := h.behind.le
    by_cases hi : i < span.start
    . apply h.before.outside hpos hi
      intro span' hspan'
      cases List.mem_cons.mp hspan' with
      | inl heq =>
        rw [heq]
        exact .inr (Nat.le_refl _)
      | inr hmem =>
        have := hrest.le_start span' hmem
        exact .inr (by omega)
    . have hstop : span.stop ≤ i := by
        have := hout span List.mem_cons_self
        unfold Span.Covers at this
        omega
      by_cases hnext : i < next
      . have hspans : ∀ span' ∈ span :: spans, span'.stop ≤ span.stop ∨ next ≤ span'.start := by
          intro span' hspan'
          cases List.mem_cons.mp hspan' with
          | inl heq =>
            rw [heq]
            exact .inl (Nat.le_refl _)
          | inr hmem => exact .inr (hrest.le_start span' hmem)
        cases h.behind.outside hstop hnext hspans with
        | inl hblank => exact .inl hblank
        | inr hcomment =>
          rcases hcomment with ⟨start, stop, hcomment, hstart, hi, hi', hdisjoint⟩
          exact .inr ⟨start, stop, hcomment, by omega, hi, hi', hdisjoint⟩
      . have hlater : ∃ span ∈ spans, i < span.start := by
          rcases hbefore with ⟨span', hspan', hlt⟩
          cases List.mem_cons.mp hspan' with
          | inl heq =>
            rw [heq] at hlt
            exact absurd hlt hi
          | inr hmem => exact ⟨span', hmem, hlt⟩
        cases ih (by omega) hlater (fun span' hmem => hout span' (List.mem_cons_of_mem _ hmem)) with
        | inl hblank => exact .inl hblank
        | inr hcomment =>
          rcases hcomment with ⟨start, stop, hcomment, hstart, hi, hi', hdisjoint⟩
          refine .inr ⟨start, stop, hcomment, by omega, hi, hi', ?_⟩
          intro span' hspan'
          cases List.mem_cons.mp hspan' with
          | inl heq =>
            rw [heq]
            exact .inl (by omega)
          | inr hmem => exact hdisjoint span' hmem

end Tokenized

/-- Where the tokens of a source are, and what is left of it. -/
structure Lossless (source : Bytes) (tokens : List DslToken) (spans : List Span) : Prop where
  tokens : List.Forall₂ (fun token span => token.At source span) tokens spans
  disjoint : spans.Pairwise (fun span span' => span.stop ≤ span'.start)
  between : ∀ i, (∃ span ∈ spans, i < span.start) → (∀ span ∈ spans, ¬ span.Covers i) →
    (∃ c, source[i]? = some c ∧ DslLexer.isBlank c = true) ∨
      ∃ start stop, Comment source start stop ∧ start ≤ i ∧ i < stop ∧
        ∀ span ∈ spans, span.stop ≤ start ∨ stop ≤ span.start

/-- The lexer loses nothing of a source without a terminator, and its positions are true. -/
theorem dslLexerGetTokens_lossless {source : Bytes} (hsource : 0 ∉ source)
    : ∃ spans, Lossless source (dslLexerGetTokens (dslCreateLexer source)) spans := by
  have hstart := dslCreateLexer_at source
  rw [cstring_eq_self (fun c hc heq => hsource (heq ▸ hc))] at hstart
  rcases dslLexerGetTokens_tokenized hstart with ⟨spans, hspans⟩
  refine ⟨spans, hspans.forall₂_at, hspans.pairwise, ?_⟩
  intro i hbefore hout
  cases hspans.between (Nat.zero_le i) hbefore hout with
  | inl hblank => exact .inl hblank
  | inr hcomment =>
    rcases hcomment with ⟨start, stop, hcomment, _, hi, hi', hdisjoint⟩
    exact .inr ⟨start, stop, hcomment, hi, hi', hdisjoint⟩

theorem dslLexerGetTokens_lossless_request
    : ∃ spans, Lossless (ascii "GET u # v\n")
        (dslLexerGetTokens (dslCreateLexer (ascii "GET u # v\n"))) spans :=
  dslLexerGetTokens_lossless (by decide)

-- The text of the only newline has two bytes.
theorem newline_text_ne_slice
    : ¬ ∃ spans : List Span, List.Forall₂
        (fun token span => token.type = .newline → token.str = some (span.slice [10]))
        (dslLexerGetTokens (dslCreateLexer [10])) spans := by
  rintro ⟨spans, hspans⟩
  have htokens : dslLexerGetTokens (dslCreateLexer [10]) =
      [⟨.newline, some [92, 110], 1, 1⟩, ⟨.eof, none, 2, 1⟩] := by decide +kernel
  rw [htokens] at hspans
  cases hspans with
  | @cons _ span _ _ hspan _ =>
    have hlength := congrArg List.length (Option.some.inj (hspan rfl))
    have hle : (span.slice ([10] : Bytes)).length ≤ 1 := by
      unfold Span.slice slice
      rw [List.length_take, List.length_drop, List.length_singleton]
      omega
    rw [← hlength] at hle
    exact absurd hle (by decide)

end Stream

end HttpRuntime
