import HttpRuntime.Dsl.Lexer.Chunks
import HttpRuntime.Dsl.Lexer.Spans

/-!
This module contains the lexer without its positions: the types and texts of the tokens as a function
of the bytes that are left. What a token says does not depend on what comes long after it.
-/

open Lib

namespace HttpRuntime

abbrev Word := DslTokenType × Option Bytes

def DslToken.word (t : DslToken) : Word := (t.type, t.str)

def Word.isFinal (w : Word) : Bool := w.1 = .eof || w.1 = .error

/-- The bytes in front of the lexer, and whether it is behind a `BODY`. -/
structure Tape where
  raw : Bool
  rest : Bytes

def DslLexer.tape (lexer : DslLexer) : Tape := ⟨lexer.readBodyRawNext, lexer.rest⟩

namespace Tape

def inString (c : UInt8) : Bool := c != 34 && c != 0 && c != 10

def inLine (c : UInt8) : Bool := c != 0 && c != 10 && c != 13

def inComment (c : UInt8) : Bool := c != 0 && c != 10

def newlineWord : Word := (.newline, some (ascii "\\n"))

-- The raw body, whose text ends before the spaces and tabs at the end of the line.
def nextRaw (s : Bytes) : Word × Tape :=
  let raw := (s.takeWhile inLine).rdropWhile (fun c => c == 32 || c == 9)
  ((.bodyRaw, some raw), ⟨false, s.dropWhile inLine⟩)

def nextString (s : Bytes) : Word × Tape :=
  match s.dropWhile inString with
  | [] => ((.error, some (ascii "unterminated string")), ⟨false, []⟩)
  | c :: after =>
    if c = 34 then ((.string, some (s.takeWhile inString)), ⟨false, after⟩)
    else ((.error, some (ascii "unterminated string")), ⟨false, c :: after⟩)

-- The comment is passed over up to its line end, which is the word.
def nextComment (s : Bytes) : Word × Tape :=
  match s.dropWhile inComment with
  | [] => ((.eof, none), ⟨false, []⟩)
  | _ :: after => (newlineWord, ⟨false, after⟩)

def nextIdentifier (s : Bytes) : Word × Tape :=
  let word := s.takeWhile isIdentChar
  ((keywordType word, some word), ⟨keywordType word = .bodyStmt, s.dropWhile isIdentChar⟩)

-- The word that begins with the first byte.
def nextAt (s : Bytes) : Word × Tape :=
  match s with
  | [] => ((.eof, none), ⟨false, []⟩)
  | c :: cs =>
    if c = 10 then (newlineWord, ⟨false, cs⟩)
    else if c = 34 then nextString cs
    else if isdigit c then ((.int, some (s.takeWhile isdigit)), ⟨false, s.dropWhile isdigit⟩)
    else if isIdentStart c then nextIdentifier s
    else if c = 35 then nextComment cs
    else ((.error, some (ascii "unexpected character '" ++ [c] ++ ascii "'")), ⟨false, cs⟩)

def next (tape : Tape) : Word × Tape :=
  let s := tape.rest.dropWhile DslLexer.isBlank
  if tape.raw then nextRaw s else nextAt s

end Tape

section Lexer

open DslLexer Tape

variable {lexer start : DslLexer} {s : Bytes}

-- A token with its lexer, and the word with its tape.
def ReadsWord (res : DslToken × DslLexer) (word : Word × Tape) : Prop :=
  res.1.word = word.1 ∧ res.2.tape = word.2

theorem tape_advanceWhile (p : UInt8 → Bool) (hp : p 0 = false) (lexer : DslLexer)
    : (lexer.advanceWhile p hp).tape = ⟨lexer.readBodyRawNext, lexer.rest.dropWhile p⟩ := by
  unfold tape
  rw [advanceWhile_readBodyRawNext, (rest_advanceWhile lexer).1]

theorem tape_skipSpacesAndTabs (lexer : DslLexer)
    : lexer.skipSpacesAndTabs.tape = ⟨lexer.readBodyRawNext, lexer.rest.dropWhile DslLexer.isBlank⟩ :=
  tape_advanceWhile _ _ lexer

theorem scanNumber_reads (hraw : start.readBodyRawNext = false)
    : ReadsWord start.scanNumber
        ((.int, some (start.rest.takeWhile isdigit)), ⟨false, start.rest.dropWhile isdigit⟩) := by
  unfold scanNumber
  dsimp only
  rw [text_advanceWhile]
  refine ⟨rfl, ?_⟩
  rw [tape_advanceWhile, hraw]

theorem scanIdentifier_reads (hraw : start.readBodyRawNext = false)
    : ReadsWord start.scanIdentifier (nextIdentifier start.rest) := by
  unfold scanIdentifier nextIdentifier
  dsimp only
  rw [text_advanceWhile]
  have htape := tape_advanceWhile isIdentChar (by decide) start
  unfold tape at htape
  rw [Tape.mk.injEq] at htape
  refine ⟨rfl, ?_⟩
  split
  . next hbody =>
    unfold tape
    rw [Tape.mk.injEq]
    exact ⟨(decide_eq_true hbody).symm, htape.2⟩
  . next hbody =>
    unfold tape
    rw [Tape.mk.injEq, htape.1, hraw]
    exact ⟨(decide_eq_false hbody).symm, htape.2⟩

theorem scanString_reads (hraw : start.readBodyRawNext = false) {cs : Bytes} (hrest : start.rest = 34 :: cs)
    : ReadsWord start.scanString (nextString cs) := by
  have hopened : start.advance.rest = cs := by rw [rest_advance, hrest, List.tail_cons]
  have htext := start.advance.text_advanceWhile inString rfl
  have htape := tape_advanceWhile inString rfl start.advance
  rw [advance_input, hopened] at htext
  rw [hopened, advance_readBodyRawNext, hraw] at htape
  have heq : (fun c : UInt8 => c != 34 && c != 0 && c != 10) = inString := rfl
  unfold scanString nextString
  dsimp only
  simp only [heq]
  generalize start.advance.advanceWhile inString rfl = next at *
  unfold tape at htape
  rw [Tape.mk.injEq] at htape
  cases hdrop : cs.dropWhile inString with
  | nil =>
    have hpeek : next.peek ≠ 34 := by
      rw [peek_eq, htape.2, hdrop]
      decide
    rw [if_pos hpeek]
    refine ⟨rfl, ?_⟩
    unfold tape
    rw [htape.1, htape.2, hdrop]
  | cons c after =>
    have hpeek : next.peek = c := by
      rw [peek_eq, htape.2, hdrop]
      rfl
    dsimp only
    rw [hpeek]
    by_cases hc : c = 34
    . rw [if_pos hc, if_neg (not_not.mpr hc), htext]
      refine ⟨rfl, ?_⟩
      unfold tape
      rw [advance_readBodyRawNext, rest_advance, htape.1, htape.2, hdrop, List.tail_cons]
    . rw [if_neg hc, if_pos hc]
      refine ⟨rfl, ?_⟩
      unfold tape
      rw [htape.1, htape.2, hdrop]

-- The blanks in front of the raw body are gone already.
theorem scanBodyRaw_reads (hraw : start.readBodyRawNext = false)
    (hblank : ∀ c ∈ start.rest.head?, DslLexer.isBlank c = false)
    : ReadsWord start.scanBodyRaw (nextRaw start.rest) := by
  have hskip : start.advanceWhile (fun c => c == 32 || c == 9) rfl = start := by
    unfold advanceWhile
    rw [dif_neg]
    rw [peek_eq]
    cases hrest : start.rest with
    | nil => decide
    | cons c cs =>
      have hc := hblank c (by rw [hrest]; rfl)
      unfold DslLexer.isBlank at hc
      rw [List.headD_cons]
      simp only [Bool.or_eq_false_iff] at hc
      simp [hc.1.1, hc.1.2]
  have heq : (fun c : UInt8 => c != 0 && c != 10 && c != 13) = inLine := rfl
  unfold scanBodyRaw nextRaw
  dsimp only
  rw [hskip]
  simp only [heq]
  rw [text_advanceWhile]
  refine ⟨rfl, ?_⟩
  rw [tape_advanceWhile, hraw]

theorem head_dropWhile {p : UInt8 → Bool} {c : UInt8} (hc : (s.dropWhile p).head? = some c)
    : p c = false := by
  have hstop := List.head?_dropWhile_not p s
  rw [hc] at hstop
  simpa using hstop

theorem skipComment_reads (hraw : start.readBodyRawNext = false) {cs : Bytes}
    (hrest : start.rest = 35 :: cs)
    : start.skipComment.tape.next = nextComment cs := by
  have htape : start.skipComment.tape = ⟨false, cs.dropWhile inComment⟩ := by
    have heq := tape_advanceWhile inComment rfl start
    rw [hraw, hrest, List.dropWhile_cons_of_pos (by decide)] at heq
    exact heq
  rw [htape]
  unfold next nextComment
  cases hdrop : cs.dropWhile inComment with
  | nil => rfl
  | cons c after =>
    have hc : c = 10 := by
      have hstop := head_dropWhile (s := cs) (by rw [hdrop]; rfl)
      have hmem : c ∈ start.rest := by
        rw [hrest]
        apply List.mem_cons_of_mem
        apply (List.dropWhile_suffix inComment).subset
        rw [hdrop]
        exact List.mem_cons_self
      have hzero : c ≠ 0 := fun heq => start.zero_not_mem_rest (heq ▸ hmem)
      unfold inComment at hstop
      simpa [hzero] using hstop
    rw [hc]
    rfl

theorem tape_next (lexer : DslLexer)
    : lexer.tape.next =
        if lexer.skipSpacesAndTabs.readBodyRawNext then nextRaw lexer.skipSpacesAndTabs.rest
        else nextAt lexer.skipSpacesAndTabs.rest := by
  have hskip := tape_skipSpacesAndTabs lexer
  unfold tape at hskip
  rw [Tape.mk.injEq] at hskip
  rw [hskip.1, hskip.2]
  rfl

theorem head_skipSpacesAndTabs (lexer : DslLexer)
    : ∀ c ∈ lexer.skipSpacesAndTabs.rest.head?, DslLexer.isBlank c = false := by
  have hstop : DslLexer.isBlank lexer.skipSpacesAndTabs.peek = false := peek_advanceWhile lexer
  rw [peek_eq] at hstop
  intro c hc
  rw [List.headD_eq_head?_getD, Option.mem_def.mp hc] at hstop
  exact hstop

theorem rest_of_peek (h : start.peek ≠ 0) : ∃ cs, start.rest = start.peek :: cs := by
  have hpeek := peek_eq start
  cases hrest : start.rest with
  | nil => exact absurd (peek_eq_zero_iff.mpr hrest) h
  | cons c cs =>
    rw [hrest, List.headD_cons] at hpeek
    exact ⟨cs, by rw [hpeek]⟩

/-- A call of the lexer reads the next word. -/
theorem dslLexerNextToken_reads (lexer : DslLexer)
    : ReadsWord (dslLexerNextToken lexer) lexer.tape.next := by
  have hnext := tape_next lexer
  have hhead := head_skipSpacesAndTabs lexer
  fun_induction dslLexerNextToken lexer with
  | case1 lexer start hraw =>
    rw [hnext, if_pos hraw]
    exact @scanBodyRaw_reads { start with readBodyRawNext := false } rfl hhead
  | case2 lexer start c hraw hc =>
    have hrest : start.rest = [] := peek_eq_zero_iff.mp hc
    rw [hnext, if_neg hraw, hrest]
    refine ⟨rfl, ?_⟩
    unfold tape
    rw [hrest, Bool.eq_false_iff.mpr hraw]
    rfl
  | case3 lexer start c hraw hc hnewline =>
    obtain ⟨cs, hrest⟩ := rest_of_peek hc
    have hpeek : start.peek = 10 := hnewline
    rw [hnext, if_neg hraw, hrest, hpeek]
    refine ⟨rfl, ?_⟩
    unfold tape
    rw [advance_readBodyRawNext, rest_advance, hrest, Bool.eq_false_iff.mpr hraw]
    rfl
  | case4 lexer start c hraw hc hnewline hquote =>
    obtain ⟨cs, hrest⟩ := rest_of_peek hc
    have hpeek : start.peek = 34 := hquote
    rw [hpeek] at hrest
    rw [hnext, if_neg hraw, hrest]
    exact scanString_reads (Bool.eq_false_iff.mpr hraw) hrest
  | case5 lexer start c hraw hc hnewline hquote hdigit =>
    obtain ⟨cs, hrest⟩ := rest_of_peek hc
    have hword := scanNumber_reads (Bool.eq_false_iff.mpr hraw)
    rw [hnext, if_neg hraw]
    rw [hrest] at hword ⊢
    unfold nextAt
    dsimp only
    rw [if_neg hnewline, if_neg hquote, if_pos hdigit]
    exact hword
  | case6 lexer start c hraw hc hnewline hquote hdigit hident =>
    obtain ⟨cs, hrest⟩ := rest_of_peek hc
    have hword := scanIdentifier_reads (Bool.eq_false_iff.mpr hraw)
    rw [hnext, if_neg hraw]
    rw [hrest] at hword ⊢
    unfold nextAt
    dsimp only
    rw [if_neg hnewline, if_neg hquote, if_neg hdigit, if_pos hident]
    exact hword
  | case7 lexer start c hraw hc hnewline hquote hdigit hident hcomment ih =>
    obtain ⟨cs, hrest⟩ := rest_of_peek hc
    have hpeek : start.peek = 35 := hcomment
    have hword := ih (tape_next _) (head_skipSpacesAndTabs _)
    rw [skipComment_reads (Bool.eq_false_iff.mpr hraw) (hpeek ▸ hrest)] at hword
    rw [hnext, if_neg hraw, hrest]
    unfold nextAt
    dsimp only
    rw [if_neg hnewline, if_neg hquote, if_neg hdigit, if_neg hident, if_pos hcomment]
    exact hword
  | case8 lexer start c hraw hc hnewline hquote hdigit hident hcomment msg =>
    obtain ⟨cs, hrest⟩ := rest_of_peek hc
    rw [hnext, if_neg hraw, hrest]
    unfold nextAt
    dsimp only
    rw [if_neg hnewline, if_neg hquote, if_neg hdigit, if_neg hident, if_neg hcomment]
    refine ⟨rfl, ?_⟩
    unfold tape
    rw [advance_readBodyRawNext, rest_advance, hrest, Bool.eq_false_iff.mpr hraw]
    rfl

end Lexer

section Local

open DslLexer Tape

variable {p : UInt8 → Bool} {s rest' : Bytes} {res : Word × Tape}

/-- What may stand behind a word in the place of what stands there: it begins in the same way, or it
ends the word. -/
def MayFollow (res : Word × Tape) (rest' : Bytes) : Prop :=
  ∀ c ∈ rest'.head?, res.2.rest.head? = some c ∨ c = 10 ∨ c = 32 ∧ res.1.1 ≠ .bodyRaw

theorem run_append_of_follow (hrest : ∀ c ∈ rest'.head?, (s.dropWhile p).head? = some c ∨ p c = false)
    : (s.takeWhile p ++ rest').dropWhile p = rest' ∧
        (s.takeWhile p ++ rest').takeWhile p = s.takeWhile p := by
  apply dropWhile_run
  . intro c hc
    exact List.mem_takeWhile_imp hc
  . intro c hc
    cases hrest c hc with
    | inl hhead => exact head_dropWhile hhead
    | inr hstop => exact hstop

-- The bytes of a word are read as this word again.
def Local (f : Bytes → Word × Tape) (s : Bytes) : Prop :=
  ∃ used, s = used ++ (f s).2.rest ∧ (used = [] → (f s).1.1 = .bodyRaw) ∧
    ∀ rest', MayFollow (f s) rest' → f (used ++ rest') = ((f s).1, ⟨(f s).2.raw, rest'⟩)

theorem nextRaw_local (s : Bytes) : Local nextRaw s := by
  refine ⟨s.takeWhile inLine, List.takeWhile_append_dropWhile.symm, fun _ => rfl, ?_⟩
  intro rest' hfollows
  obtain ⟨hdrop, htake⟩ := @run_append_of_follow inLine s rest' (by
    intro c hc
    rcases hfollows c hc with hhead | rfl | ⟨_, hne⟩
    . exact .inl hhead
    . exact .inr rfl
    . exact absurd rfl hne)
  unfold nextRaw
  rw [hdrop, htake]

theorem nextString_local (hfinal : (nextString s).1.isFinal = false) : Local nextString s := by
  cases hrest : s.dropWhile inString with
  | nil =>
    unfold nextString at hfinal
    rw [hrest] at hfinal
    cases hfinal
  | cons c after =>
    by_cases hc : c = 34
    . have hs : nextString s = ((.string, some (s.takeWhile inString)), ⟨false, after⟩) := by
        unfold nextString
        rw [hrest]
        dsimp only
        rw [if_pos hc]
      rw [hc] at hrest
      unfold Local
      rw [hs]
      refine ⟨s.takeWhile inString ++ [34], ?_, by simp, ?_⟩
      . rw [List.append_assoc, List.singleton_append, ← hrest]
        exact List.takeWhile_append_dropWhile.symm
      . intro rest' _
        obtain ⟨hdrop, htake⟩ := @run_append_of_follow inString s (34 :: rest') (by
          intro c hc
          rw [List.head?_cons, Option.mem_some_iff] at hc
          exact .inr (hc ▸ rfl))
        rw [List.append_assoc, List.singleton_append]
        unfold nextString
        rw [hdrop, htake]
        rfl
    . unfold nextString at hfinal
      rw [hrest] at hfinal
      dsimp only at hfinal
      rw [if_neg hc] at hfinal
      cases hfinal

theorem nextComment_local (hfinal : (nextComment s).1.isFinal = false) : Local nextComment s := by
  cases hrest : s.dropWhile inComment with
  | nil =>
    unfold nextComment at hfinal
    rw [hrest] at hfinal
    cases hfinal
  | cons c after =>
    have hs : nextComment s = (newlineWord, ⟨false, after⟩) := by
      unfold nextComment
      rw [hrest]
    have hc : inComment c = false := head_dropWhile (s := s) (by rw [hrest]; rfl)
    unfold Local
    rw [hs]
    refine ⟨s.takeWhile inComment ++ [c], ?_, by simp, ?_⟩
    . rw [List.append_assoc, List.singleton_append, ← hrest]
      exact List.takeWhile_append_dropWhile.symm
    . intro rest' _
      obtain ⟨hdrop, _⟩ := @run_append_of_follow inComment s (c :: rest') (by
        intro c' hc'
        rw [List.head?_cons, Option.mem_some_iff] at hc'
        exact .inr (hc' ▸ hc))
      rw [List.append_assoc, List.singleton_append]
      unfold nextComment
      rw [hdrop]

-- A run of bytes that begins with `c`.
theorem run_local {f : Bytes → Word × Tape} {g : Bytes → Word × Bool} {c : UInt8} {cs : Bytes}
    (hf : ∀ s, f (c :: s) = ((g (c :: s.takeWhile p)).1, ⟨(g (c :: s.takeWhile p)).2, s.dropWhile p⟩))
    (hstop : p 10 = false ∧ p 32 = false) : Local f (c :: cs) := by
  have hcs := hf cs
  unfold Local
  rw [hcs]
  refine ⟨c :: cs.takeWhile p, ?_, by simp, ?_⟩
  . rw [List.cons_append, List.takeWhile_append_dropWhile]
  . intro rest' hfollows
    obtain ⟨hdrop, htake⟩ := @run_append_of_follow p cs rest' (by
      intro c hc
      rcases hfollows c hc with hhead | rfl | ⟨rfl, _⟩
      . exact .inl hhead
      . exact .inr hstop.1
      . exact .inr hstop.2)
    rw [List.cons_append, hf, htake, hdrop]

theorem nextAt_local (hfinal : (nextAt s).1.isFinal = false) : Local nextAt s := by
  cases s with
  | nil => cases hfinal
  | cons c cs =>
    by_cases hnewline : c = 10
    . have hs (s : Bytes) : nextAt (c :: s) = (newlineWord, ⟨false, s⟩) := by
        unfold nextAt
        dsimp only
        rw [if_pos hnewline]
      unfold Local
      rw [hs]
      refine ⟨[c], rfl, by simp, ?_⟩
      intro rest' _
      exact hs rest'
    by_cases hquote : c = 34
    . have hs (s : Bytes) : nextAt (c :: s) = nextString s := by
        unfold nextAt
        dsimp only
        rw [if_neg hnewline, if_pos hquote]
      rw [hs] at hfinal
      obtain ⟨used, hused, _, hlocal⟩ := nextString_local hfinal
      unfold Local
      rw [hs]
      refine ⟨c :: used, by rw [List.cons_append, ← hused], by simp, ?_⟩
      intro rest' hfollows
      rw [List.cons_append, hs, hlocal rest' hfollows]
    by_cases hdigit : isdigit c = true
    . apply @run_local isdigit nextAt (fun word => ((.int, some word), false))
      . intro s
        unfold nextAt
        dsimp only
        rw [if_neg hnewline, if_neg hquote, if_pos hdigit, List.takeWhile_cons_of_pos hdigit,
          List.dropWhile_cons_of_pos hdigit]
      . decide
    by_cases hident : isIdentStart c = true
    . have hchar := isIdentChar_of_isIdentStart hident
      apply @run_local isIdentChar nextAt
        (fun word => ((keywordType word, some word), keywordType word = .bodyStmt))
      . intro s
        unfold nextAt nextIdentifier
        dsimp only
        rw [if_neg hnewline, if_neg hquote, if_neg hdigit, if_pos hident,
          List.takeWhile_cons_of_pos hchar, List.dropWhile_cons_of_pos hchar]
      . decide
    by_cases hcomment : c = 35
    . have hs (s : Bytes) : nextAt (c :: s) = nextComment s := by
        unfold nextAt
        dsimp only
        rw [if_neg hnewline, if_neg hquote, if_neg hdigit, if_neg hident, if_pos hcomment]
      rw [hs] at hfinal
      obtain ⟨used, hused, _, hlocal⟩ := nextComment_local hfinal
      unfold Local
      rw [hs]
      refine ⟨c :: used, by rw [List.cons_append, ← hused], by simp, ?_⟩
      intro rest' hfollows
      rw [List.cons_append, hs, hlocal rest' hfollows]
    . unfold nextAt at hfinal
      dsimp only at hfinal
      rw [if_neg hnewline, if_neg hquote, if_neg hdigit, if_neg hident, if_neg hcomment] at hfinal
      cases hfinal

theorem Tape.next_eq (tape : Tape)
    : tape.next = (if tape.raw then nextRaw else nextAt) (tape.rest.dropWhile DslLexer.isBlank) := by
  unfold next
  cases tape.raw <;> rfl

theorem next_local {tape : Tape} (hfinal : tape.next.1.isFinal = false)
    : Local (fun s => Tape.next ⟨tape.raw, s⟩) tape.rest := by
  have hnext := tape.next_eq
  have hstart : Local (if tape.raw then nextRaw else nextAt) (tape.rest.dropWhile DslLexer.isBlank) := by
    rw [hnext] at hfinal
    cases hraw : tape.raw with
    | true => exact nextRaw_local _
    | false =>
      rw [hraw] at hfinal
      exact nextAt_local hfinal
  obtain ⟨used, hused, hempty, hlocal⟩ := hstart
  rw [← hnext] at hused hempty hlocal
  refine ⟨tape.rest.takeWhile DslLexer.isBlank ++ used, ?_, ?_, ?_⟩
  . rw [List.append_assoc, ← hused]
    exact List.takeWhile_append_dropWhile.symm
  . intro hnil
    exact hempty (List.append_eq_nil_iff.mp hnil).2
  . intro rest' hfollow
    have hhead : ∀ c ∈ (used ++ rest').head?, DslLexer.isBlank c = false := by
      intro c hc
      cases used with
      | nil =>
        rcases hfollow c hc with hsame | rfl | ⟨_, hne⟩
        . apply head_dropWhile (s := tape.rest)
          rw [hused]
          exact hsame
        . rfl
        . exact absurd (hempty rfl) hne
      | cons c' used =>
        apply head_dropWhile (s := tape.rest)
        rw [hused]
        exact hc
    have hskip : (tape.rest.takeWhile DslLexer.isBlank ++ (used ++ rest')).dropWhile DslLexer.isBlank =
        used ++ rest' :=
      (dropWhile_run (fun c hc => List.mem_takeWhile_imp hc) hhead).1
    dsimp only
    rw [Tape.next_eq]
    dsimp only
    rw [List.append_assoc, hskip, hlocal rest' hfollow]

theorem next_raw (tape : Tape) : tape.next.2.raw = decide (tape.next.1.1 = .bodyStmt) := by
  have hstring (s : Bytes) : (nextString s).2.raw = decide ((nextString s).1.1 = .bodyStmt) := by
    unfold nextString
    split
    . rfl
    . split <;> rfl
  have hcomment (s : Bytes) : (nextComment s).2.raw = decide ((nextComment s).1.1 = .bodyStmt) := by
    unfold nextComment
    split <;> rfl
  rw [tape.next_eq]
  cases tape.raw with
  | true => rfl
  | false =>
    rw [if_neg (by decide)]
    unfold nextAt
    split
    . rfl
    . split
      . rfl
      . split
        . exact hstring _
        . split
          . rfl
          . split
            . rfl
            . split
              . exact hcomment _
              . rfl

end Local

section Scans

open Tape

variable {tape tape' : Tape} {words words' : List Word} {used used' rest' : Bytes}

/-- The words are read from the bytes `used`, and `tape'` is left. -/
inductive Scans (tape : Tape) : List Word → Bytes → Tape → Prop where
  | nil : Scans tape [] [] tape
  | snoc {words : List Word} {used used' : Bytes} {mid : Tape} (h : Scans tape words used mid)
      (hfinal : mid.next.1.isFinal = false) (hused : mid.rest = used' ++ mid.next.2.rest)
    : Scans tape (words ++ [mid.next.1]) (used ++ used') mid.next.2

theorem Scans.trans (h : Scans tape words used tape') {tape'' : Tape}
    (h' : Scans tape' words' used' tape'') : Scans tape (words ++ words') (used ++ used') tape'' := by
  induction h' with
  | nil =>
    rw [List.append_nil, List.append_nil]
    exact h
  | snoc _ hfinal hused ih =>
    rw [← List.append_assoc, ← List.append_assoc]
    exact ih.snoc hfinal hused

theorem Scans.rest_eq (h : Scans tape words used tape') : tape.rest = used ++ tape'.rest := by
  induction h with
  | nil => rfl
  | snoc _ _ hused ih => rw [ih, hused, List.append_assoc]

theorem Scans.inner (h : Scans tape words used tape') : ∀ w ∈ words, w.isFinal = false := by
  induction h with
  | nil => simp
  | snoc _ hfinal _ ih =>
    intro w hw
    cases List.mem_append.mp hw with
    | inl hw => exact ih w hw
    | inr hw =>
      rw [List.mem_singleton.mp hw]
      exact hfinal

/-- The same words are read from the same bytes in front of another rest. -/
theorem Scans.replace (h : Scans tape words used tape')
    (hfollow : ∀ c ∈ rest'.head?, tape'.rest.head? = some c ∨ c = 10 ∨
      c = 32 ∧ ∀ w ∈ words.getLast?, w.1 ≠ .bodyRaw)
    : Scans ⟨tape.raw, used ++ rest'⟩ words used ⟨tape'.raw, rest'⟩ := by
  induction h generalizing rest' with
  | nil => exact .nil
  | @snoc words used used' mid h hfinal hused ih =>
    obtain ⟨used₁, hused₁, hempty, hlocal⟩ := next_local hfinal
    have heq : used₁ = used' := List.append_cancel_right (hused₁.symm.trans hused)
    rw [heq] at hempty hlocal
    have hnext : Tape.next ⟨mid.raw, used' ++ rest'⟩ = (mid.next.1, ⟨mid.next.2.raw, rest'⟩) := by
      apply hlocal
      intro c hc
      rcases hfollow c hc with hsame | hnewline | ⟨hspace, hraw⟩
      . exact .inl hsame
      . exact .inr (.inl hnewline)
      . exact .inr (.inr ⟨hspace, hraw _ List.getLast?_concat⟩)
    have hbefore : Scans ⟨tape.raw, used ++ (used' ++ rest')⟩ words used ⟨mid.raw, used' ++ rest'⟩ := by
      apply ih
      intro c hc
      cases used' with
      | nil =>
        -- Only a raw body uses no byte.
        rcases hfollow c hc with hsame | hnewline | ⟨_, hraw⟩
        . rw [hused]
          exact .inl hsame
        . exact .inr (.inl hnewline)
        . exact absurd (hempty rfl) (hraw _ List.getLast?_concat)
      | cons c' used' =>
        rw [hused]
        exact .inl hc
    have hstep := @Scans.snoc _ words used used' _ hbefore (by rw [hnext]; exact hfinal) (by rw [hnext])
    rw [hnext, ← List.append_assoc] at hstep
    exact hstep

end Scans

section Words

open Tape

variable {lexer lexer' : DslLexer}

/-- The types and texts of the tokens. -/
def DslLexer.words (lexer : DslLexer) : List Word := (dslLexerGetTokens lexer).map DslToken.word

theorem words_eq (lexer : DslLexer)
    : lexer.words = lexer.tape.next.1 ::
        if lexer.tape.next.1.isFinal = true then [] else (dslLexerNextToken lexer).2.words := by
  obtain ⟨hword, _⟩ := dslLexerNextToken_reads lexer
  have hfinal : (dslLexerNextToken lexer).1.isFinal = lexer.tape.next.1.isFinal := by
    rw [← hword]
    rfl
  unfold DslLexer.words
  rw [dslLexerGetTokens_eq, List.map_cons, hword, hfinal]
  split
  . rfl
  . rfl

theorem words_congr (h : lexer.tape = lexer'.tape) : lexer.words = lexer'.words := by
  induction hn : lexer.fuel using Nat.strongRecOn generalizing lexer lexer' with
  | ind n ih =>
    rw [words_eq lexer, words_eq lexer', ← h]
    split
    . rfl
    . next hfinal =>
      obtain ⟨hword, htape⟩ := dslLexerNextToken_reads lexer
      obtain ⟨_, htape'⟩ := dslLexerNextToken_reads lexer'
      have hlt : (dslLexerNextToken lexer).2.fuel < n := by
        rw [← hn]
        apply fuel_dslLexerNextToken_lt
        rw [← hword] at hfinal
        exact Bool.eq_false_iff.mpr hfinal
      rw [ih _ hlt (htape.trans (h ▸ htape'.symm)) rfl]

theorem exists_scans {before after : List Word} {w : Word} (h : lexer.words = before ++ w :: after)
    : ∃ used tape', Scans lexer.tape before used tape' := by
  induction before generalizing lexer with
  | nil => exact ⟨[], _, .nil⟩
  | cons w' before ih =>
    rw [words_eq, List.cons_append, List.cons.injEq] at h
    obtain ⟨rfl, hrest⟩ := h
    split at hrest
    . cases before <;> cases hrest
    . next hfinal =>
      obtain ⟨used, tape', hscans⟩ := ih hrest
      obtain ⟨_, htape⟩ := dslLexerNextToken_reads lexer
      rw [htape] at hscans
      obtain ⟨used₁, hused, _⟩ := next_local (Bool.eq_false_iff.mpr hfinal)
      exact ⟨_, tape', (Scans.nil.snoc (Bool.eq_false_iff.mpr hfinal) hused).trans hscans⟩

theorem Scans.words_eq {words : List Word} {used : Bytes} {tape' : Tape}
    (h : Scans lexer.tape words used tape')
    : ∃ next : DslLexer, next.tape = tape' ∧ lexer.words = words ++ next.words := by
  induction h with
  | nil => exact ⟨lexer, rfl, rfl⟩
  | snoc _ hfinal _ ih =>
    obtain ⟨lexer₁, htape, hwords⟩ := ih
    refine ⟨(dslLexerNextToken lexer₁).2, ?_, ?_⟩
    . rw [(dslLexerNextToken_reads lexer₁).2, htape]
    . rw [hwords, HttpRuntime.words_eq lexer₁, htape, if_neg (by rw [hfinal]; decide), List.append_assoc]
      rfl

theorem dslCreateLexer_tape {source : Bytes} (h : 0 ∉ source)
    : (dslCreateLexer source).tape = ⟨false, source⟩ := by
  unfold DslLexer.tape
  rw [(dslCreateLexer_ahead h).rest, (dslCreateLexer_ahead h).plain]

end Words

end HttpRuntime
