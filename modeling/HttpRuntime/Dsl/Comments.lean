import HttpRuntime.Dsl.Parser.Blanks

/-!
This module contains that comments and blank lines do not matter: lines of blanks and comments anywhere,
and comments behind a line, change neither the plan of a source nor the message about it. Only behind a
`BODY` a `#` belongs to the text.
-/

open Lib

namespace HttpRuntime

/-- Bytes without a word: blanks, and perhaps a comment behind them. -/
inductive Filler : Bytes → Prop where
  | blank {s : Bytes} (hs : ∀ c ∈ s, DslLexer.isBlank c = true) : Filler s
  | comment {s text : Bytes} (hs : ∀ c ∈ s, DslLexer.isBlank c = true)
      (htext : ∀ c ∈ text, Tape.inComment c = true)
    : Filler (s ++ 35 :: text)

/-- No token of the line is wrong, and none is the text behind a `BODY`. -/
def TakesComment (line : Bytes) : Prop :=
  ∃ ws, (dslCreateLexer line).words = ws ++ [(.eof, none)] ∧ ∀ w ∈ ws, w.1 ≠ .bodyRaw

/-- The second lines are the first ones with more comments and blank lines. -/
inductive Annotated : List Bytes → List Bytes → Prop where
  | nil : Annotated [] []
  | keep {line : Bytes} {lines lines' : List Bytes} (hline : 0 ∉ line) (h : Annotated lines lines')
    : Annotated (line :: lines) (line :: lines')
  | insert {filler : Bytes} {lines lines' : List Bytes} (hfiller : Filler filler) (h : Annotated lines lines')
    : Annotated lines (filler :: lines')
  | remark {line filler : Bytes} {lines lines' : List Bytes} (hline : 0 ∉ line) (htakes : TakesComment line)
      (hfiller : Filler filler) (h : Annotated lines lines')
    : Annotated (line :: lines) ((line ++ 32 :: filler) :: lines')

def joinLines (lines : List Bytes) : Bytes :=
  match lines with
  | [] => []
  | [line] => line
  | line :: lines => line ++ 10 :: joinLines lines

section Filler

open Tape

variable {s s' : Bytes}

theorem inComment_of_isBlank {c : UInt8} (h : DslLexer.isBlank c = true) : inComment c = true := by
  unfold DslLexer.isBlank at h
  simp only [Bool.or_eq_true, beq_iff_eq] at h
  rcases h with (rfl | rfl) | rfl <;> rfl

theorem Filler.inComment (h : Filler s) : ∀ c ∈ s, inComment c = true := by
  cases h with
  | blank hs => exact fun c hc => inComment_of_isBlank (hs c hc)
  | comment hs htext =>
    rw [List.forall_mem_append, List.forall_mem_cons]
    exact ⟨fun c hc => inComment_of_isBlank (hs c hc), rfl, htext⟩

theorem Filler.zero_not_mem (h : Filler s) : 0 ∉ s := by
  intro hzero
  have hcomment := h.inComment 0 hzero
  cases hcomment

theorem Filler.append (h : Filler s) (h' : Filler s') : Filler (s ++ 32 :: s') := by
  cases h with
  | blank hs =>
    cases h' with
    | blank hs' =>
      apply Filler.blank
      rw [List.forall_mem_append, List.forall_mem_cons]
      exact ⟨hs, rfl, hs'⟩
    | @comment s' text hs' htext =>
      rw [← List.cons_append, ← List.append_assoc]
      apply Filler.comment _ htext
      rw [List.forall_mem_append, List.forall_mem_cons]
      exact ⟨hs, rfl, hs'⟩
  | @comment s text hs htext =>
    rw [List.append_assoc, List.cons_append]
    apply Filler.comment hs
    rw [List.forall_mem_append, List.forall_mem_cons]
    exact ⟨htext, rfl, h'.inComment⟩

theorem next_filler (h : Filler s) : Tape.next ⟨false, s⟩ = ((.eof, none), ⟨false, []⟩) := by
  rw [Tape.next_eq]
  dsimp only
  rw [if_neg (by decide)]
  cases h with
  | blank hs =>
    rw [List.dropWhile_eq_nil_iff.mpr hs]
    rfl
  | @comment s text hs htext =>
    rw [List.dropWhile_append_of_pos hs, List.dropWhile_cons_of_neg (by decide)]
    have hcomment : nextAt (35 :: text) = nextComment text := rfl
    rw [hcomment]
    unfold nextComment
    rw [List.dropWhile_eq_nil_iff.mpr htext]

theorem nextAt_eof (h : (nextAt s).1.1 = .eof)
    : s = [] ∨ ∃ text, s = 35 :: text ∧ ∀ c ∈ text, inComment c = true := by
  cases s with
  | nil => exact .inl rfl
  | cons c cs =>
    unfold nextAt at h
    dsimp only at h
    split at h
    . cases h
    . split at h
      . unfold nextString at h
        split at h
        . cases h
        . split at h <;> cases h
      . split at h
        . cases h
        . split at h
          . unfold nextIdentifier at h
            exact absurd h (keywordType_ne _ (by decide))
          . split at h
            . next hcomment =>
              unfold nextComment at h
              split at h
              . next hdrop => exact .inr ⟨cs, by rw [hcomment], List.dropWhile_eq_nil_iff.mp hdrop⟩
              . cases h
            . cases h

/-- The words end where only a filler is left. -/
theorem filler_of_next {tape : Tape} (h : tape.next.1.1 = .eof) : tape.raw = false ∧ Filler tape.rest := by
  rw [Tape.next_eq] at h
  cases hraw : tape.raw with
  | true =>
    rw [hraw] at h
    cases h
  | false =>
    rw [hraw, if_neg (by decide)] at h
    refine ⟨rfl, ?_⟩
    cases nextAt_eof h with
    | inl hnil => exact .blank (List.dropWhile_eq_nil_iff.mp hnil)
    | inr hcomment =>
      obtain ⟨text, hdrop, htext⟩ := hcomment
      rw [← @List.takeWhile_append_dropWhile _ DslLexer.isBlank tape.rest, hdrop]
      exact .comment (fun c hc => List.mem_takeWhile_imp hc) htext

theorem next_of_eof {tape : Tape} (h : tape.next.1.1 = .eof) : tape.next.1 = (.eof, none) := by
  obtain ⟨hraw, hfiller⟩ := filler_of_next h
  have hnext := next_filler hfiller
  rw [← hraw] at hnext
  rw [hnext]

end Filler

section Words

open Tape

variable {s₁ s₂ filler : Bytes} {ws : List Word} {w : Word}

theorem words_last (lexer : DslLexer)
    : ∃ ws w, lexer.words = ws ++ [w] ∧ (w.1 = .error ∨ w = (.eof, none)) := by
  induction hn : lexer.fuel using Nat.strongRecOn generalizing lexer with
  | ind n ih =>
    rw [words_eq lexer]
    by_cases hfinal : lexer.tape.next.1.isFinal = true
    . rw [if_pos hfinal]
      refine ⟨[], lexer.tape.next.1, rfl, ?_⟩
      unfold Word.isFinal at hfinal
      rw [Bool.or_eq_true, decide_eq_true_eq, decide_eq_true_eq] at hfinal
      cases hfinal with
      | inl heof => exact .inr (next_of_eof heof)
      | inr herror => exact .inl herror
    . rw [if_neg hfinal]
      have hlt : (dslLexerNextToken lexer).2.fuel < n := by
        rw [← hn]
        apply fuel_dslLexerNextToken_lt
        obtain ⟨hword, _⟩ := dslLexerNextToken_reads lexer
        rw [← hword] at hfinal
        exact Bool.eq_false_iff.mpr hfinal
      obtain ⟨ws, w, hws, hw⟩ := ih _ hlt _ rfl
      exact ⟨lexer.tape.next.1 :: ws, w, by rw [hws, List.cons_append], hw⟩

theorem nextString_append_error (h : (nextString s₁).1.1 = .error) (s' : Bytes)
    : (nextString (s₁ ++ 10 :: s')).1 = (nextString s₁).1 := by
  unfold nextString at h ⊢
  rw [List.dropWhile_append]
  cases hdrop : s₁.dropWhile inString with
  | nil => rfl
  | cons c after =>
    rw [hdrop] at h
    dsimp only at h
    split at h
    . cases h
    . next hquote =>
      simp only [List.isEmpty_cons, Bool.false_eq_true, if_false, List.cons_append]
      rw [if_neg hquote, if_neg hquote]

theorem nextAt_append_error (h : (nextAt s₁).1.1 = .error) (s' : Bytes)
    : (nextAt (s₁ ++ 10 :: s')).1 = (nextAt s₁).1 := by
  cases s₁ with
  | nil => cases h
  | cons c cs =>
    rw [List.cons_append]
    unfold nextAt at h ⊢
    dsimp only at h ⊢
    split at h
    . cases h
    . next hnewline =>
      rw [if_neg hnewline, if_neg hnewline]
      split at h
      . next hquote =>
        rw [if_pos hquote, if_pos hquote]
        exact nextString_append_error h s'
      . next hquote =>
        rw [if_neg hquote, if_neg hquote]
        split at h
        . cases h
        . next hdigit =>
          rw [if_neg hdigit, if_neg hdigit]
          split at h
          . unfold nextIdentifier at h
            exact absurd h (keywordType_ne _ (by decide))
          . next hident =>
            rw [if_neg hident, if_neg hident]
            split at h
            . unfold nextComment at h
              split at h <;> cases h
            . next hcomment => rw [if_neg hcomment, if_neg hcomment]

theorem next_append_error {tape : Tape} (h : tape.next.1.1 = .error) (s' : Bytes)
    : (Tape.next ⟨tape.raw, tape.rest ++ 10 :: s'⟩).1 = tape.next.1 := by
  rw [tape.next_eq] at h ⊢
  rw [Tape.next_eq]
  dsimp only
  cases hraw : tape.raw with
  | true =>
    rw [hraw] at h
    cases h
  | false =>
    rw [hraw, if_neg (by decide)] at h
    have hskip : (tape.rest ++ 10 :: s').dropWhile DslLexer.isBlank =
        tape.rest.dropWhile DslLexer.isBlank ++ 10 :: s' := by
      rw [List.dropWhile_append]
      split
      . next hnil =>
        rw [List.isEmpty_iff.mp hnil]
        rfl
      . rfl
    rw [hskip]
    exact nextAt_append_error h s'

/-- Nothing is read behind an error. -/
theorem words_append_error (hs₁ : 0 ∉ s₁) (hs₂ : 0 ∉ s₂) (hwords : (dslCreateLexer s₁).words = ws ++ [w])
    (hw : w.1 = .error) : (dslCreateLexer (s₁ ++ 10 :: s₂)).words = ws ++ [w] := by
  have hs : 0 ∉ s₁ ++ 10 :: s₂ := by simp [hs₁, hs₂]
  obtain ⟨used, tape', hscans⟩ := exists_scans hwords
  obtain ⟨lexer', htape', hrest⟩ := hscans.words_eq
  have hlast : tape'.next.1 = w := by
    rw [hwords, List.append_cancel_left_eq, words_eq, htape', List.cons.injEq] at hrest
    exact hrest.1.symm
  have hsource := hscans.rest_eq
  rw [dslCreateLexer_tape hs₁] at hscans hsource
  dsimp only at hsource
  have hnext := next_append_error (hlast ▸ hw) s₂
  have hbefore := @Scans.replace _ _ ws used (tape'.rest ++ 10 :: s₂) hscans (by
    intro c hc
    cases htape : tape'.rest with
    | nil =>
      rw [htape, List.nil_append, List.head?_cons, Option.mem_some_iff] at hc
      exact .inr (.inl hc.symm)
    | cons c' rest =>
      rw [htape] at hc
      exact .inl hc)
  rw [← List.append_assoc, ← hsource, ← dslCreateLexer_tape hs] at hbefore
  obtain ⟨lexer₂, htape₂, hrest₂⟩ := hbefore.words_eq
  rw [hrest₂, words_eq, htape₂, hnext, hlast, if_pos]
  unfold Word.isFinal
  simp [hw]

theorem words_filler (h : Filler filler) : (dslCreateLexer filler).words = [(.eof, none)] := by
  rw [words_eq, dslCreateLexer_tape h.zero_not_mem, next_filler h]
  rfl

theorem words_remark (hs₁ : 0 ∉ s₁) (h : TakesComment s₁) (hfiller : Filler filler)
    : (dslCreateLexer (s₁ ++ 32 :: filler)).words = (dslCreateLexer s₁).words := by
  obtain ⟨ws, hwords, hraw⟩ := h
  have hs : 0 ∉ s₁ ++ 32 :: filler := by simp [hs₁, hfiller.zero_not_mem]
  obtain ⟨used, tape', hscans⟩ := exists_scans hwords
  obtain ⟨lexer', htape', hrest⟩ := hscans.words_eq
  have hlast : tape'.next.1 = (.eof, none) := by
    rw [hwords, List.append_cancel_left_eq, words_eq, htape', List.cons.injEq] at hrest
    exact hrest.1.symm
  obtain ⟨hplain, hend⟩ := filler_of_next (congrArg Prod.fst hlast)
  have hsource := hscans.rest_eq
  rw [dslCreateLexer_tape hs₁] at hscans hsource
  dsimp only at hsource
  have hbefore := @Scans.replace _ _ ws used (tape'.rest ++ 32 :: filler) hscans (by
    intro c hc
    cases htape : tape'.rest with
    | nil =>
      rw [htape, List.nil_append, List.head?_cons, Option.mem_some_iff] at hc
      exact .inr (.inr ⟨hc.symm, fun w hw => hraw w (List.mem_of_mem_getLast? hw)⟩)
    | cons c' rest =>
      rw [htape] at hc
      exact .inl hc)
  rw [← List.append_assoc, ← hsource, ← dslCreateLexer_tape hs] at hbefore
  obtain ⟨lexer₂, htape₂, hrest₂⟩ := hbefore.words_eq
  rw [hrest₂, hwords, words_eq, htape₂, hplain, next_filler (hend.append hfiller)]
  rfl

end Words

section Lines

open Tape

variable {line filler : Bytes} {lines lines' : List Bytes} {ws : List Word}

theorem joinLines_cons_cons (line next : Bytes) (lines : List Bytes)
    : joinLines (line :: next :: lines) = line ++ 10 :: joinLines (next :: lines) := rfl

theorem zero_not_mem_joinLines (h : ∀ line ∈ lines, 0 ∉ line) : 0 ∉ joinLines lines := by
  induction lines with
  | nil => simp [joinLines]
  | cons line lines ih =>
    rw [List.forall_mem_cons] at h
    cases lines with
    | nil => exact h.1
    | cons next lines =>
      have hrest := ih h.2
      simp [joinLines_cons_cons, h.1, hrest]

def wordsOf (lines : List Bytes) : List Word := (dslCreateLexer (joinLines lines)).words

-- The words behind those of a line: its end, and the next lines.
def wordsBehind (lines : List Bytes) : List Word :=
  if lines = [] then [(.eof, none)] else newlineWord :: wordsOf lines

theorem wordsOf_nil : wordsOf [] = [(.eof, none)] := words_filler (@Filler.blank [] (by simp))

theorem wordsOf_cons (hline : 0 ∉ line) (hlines : ∀ line ∈ lines, 0 ∉ line)
    (hwords : (dslCreateLexer line).words = ws ++ [(.eof, none)])
    : wordsOf (line :: lines) = ws ++ wordsBehind lines := by
  cases lines with
  | nil => exact hwords
  | cons next lines =>
    unfold wordsOf wordsBehind
    rw [joinLines_cons_cons, words_append_newline hline (zero_not_mem_joinLines hlines) hwords rfl,
      if_neg (by simp)]
    rfl

theorem wordsOf_cons_error {w : Word} (hline : 0 ∉ line) (hlines : ∀ line ∈ lines, 0 ∉ line)
    (hwords : (dslCreateLexer line).words = ws ++ [w]) (hw : w.1 = .error)
    : wordsOf (line :: lines) = ws ++ [w] := by
  cases lines with
  | nil => exact hwords
  | cons next lines =>
    unfold wordsOf
    rw [joinLines_cons_cons, words_append_error hline (zero_not_mem_joinLines hlines) hwords hw]

theorem Annotated.zero_not_mem (h : Annotated lines lines')
    : (∀ line ∈ lines, 0 ∉ line) ∧ ∀ line ∈ lines', 0 ∉ line := by
  induction h with
  | nil => simp
  | keep hline _ ih => exact ⟨List.forall_mem_cons.mpr ⟨hline, ih.1⟩, List.forall_mem_cons.mpr ⟨hline, ih.2⟩⟩
  | insert hfiller _ ih => exact ⟨ih.1, List.forall_mem_cons.mpr ⟨hfiller.zero_not_mem, ih.2⟩⟩
  | remark hline _ hfiller _ ih =>
    refine ⟨List.forall_mem_cons.mpr ⟨hline, ih.1⟩, List.forall_mem_cons.mpr ⟨?_, ih.2⟩⟩
    simp [hline, hfiller.zero_not_mem]

theorem Annotated.eq_nil (h : Annotated lines []) : lines = [] := by
  cases h
  rfl

theorem Annotated.behind (h : Annotated lines lines')
    (hwords : MoreBlanks true (wordsOf lines) (wordsOf lines'))
    : MoreBlanks false (wordsBehind lines) (wordsBehind lines') := by
  unfold wordsBehind
  by_cases hnil' : lines' = []
  . rw [hnil'] at h
    rw [h.eq_nil, hnil']
    exact .refl _
  . rw [if_neg hnil']
    by_cases hnil : lines = []
    . rw [hnil, wordsOf_nil] at hwords
      rw [if_pos hnil]
      exact .blank (.inr rfl) hwords
    . rw [if_neg hnil]
      exact .cons hwords

/-- Comments and blank lines are only more newlines. -/
theorem Annotated.words (h : Annotated lines lines')
    : MoreBlanks true (wordsOf lines) (wordsOf lines') := by
  induction h with
  | nil => exact .refl _
  | @keep line lines lines' hline h ih =>
    obtain ⟨hzero, hzero'⟩ := h.zero_not_mem
    obtain ⟨ws, w, hwords, hw⟩ := words_last (dslCreateLexer line)
    cases hw with
    | inl herror =>
      rw [wordsOf_cons_error hline hzero hwords herror, wordsOf_cons_error hline hzero' hwords herror]
      exact .refl _
    | inr heof =>
      rw [heof] at hwords
      rw [wordsOf_cons hline hzero hwords, wordsOf_cons hline hzero' hwords]
      exact (h.behind ih).append_left ws
  | @insert filler lines lines' hfiller h ih =>
    obtain ⟨_, hzero'⟩ := h.zero_not_mem
    rw [@wordsOf_cons _ _ [] hfiller.zero_not_mem hzero' (words_filler hfiller), List.nil_append]
    unfold wordsBehind
    by_cases hnil : lines' = []
    . rw [hnil] at h
      rw [if_pos hnil, h.eq_nil, wordsOf_nil]
      exact .refl _
    . rw [if_neg hnil]
      exact .blank (.inl rfl) ih
  | @remark line filler lines lines' hline htakes hfiller h ih =>
    obtain ⟨hzero, hzero'⟩ := h.zero_not_mem
    have hsame := words_remark hline htakes hfiller
    obtain ⟨ws, hwords, _⟩ := htakes
    have hremark : 0 ∉ line ++ 32 :: filler := by simp [hline, hfiller.zero_not_mem]
    rw [wordsOf_cons hline hzero hwords, wordsOf_cons hremark hzero' (hsame.trans hwords)]
    exact (h.behind ih).append_left ws

end Lines

/--
More comments and blank lines in a source change neither the result nor the plan, and an error keeps its
message.
-/
theorem dslParseRunPlan_annotated {lines lines' : List Bytes} (h : Annotated lines lines')
    (error : Option DslParseError)
    : ∃ result plan error₁ error₂, dslParseRunPlan (joinLines lines) error = some (result, plan, error₁) ∧
        dslParseRunPlan (joinLines lines') error = some (result, plan, error₂) ∧
        (result = .error → error₂.map DslParseError.message = error₁.map DslParseError.message) :=
  dslParseRunPlan_moreBlanks error h.words

-- The error in the third line is found in the fifth one, behind a blank line and two comments.
def plainLines : List Bytes := [ascii "PUT u", ascii "BODY x # y", ascii "EXPECT ?"]

def annotatedLines : List Bytes :=
  [ascii "PUT u" ++ 32 :: ([32] ++ 35 :: ascii "a"), [], ascii "BODY x # y", [] ++ 35 :: ascii "b",
    ascii "EXPECT ?"]

theorem annotated_plainLines : Annotated plainLines annotatedLines := by
  have htakes : TakesComment (ascii "PUT u") :=
    ⟨[(.put, some (ascii "PUT")), (.ident, some (ascii "u"))], by decide +kernel, by decide +kernel⟩
  have hkeep : Annotated [ascii "EXPECT ?"] [ascii "EXPECT ?"] := .keep (by decide +kernel) .nil
  apply Annotated.remark (by decide +kernel) htakes
  . exact .comment (by decide +kernel) (by decide +kernel)
  . apply Annotated.insert (.blank (by simp))
    apply Annotated.keep (by decide +kernel)
    exact .insert (.comment (by simp) (by decide +kernel)) hkeep

theorem dslParseRunPlan_annotated_put
    : ∃ plan error₁ error₂,
        dslParseRunPlan (joinLines plainLines) (some ⟨[], 0, 0⟩) = some (.error, plan, error₁) ∧
          dslParseRunPlan (joinLines annotatedLines) (some ⟨[], 0, 0⟩) = some (.error, plan, error₂) ∧
          error₂.map DslParseError.message = error₁.map DslParseError.message := by
  have hrejected : (dslParseRunPlan (joinLines plainLines) (some ⟨[], 0, 0⟩)).map Prod.fst = some .error := by
    decide +kernel
  obtain ⟨result, plan, error₁, error₂, hplain, hannotated, hmessage⟩ :=
    dslParseRunPlan_annotated annotated_plainLines (some ⟨[], 0, 0⟩)
  rw [hplain, Option.map_some, Option.some.injEq] at hrejected
  dsimp only at hrejected
  subst hrejected
  exact ⟨plan, error₁, error₂, hplain, hannotated, hmessage rfl⟩

end HttpRuntime
