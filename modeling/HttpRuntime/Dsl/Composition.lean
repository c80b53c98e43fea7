import HttpRuntime.Dsl.Parser.Congruence

/-!
This module contains that sources compose: two accepted sources with a newline between them are
accepted, and say what the one says and then what the other says.
-/

open Lib Lib.Sections

namespace HttpRuntime

section Words

open Tape

variable {s s₁ s₂ : Bytes}

theorem nextComment_append_newline (hs : (nextComment s).1.1 = .eof) (s' : Bytes)
    : nextComment (s ++ 10 :: s') = (newlineWord, ⟨false, s'⟩) := by
  have hdrop : s.dropWhile inComment = [] := by
    unfold nextComment at hs
    split at hs
    . assumption
    . cases hs
  rw [List.dropWhile_eq_nil_iff] at hdrop
  unfold nextComment
  rw [List.dropWhile_append_of_pos hdrop, List.dropWhile_cons_of_neg (by decide)]

theorem nextAt_append_newline (hs : (nextAt s).1.1 = .eof) (s' : Bytes)
    : nextAt (s ++ 10 :: s') = (newlineWord, ⟨false, s'⟩) := by
  cases s with
  | nil => rfl
  | cons c cs =>
    unfold nextAt at hs
    dsimp only at hs
    split at hs
    . cases hs
    . next hnewline =>
      split at hs
      . unfold nextString at hs
        split at hs
        . cases hs
        . split at hs <;> cases hs
      . next hquote =>
        split at hs
        . cases hs
        . next hdigit =>
          split at hs
          . unfold nextIdentifier at hs
            exact absurd hs (keywordType_ne _ (by decide))
          . next hident =>
            split at hs
            . next hcomment =>
              rw [List.cons_append]
              unfold nextAt
              dsimp only
              rw [if_neg hnewline, if_neg hquote, if_neg hdigit, if_neg hident, if_pos hcomment]
              exact nextComment_append_newline hs s'
            . cases hs

/-- At the end of a source a newline is a newline, also behind blanks and in a comment. -/
theorem next_append_newline {tape : Tape} (h : tape.next.1.1 = .eof) (s' : Bytes)
    : Tape.next ⟨tape.raw, tape.rest ++ 10 :: s'⟩ = (newlineWord, ⟨false, s'⟩) := by
  rw [tape.next_eq] at h
  rw [Tape.next_eq]
  dsimp only
  cases hraw : tape.raw with
  | true =>
    rw [hraw] at h
    cases h
  | false =>
    rw [hraw] at h
    have hskip : (tape.rest ++ 10 :: s').dropWhile DslLexer.isBlank =
        tape.rest.dropWhile DslLexer.isBlank ++ 10 :: s' := by
      rw [List.dropWhile_append]
      split
      . next hnil =>
        rw [List.isEmpty_iff.mp hnil]
        rfl
      . rfl
    rw [hskip]
    exact nextAt_append_newline h s'

/-- Nothing of the first source reaches into the second one. -/
theorem words_append_newline (hs₁ : 0 ∉ s₁) (hs₂ : 0 ∉ s₂) {words : List Word} {w : Word}
    (hwords : (dslCreateLexer s₁).words = words ++ [w]) (hw : w.1 = .eof)
    : (dslCreateLexer (s₁ ++ 10 :: s₂)).words = words ++ newlineWord :: (dslCreateLexer s₂).words := by
  have hs : 0 ∉ s₁ ++ 10 :: s₂ := by simp [hs₁, hs₂]
  obtain ⟨used, tape', hscans⟩ := exists_scans hwords
  obtain ⟨lexer', htape', hrest⟩ := hscans.words_eq
  have heof : tape'.next.1.1 = .eof := by
    rw [hwords, List.append_cancel_left_eq, words_eq, htape', List.cons.injEq] at hrest
    rw [← hrest.1]
    exact hw
  have hsource := hscans.rest_eq
  rw [dslCreateLexer_tape hs₁] at hscans hsource
  dsimp only at hsource
  have hnext := next_append_newline heof s₂
  have hbefore := @Scans.replace _ _ words used (tape'.rest ++ 10 :: s₂) hscans (by
    intro c hc
    cases htape : tape'.rest with
    | nil =>
      rw [htape, List.nil_append, List.head?_cons, Option.mem_some_iff] at hc
      exact .inr (.inl hc.symm)
    | cons c' rest =>
      rw [htape] at hc
      exact .inl hc)
  have hall := @Scans.snoc _ words used (tape'.rest ++ [10]) _ hbefore (by rw [hnext]; rfl)
    (by rw [hnext]; simp)
  rw [hnext, ← List.append_assoc used, ← hsource, ← dslCreateLexer_tape hs] at hall
  obtain ⟨lexer₂, htape₂, hrest₂⟩ := hall.words_eq
  rw [hrest₂, List.append_assoc, words_congr (htape₂.trans (dslCreateLexer_tape hs₂).symm)]
  rfl

end Words

namespace Grammar

variable {ts rest : List DslToken}

theorem Asserts.frame {e : Expect} (h : Asserts ts e rest)
    : ∃ used, ts = used ++ rest ∧ ∀ rest', Asserts (used ++ rest') e rest' := by
  cases h with
  | @status t v _ rest ht hv hdigits => exact ⟨[t, v], rfl, fun _ => .status ht hv hdigits⟩
  | @bodyContains t u v _ rest ht hu hv htext =>
    exact ⟨[t, u, v], rfl, fun _ => .bodyContains ht hu hv htext⟩
  | @header t u v _ _ rest ht hu hname hv hvalue =>
    exact ⟨[t, u, v], rfl, fun _ => .header ht hu hname hv hvalue⟩

theorem Spells.frame {stmt : Statement} (h : Spells ts stmt rest)
    : ∃ used, ts = used ++ rest ∧ ∀ rest', Spells (used ++ rest') stmt rest' := by
  cases h with
  | @request t u _ _ rest ht hu hurl => exact ⟨[t, u], rfl, fun _ => .request ht hu hurl⟩
  | @body t u _ rest ht hu htext => exact ⟨[t, u], rfl, fun _ => .body ht hu htext⟩
  | @expect t ts _ rest ht he =>
    obtain ⟨used, hused, hframe⟩ := he.frame
    exact ⟨t :: used, by rw [hused, List.cons_append], fun rest' => .expect ht (hframe rest')⟩

theorem Program.last {stmts : List Statement} (h : Program ts stmts)
    : ∃ before t, ts = before ++ [t] ∧ t.type = .eof := by
  induction h with
  | @eof t ht => exact ⟨[], t, rfl, ht⟩
  | @blank t ts stmts ht hrest ih =>
    obtain ⟨before, u, rfl, hu⟩ := ih
    exact ⟨t :: before, u, rfl, hu⟩
  | statement hstmt hend hrest ih =>
    obtain ⟨before, u, rfl, hu⟩ := ih
    obtain ⟨used, rfl⟩ := hend.suffix.trans hstmt.suffix
    exact ⟨used ++ before, u, (List.append_assoc _ _ _).symm, hu⟩

theorem Program.ne_nil {stmts : List Statement} (h : Program ts stmts) : ts ≠ [] := by
  obtain ⟨before, t, rfl, _⟩ := h.last
  simp

/-- A newline takes the place of the end of the first program. -/
theorem Program.append {stmts stmts' : List Statement} {ts' : List DslToken} {newline : DslToken}
    (h : Program ts stmts) (hnewline : newline.type = .newline) (h' : Program ts' stmts')
    : Program (ts.dropLast ++ newline :: ts') (stmts ++ stmts') := by
  induction h with
  | eof ht => exact .blank hnewline h'
  | @blank t ts stmts ht hrest ih =>
    rw [List.dropLast_cons_of_ne_nil hrest.ne_nil, List.cons_append]
    exact .blank ht ih
  | @statement ts rest rest' stmt stmts hstmt hend hrest ih =>
    obtain ⟨used, rfl, hframe⟩ := hstmt.frame
    cases hend with
    | newline ht =>
      rw [List.dropLast_append_of_ne_nil (by simp), List.dropLast_cons_of_ne_nil hrest.ne_nil,
        List.append_assoc, List.cons_append]
      exact .statement (hframe _) (.newline ht) ih
    | eof ht =>
      cases hrest with
      | eof _ =>
        rw [List.dropLast_concat]
        exact .statement (hframe _) (.newline hnewline) h'
      | blank ht' =>
        rw [ht] at ht'
        cases ht'
      | statement hstmt' => exact absurd ht hstmt'.head_ne.2

theorem Fits.append {stmts stmts' : List Statement} (h : Fits stmts) (h' : Fits stmts')
    (hcases : (sections stmts).length + (sections stmts').length ≤ maxRequestCases)
    : Fits (stmts ++ stmts') ∧ sections (stmts ++ stmts') = sections stmts ++ sections stmts' := by
  have hsections : sections (stmts ++ stmts') = sections stmts ++ sections stmts' :=
    sections_append_of_leading h'.leading stmts
  refine ⟨⟨?_, ?_, ?_⟩, hsections⟩
  . rw [leading_append_of_leading h'.leading]
    exact h.leading
  . rw [hsections, List.length_append]
    exact hcases
  . intro sec hsec
    rw [hsections, List.mem_append] at hsec
    cases hsec with
    | inl hsec => exact h.assertions sec hsec
    | inr hsec => exact h'.assertions sec hsec

end Grammar

section Composition

open Grammar Tape

variable {s₁ s₂ : Bytes} {plan₁ plan₂ : RunPlan} {error error₁ error₂ error₁' error₂' : Option DslParseError}

/--
Two accepted sources with room for all their cases are accepted with a newline between them, and the
cases are those of the one and then those of the other.
-/
theorem dslParseRunPlan_append (hs₁ : 0 ∉ s₁) (hs₂ : 0 ∉ s₂)
    (h₁ : dslParseRunPlan s₁ error₁ = some (.ok, plan₁, error₁'))
    (h₂ : dslParseRunPlan s₂ error₂ = some (.ok, plan₂, error₂'))
    (hcases : plan₁.cases.length + plan₂.cases.length ≤ maxRequestCases)
    : (dslCreateLexer (s₁ ++ 10 :: s₂)).words =
          (dslCreateLexer s₁).words.dropLast ++ newlineWord :: (dslCreateLexer s₂).words ∧
        ∃ plan error', dslParseRunPlan (s₁ ++ 10 :: s₂) error = some (.ok, plan, error') ∧
          plan.cases = plan₁.cases ++ plan₂.cases := by
  obtain ⟨stmts₁, hprogram₁, hfits₁, rfl⟩ := program_of_ok h₁
  obtain ⟨stmts₂, hprogram₂, hfits₂, rfl⟩ := program_of_ok h₂
  obtain ⟨before, t, htokens, ht⟩ := hprogram₁.last
  have hwords : (dslCreateLexer s₁).words = before.map DslToken.word ++ [t.word] := by
    unfold DslLexer.words
    rw [htokens, List.map_append]
    rfl
  have hall := words_append_newline hs₁ hs₂ hwords ht
  have hnewline : DslToken.type ⟨.newline, some (ascii "\\n"), 0, 0⟩ = .newline := rfl
  have hprogram := hprogram₁.append hnewline hprogram₂
  rw [htokens, List.dropLast_concat] at hprogram
  obtain ⟨hfits, hsections⟩ := hfits₁.append hfits₂ (by
    simpa [planOfCases] using hcases)
  refine ⟨?_, ?_⟩
  . rw [hall, hwords, List.dropLast_concat]
  . obtain ⟨error', hres⟩ := dslParseRunPlan_of_program (hprogram.of_words (by
      rw [List.map_append, List.map_cons]
      exact hall)) hfits error
    refine ⟨_, error', hres, ?_⟩
    rw [hsections, List.map_append]
    rfl

theorem dslParseRunPlan_append_put
    : (dslCreateLexer (ascii "PUT u\nBODY x # y" ++ 10 :: ascii "GET v # z")).words =
          (dslCreateLexer (ascii "PUT u\nBODY x # y")).words.dropLast ++
            newlineWord :: (dslCreateLexer (ascii "GET v # z")).words ∧
        ∃ plan error',
          dslParseRunPlan (ascii "PUT u\nBODY x # y" ++ 10 :: ascii "GET v # z") none =
            some (.ok, plan, error') ∧
          plan.cases = [⟨.put, some (ascii "u"), none, some (ascii "x # y"), 5, [], 5000⟩] ++
            [⟨.get, some (ascii "v"), none, none, 0, [], 5000⟩] := by
  have h₁ : dslParseRunPlan (ascii "PUT u\nBODY x # y") none =
      some (.ok, planOfCases [⟨.put, some (ascii "u"), none, some (ascii "x # y"), 5, [], 5000⟩], none) := by
    decide +kernel
  have h₂ : dslParseRunPlan (ascii "GET v # z") none =
      some (.ok, planOfCases [⟨.get, some (ascii "v"), none, none, 0, [], 5000⟩], none) := by
    decide +kernel
  exact dslParseRunPlan_append (by decide) (by decide) h₁ h₂ (by decide)

end Composition

end HttpRuntime
