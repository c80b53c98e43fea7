import HttpRuntime.Dsl.Printer

/-!
This module contains which plans come from a source: those that the printer can write down.
-/

open Lib Lib.Sections

namespace HttpRuntime

open Grammar

section Words

open Tape

/-- What the lexer puts in the text of a word. -/
def Word.Written (w : Word) : Prop :=
  match w.1 with
  | .ident => ∃ text, w.2 = some text ∧ Identifier text
  | .int => ∃ digits, w.2 = some digits ∧ digits ≠ [] ∧ ∀ c ∈ digits, isdigit c = true
  | .string => ∃ text, w.2 = some text ∧ Quotable text
  | .bodyRaw => ∃ text, w.2 = some text ∧ BodyText text
  | _ => True

variable {s : Bytes}

theorem written_nextRaw (hblank : ∀ c ∈ s.head?, DslLexer.isBlank c = false) : (nextRaw s).1.Written := by
  have htrimmed := List.rdropWhile_prefix (fun c => c == 32 || c == 9) (s.takeWhile inLine)
  refine ⟨_, rfl, ?_, ?_, ?_⟩
  . intro c hc
    exact List.mem_takeWhile_imp (htrimmed.subset hc)
  . intro c hc
    apply hblank c
    have hall := htrimmed.trans (List.takeWhile_prefix inLine)
    obtain ⟨rest, hrest⟩ := hall
    rw [← hrest, List.head?_append, Option.mem_def.mp hc]
    rfl
  . intro c hc
    have hne : (s.takeWhile inLine).rdropWhile (fun c => c == 32 || c == 9) ≠ [] := by
      intro hnil
      rw [hnil] at hc
      cases hc
    have hlast := List.rdropWhile_last_not (fun c => c == 32 || c == 9) (s.takeWhile inLine) hne
    rw [List.getLast?_eq_some_getLast hne, Option.mem_some_iff] at hc
    rw [hc] at hlast
    simpa using hlast

theorem written_nextString (s : Bytes) : (nextString s).1.Written := by
  unfold nextString
  split
  . trivial
  . split
    . refine ⟨_, rfl, ?_⟩
      intro c hc
      have hin := List.mem_takeWhile_imp hc
      simpa [inString, and_assoc] using hin
    . trivial

theorem written_nextIdentifier {c : UInt8} {cs : Bytes} (hc : isIdentStart c = true)
    : (nextIdentifier (c :: cs)).1.Written := by
  have hchar := isIdentChar_of_isIdentStart hc
  have hword : IsWord ((c :: cs).takeWhile isIdentChar) := by
    refine ⟨⟨c, ?_, hc⟩, fun c' hc' => List.mem_takeWhile_imp hc'⟩
    rw [List.takeWhile_cons_of_pos hchar]
    rfl
  unfold nextIdentifier Word.Written
  dsimp only
  split
  . next htype => exact ⟨_, rfl, hword, htype⟩
  . next htype => exact absurd htype (keywordType_ne _ (by decide))
  . next htype => exact absurd htype (keywordType_ne _ (by decide))
  . next htype => exact absurd htype (keywordType_ne _ (by decide))
  . trivial

theorem written_nextAt (s : Bytes) : (nextAt s).1.Written := by
  cases s with
  | nil => trivial
  | cons c cs =>
    unfold nextAt
    dsimp only
    split
    . trivial
    . split
      . exact written_nextString cs
      . split
        . next hdigit =>
          refine ⟨_, rfl, ?_, fun c' hc' => List.mem_takeWhile_imp hc'⟩
          rw [List.takeWhile_cons_of_pos hdigit]
          simp
        . split
          . next hident => exact written_nextIdentifier hident
          . split
            . unfold nextComment
              split <;> trivial
            . trivial

theorem written_next (tape : Tape) : tape.next.1.Written := by
  rw [tape.next_eq]
  cases tape.raw with
  | true =>
    apply written_nextRaw
    intro c hc
    exact head_dropWhile hc
  | false => exact written_nextAt _

theorem written_tokens (lexer : DslLexer) : ∀ t ∈ dslLexerGetTokens lexer, t.word.Written := by
  induction hn : lexer.fuel using Nat.strongRecOn generalizing lexer with
  | ind n ih =>
    have hfirst : (dslLexerNextToken lexer).1.word.Written := by
      rw [(dslLexerNextToken_reads lexer).1]
      exact written_next lexer.tape
    rw [dslLexerGetTokens_eq, List.forall_mem_cons]
    refine ⟨hfirst, ?_⟩
    split
    . simp
    . next hfinal =>
      rw [Bool.not_eq_true] at hfinal
      exact ih _ (hn ▸ fuel_dslLexerNextToken_lt hfinal) _ rfl

end Words

section Statements

variable {ts rest : List DslToken}

theorem Word.Written.identifier {t : DslToken} {text : Bytes} (h : t.word.Written) (htype : t.type = .ident)
    (htext : t.str = some text) : Identifier text := by
  unfold Word.Written DslToken.word at h
  simp only [htype, htext] at h
  obtain ⟨_, heq, hident⟩ := h
  rw [Option.some.inj heq]
  exact hident

theorem Word.Written.quotable {t : DslToken} {text : Bytes} (h : t.word.Written) (htype : ValueWord t.type)
    (htext : t.str = some text) : Quotable text := by
  unfold Word.Written DslToken.word at h
  cases ht : t.type with
  | ident =>
    simp only [ht, htext] at h
    obtain ⟨_, heq, hident⟩ := h
    rw [Option.some.inj heq]
    intro c hc
    have hchar := hident.1.chars c hc
    refine ⟨?_, ?_, ?_⟩
    all_goals
      rintro rfl
      exact absurd hchar (by decide)
  | string =>
    simp only [ht, htext] at h
    obtain ⟨_, heq, hquotable⟩ := h
    rw [Option.some.inj heq]
    exact hquotable
  | int =>
    simp only [ht, htext] at h
    obtain ⟨_, heq, _, hdigits⟩ := h
    rw [Option.some.inj heq]
    intro c hc
    have hdigit := hdigits c hc
    refine ⟨?_, ?_, ?_⟩
    all_goals
      rintro rfl
      exact absurd hdigit (by decide)
  | _ =>
    rw [ht] at htype
    cases htype

theorem Grammar.Asserts.writable {e : Expect} (h : Asserts ts e rest) (hts : ∀ t ∈ ts, t.word.Written)
    : e.Writable := by
  cases h with
  | @status t v digits rest ht hv hdigits =>
    have hwritten := hts v (by simp)
    unfold Word.Written DslToken.word at hwritten
    simp only [hv, hdigits] at hwritten
    obtain ⟨_, heq, hwritten⟩ := hwritten
    rw [Option.some.inj heq]
    exact hwritten
  | @bodyContains t u v text rest ht hu hv htext => exact (hts v (by simp)).quotable (hv ▸ .string) htext
  | @header t u v name value rest ht hu hname hv hvalue =>
    exact ⟨(hts u (by simp)).identifier hu hname, (hts v (by simp)).quotable hv hvalue⟩

theorem Grammar.Spells.writable {stmt : Statement} (h : Spells ts stmt rest) (hts : ∀ t ∈ ts, t.word.Written)
    : Grammar.Writable stmt := by
  cases h with
  | @request t u method url rest ht hu hurl => exact ⟨⟨_, ht⟩, (hts u (by simp)).identifier hu hurl⟩
  | @body t u text rest ht hu htext =>
    have hwritten := hts u (by simp)
    unfold Word.Written DslToken.word at hwritten
    simp only [hu, htext] at hwritten
    obtain ⟨_, heq, hwritten⟩ := hwritten
    rw [Option.some.inj heq]
    exact hwritten
  | expect ht he => exact he.writable (fun t ht => hts t (List.mem_cons_of_mem _ ht))

theorem Grammar.Program.writable {stmts : List Statement} (h : Program ts stmts)
    (hts : ∀ t ∈ ts, t.word.Written) : ∀ stmt ∈ stmts, Grammar.Writable stmt := by
  induction h with
  | eof => simp
  | blank ht hrest ih => exact ih (fun t ht => hts t (List.mem_cons_of_mem _ ht))
  | statement hstmt hend hrest ih =>
    rw [List.forall_mem_cons]
    exact ⟨hstmt.writable hts, ih (fun t ht => hts t (hstmt.suffix.subset (hend.suffix.subset ht)))⟩

theorem heading_of_mem_sections {α β : Type} {stmts : List (α ⊕ β)} {sec : α × List β}
    (hsec : sec ∈ sections stmts) : .inl sec.1 ∈ stmts := by
  fun_induction sections stmts with
  | case1 => cases hsec
  | case2 a stmts ih =>
    cases List.mem_cons.mp hsec with
    | inl heq =>
      rw [heq]
      exact List.mem_cons_self
    | inr hsec => exact List.mem_cons_of_mem _ (ih hsec)
  | case3 b stmts ih => exact List.mem_cons_of_mem _ (ih hsec)

theorem Grammar.Expect.Writable.assertion {e : Expect} (h : e.Writable) : e.assertion.Writable := by
  cases e with
  | status digits =>
    unfold Expect.assertion
    dsimp only
    split
    . next hfit => exact .status (by omega) (by omega)
    . apply Assertion.Writable.status
      all_goals
        unfold atoi toInt
        omega
  | bodyContains text => exact .bodyContains h
  | header name value => exact .header h.1 h.2

theorem mem_lastBody {clauses : List Clause} {text : Bytes} (h : lastBody clauses = some text)
    : .body text ∈ clauses := by
  unfold lastBody at h
  obtain ⟨clause, hclause, hbody⟩ := List.mem_filterMap.mp (List.mem_of_getLast? h)
  cases clause with
  | body text' =>
    cases hbody
    exact hclause
  | expect e => cases hbody

theorem mem_expects {clauses : List Clause} {e : Expect} (h : e ∈ expects clauses) : .expect e ∈ clauses := by
  obtain ⟨clause, hclause, hexpect⟩ := List.mem_filterMap.mp h
  cases clause with
  | body text => cases hexpect
  | expect e' =>
    cases hexpect
    exact hclause

theorem caseOfSection_writable {sec : RequestLine × List Clause} (hline : sec.1.Writable)
    (hclauses : ∀ clause ∈ sec.2, clause.Writable) (hroom : (expects sec.2).length ≤ maxCaseAssertions)
    : (caseOfSection sec).Writable where
  method := hline.1
  url := ⟨_, rfl, hline.2⟩
  headers := rfl
  body := by
    intro text htext
    unfold caseOfSection withClauses startCase at htext
    rw [Option.or_none] at htext
    exact hclauses _ (mem_lastBody htext)
  bodyLen := by
    unfold caseOfSection withClauses startCase
    rw [Option.or_none]
  timeoutMs := rfl
  room := by
    unfold caseOfSection withClauses startCase
    rw [List.nil_append, List.length_map]
    exact hroom
  assertions := by
    unfold caseOfSection withClauses startCase
    rw [List.nil_append]
    intro as has
    obtain ⟨e, he, rfl⟩ := List.mem_map.mp has
    have hexpect : e.Writable := hclauses _ (mem_expects he)
    exact hexpect.assertion

/-- What a source says can be written down. -/
theorem writable_of_parse {source : Bytes} {error error' : Option DslParseError} {plan : RunPlan}
    (h : dslParseRunPlan source error = some (.ok, plan, error')) : plan.Writable := by
  obtain ⟨result, plan', error'', hres, haccept, _⟩ := dslParseRunPlan_parses source error
  rw [h, Option.some.injEq, Prod.mk.injEq, Prod.mk.injEq] at hres
  obtain ⟨rfl, rfl, _⟩ := hres
  obtain ⟨hplan, hparses⟩ := haccept rfl
  obtain ⟨stmts, hprogram, hfits⟩ := parses_iff.mp ⟨_, hparses⟩
  have hwritable := hprogram.writable (written_tokens _)
  have hcases := hparses.cases_eq hprogram
  refine ⟨hplan, ?_, ?_⟩
  . rw [hcases, List.length_map]
    exact hfits.cases
  . rw [hcases]
    intro requestCase hmem
    obtain ⟨sec, hsec, rfl⟩ := List.mem_map.mp hmem
    apply caseOfSection_writable
    . exact hwritable _ (heading_of_mem_sections hsec)
    . intro clause hclause
      exact hwritable _ (mem_of_mem_sections hsec hclause)
    . exact hfits.assertions sec hsec

end Statements

/--
Some source says the plan if and only if its values are the defaults, its URLs and header names are
identifiers, its texts fit in a line or between quotes, and its cases and assertions fit in the arrays.
-/
theorem dslParseRunPlan_says_iff (plan : RunPlan) (error : Option DslParseError)
    : (∃ source error', dslParseRunPlan source error = some (.ok, plan, error')) ↔ plan.Writable := by
  constructor
  . rintro ⟨source, error', h⟩
    exact writable_of_parse h
  . intro h
    exact ⟨printRunPlan plan, h.parses error⟩

/-- Printing what was read from a source, and reading it again, gives the same plan. -/
theorem dslParseRunPlan_printRunPlan (source : Bytes) (error error' : Option DslParseError) (plan : RunPlan)
    (h : dslParseRunPlan source error = some (.ok, plan, error'))
    : ∃ error'', dslParseRunPlan (printRunPlan plan) error = some (.ok, plan, error'') :=
  (writable_of_parse h).parses error

-- The status does not fit in an int, and the number sign in the body is no comment.
def putPlan : RunPlan where
  cases := [{
    method := .put
    url := some (ascii "u")
    headers := none
    body := some (ascii "x # y")
    bodyLen := 5
    assertions := [⟨.statusEq, .int (-1)⟩]
    timeoutMs := 5000
  }]
  workerCount := 4
  saveHistory := true
  dbPath := none
  collectionName := none
  defaultTimeoutMs := 5000

theorem dslParseRunPlan_printRunPlan_put
    : ∃ error', dslParseRunPlan (printRunPlan putPlan) none = some (.ok, putPlan, error') := by
  have hparse : dslParseRunPlan (ascii "PUT u\n# c\nBODY  x # y \nEXPECT status 4294967295") none =
      some (.ok, putPlan, none) := by
    decide +kernel
  exact dslParseRunPlan_printRunPlan _ none none putPlan hparse

end HttpRuntime
