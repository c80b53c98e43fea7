import HttpRuntime.Dsl.Parser.Phrases

/-!
This module contains what the parser of the DSL computes: it accepts the programs of the grammar for
which a plan has room, and the plan has the case of every section.
-/

open Lib Lib.Sections

namespace HttpRuntime

open Grammar DslParser

section Program

variable {cases : List RequestCase} {ts : List DslToken}

/-- The cases that a program makes of those before it. -/
def Parses (cases : List RequestCase) (ts : List DslToken) (res : List RequestCase) : Prop :=
  ∃ stmts, Program ts stmts ∧ stmts.foldlM attachStmt cases = some res

theorem parses_eof {t : DslToken} (ht : t.type = .eof) {res : List RequestCase}
    : Parses cases [t] res ↔ res = cases := by
  constructor
  . rintro ⟨stmts, hprogram, hfold⟩
    cases hprogram with
    | eof => exact (Option.some.inj hfold).symm
    | blank hnewline =>
      rw [ht] at hnewline
      cases hnewline
    | statement hstmt => exact absurd ht hstmt.head_ne.2
  . rintro rfl
    exact ⟨[], .eof ht, rfl⟩

theorem Parses.line {res : List RequestCase} (h : Parses cases ts res)
    (heof : ∀ t ∈ ts.head?, t.type ≠ .eof)
    : ∃ cases' ts', Line cases ts (planOfCases cases') ts' ∧ Parses cases' ts' res := by
  rcases h with ⟨stmts, hprogram, hfold⟩
  cases hprogram with
  | eof ht => exact absurd ht (heof _ rfl)
  | blank ht hrest => exact ⟨cases, _, .blank rfl ht, stmts, hrest, hfold⟩
  | @statement _ _ _ stmt stmts hstmt hend hrest =>
    rw [List.foldlM_cons, Option.bind_eq_bind, Option.bind_eq_some_iff] at hfold
    rcases hfold with ⟨cases', hcases, hfold⟩
    exact ⟨cases', _, .statement hstmt hend hcases, stmts, hrest, hfold⟩

theorem Line.unique {plan plan' : RunPlan} {ts₁ ts₂ : List DslToken} (h : Line cases ts plan ts₁)
    (h' : Line cases ts plan' ts₂) : plan = plan' ∧ ts₁ = ts₂ := by
  cases h with
  | blank hts ht =>
    subst hts
    cases h' with
    | blank hts' => exact ⟨rfl, (List.cons.inj hts').2⟩
    | statement hstmt => exact absurd ht hstmt.head_ne.1
  | statement hstmt hend hcases =>
    cases h' with
    | blank hts ht =>
      subst hts
      exact absurd ht hstmt.head_ne.1
    | statement hstmt' hend' hcases' =>
      have heq := hstmt.unique hstmt'
      rw [← heq.1, hcases, Option.some.injEq] at hcases'
      rw [← heq.2] at hend'
      exact ⟨hcases' ▸ rfl, hend.unique hend'⟩

theorem Line.parses {plan : RunPlan} {ts' : List DslToken} (h : Line cases ts plan ts')
    {res : List RequestCase} : Parses plan.cases ts' res → Parses cases ts res := by
  rintro ⟨stmts, hprogram, hfold⟩
  cases h with
  | blank hts ht =>
    subst hts
    exact ⟨stmts, .blank ht hprogram, hfold⟩
  | @statement stmt _ _ _ hstmt hend hcases =>
    refine ⟨stmt :: stmts, .statement hstmt hend hprogram, ?_⟩
    rw [List.foldlM_cons, hcases]
    exact hfold

theorem Line.planOfCases {plan : RunPlan} {ts' : List DslToken} (h : Line cases ts plan ts')
    : plan = planOfCases plan.cases := by
  cases h <;> rfl

end Program

theorem hadError_of_eof {parser : DslParser} {t : DslToken} (h : parser.Reads (t :: ts))
    (heof : t.type = .eof) : parser.hadError = false := by
  rw [Bool.eq_false_iff, ne_eq, h.hadError]
  rintro ⟨token, htoken, herror⟩
  rw [List.head?_cons, Option.mem_some_iff] at htoken
  rw [← htoken, heof] at herror
  cases herror

theorem not_parses_of_error {t : DslToken} (htype : t.type = .error) (res : List RequestCase)
    : ¬ Parses cases (t :: ts) res := by
  rintro ⟨stmts, hprogram, _⟩
  cases hprogram with
  | eof heof =>
    rw [htype] at heof
    cases heof
  | blank ht => grind
  | statement hstmt =>
    cases hstmt with
    | request hword =>
      rw [htype] at hword
      cases hword
    | body ht => grind
    | expect ht => grind

/-- The loop accepts the programs whose statements all have room, and returns their cases. -/
theorem parseProgram_reads (parser : DslParser) (plan : RunPlan) {ts : List DslToken}
    (h : parser.Reads ts) (hplan : plan = planOfCases plan.cases)
    : ∃ parser' plan' ok, parseProgram parser plan = some (parser', plan', ok) ∧
        (ok = true →
          parser'.hadError = false ∧ plan' = planOfCases plan'.cases ∧ Parses plan.cases ts plan'.cases) ∧
        (ok = false → ∀ res, ¬ Parses plan.cases ts res) := by
  fun_induction parseProgram parser plan generalizing ts with
  | case1 parser plan heof =>
    rcases h.exists_cons with ⟨t, ts, rfl⟩
    rw [h.check, decide_eq_true_eq] at heof
    have hts := h.final (by simp [DslToken.isFinal, heof])
    subst hts
    have herror := hadError_of_eof h heof
    refine ⟨parser, plan, _, rfl, ?_, ?_⟩
    . intro _
      exact ⟨herror, hplan, (parses_eof heof).mpr rfl⟩
    . rw [herror]
      intro hok
      cases hok
  | case2 parser plan heof herror =>
    refine ⟨parser, plan, false, rfl, fun hok => absurd hok (by decide), ?_⟩
    intro _ res hparses
    rcases h.exists_cons with ⟨t, ts, rfl⟩
    rcases h.hadError.mp herror with ⟨token, htoken, htype⟩
    rw [List.head?_cons, Option.mem_some_iff] at htoken
    subst htoken
    exact not_parses_of_error htype res hparses
  | case3 parser plan heof herror hnone =>
    rw [hplan] at hnone
    rcases @parseStatement_reads _ plan.cases _ h with ⟨_, _, _, hres, _⟩
    rw [hnone] at hres
    cases hres
  | case4 parser plan heof herror parser' plan' hsome =>
    refine ⟨parser', plan', false, rfl, fun hok => absurd hok (by decide), ?_⟩
    intro _ res hparses
    rw [hplan] at hsome
    rcases @parseStatement_reads _ plan.cases _ h with ⟨_, _, _, hres, _, hreject⟩
    rw [hsome, Option.some.injEq, Prod.mk.injEq, Prod.mk.injEq] at hres
    rcases hres with ⟨_, _, rfl⟩
    rcases h.exists_cons with ⟨t, ts, rfl⟩
    rw [h.check, decide_eq_true_eq] at heof
    rcases hparses.line (by simpa using heof) with ⟨_, _, hline, _⟩
    exact hreject rfl _ _ hline
  | case5 parser plan heof herror parser' plan' hsome ih =>
    have hsome' := hsome
    rw [hplan] at hsome'
    rcases @parseStatement_reads _ plan.cases _ h with ⟨_, _, _, hres, haccept, _⟩
    rw [hsome', Option.some.injEq, Prod.mk.injEq, Prod.mk.injEq] at hres
    rcases hres with ⟨rfl, rfl, rfl⟩
    rcases haccept rfl with ⟨ts', hreads, hline⟩
    rcases ih hreads hline.planOfCases with ⟨parser₂, plan₂, ok, hres, hok, hfail⟩
    refine ⟨parser₂, plan₂, ok, hres, ?_, ?_⟩
    . intro h₂
      rcases hok h₂ with ⟨hnoError, hplan₂, hparses⟩
      exact ⟨hnoError, hplan₂, hline.parses hparses⟩
    . intro h₂ res hparses
      rcases h.exists_cons with ⟨t, ts, rfl⟩
      rw [h.check, decide_eq_true_eq] at heof
      rcases hparses.line (by simpa using heof) with ⟨cases', ts'', hline', hparses'⟩
      rcases hline.unique hline' with ⟨rfl, rfl⟩
      exact hfail h₂ res hparses'

section Meaning

variable {requestCase res : RequestCase} {line : RequestLine} {clauses : List Clause}

theorem Grammar.Expect.means (e : Expect) : Means e e.assertion := by
  cases e with
  | status digits => exact .status (fun hfit => if_pos hfit)
  | bodyContains text => exact .bodyContains
  | header name value => exact .header

def withClauses (requestCase : RequestCase) (clauses : List Clause) : RequestCase :=
  { requestCase with
    body := (lastBody clauses).or requestCase.body
    bodyLen := ((lastBody clauses).map List.length).getD requestCase.bodyLen
    assertions := requestCase.assertions ++ (expects clauses).map Expect.assertion
  }

theorem lastBody_cons_body (text : Bytes) (clauses : List Clause)
    : lastBody (.body text :: clauses) = (lastBody clauses).or (some text) := by
  unfold lastBody
  have hcons : (Clause.body text :: clauses).filterMap Clause.body? =
      text :: clauses.filterMap Clause.body? := rfl
  rw [hcons, List.getLast?_cons]
  cases (clauses.filterMap Clause.body?).getLast? <;> rfl

theorem foldlM_extend (requestCase : RequestCase) (clauses : List Clause)
    (hroom : requestCase.assertions.length ≤ maxCaseAssertions)
    : clauses.foldlM RequestCase.extend requestCase =
        if requestCase.assertions.length + (expects clauses).length ≤ maxCaseAssertions then
          some (withClauses requestCase clauses)
        else
          none := by
  induction clauses generalizing requestCase with
  | nil =>
    rw [if_pos (by simpa [expects] using hroom)]
    simp [withClauses, lastBody, expects]
  | cons clause clauses ih =>
    rw [List.foldlM_cons]
    cases clause with
    | body text =>
      simp only [RequestCase.extend]
      rw [Option.bind_eq_bind, Option.bind_some,
        ih { requestCase with body := some text, bodyLen := text.length } hroom]
      have hexpects : expects (.body text :: clauses) = expects clauses := rfl
      rw [hexpects]
      congr 2
      unfold withClauses
      rw [lastBody_cons_body, hexpects]
      cases lastBody clauses <;> rfl
    | expect e =>
      have hexpects : expects (.expect e :: clauses) = e :: expects clauses := rfl
      have hbody : lastBody (.expect e :: clauses) = lastBody clauses := rfl
      simp only [RequestCase.extend]
      by_cases hlt : requestCase.assertions.length < maxCaseAssertions
      . rw [addAssertion_of_lt hlt, Option.bind_eq_bind, Option.bind_some,
          ih _ (by simpa using Nat.succ_le_of_lt hlt), hexpects]
        have hcount : (requestCase.assertions ++ [e.assertion]).length + (expects clauses).length =
            requestCase.assertions.length + (e :: expects clauses).length := by
          simp only [List.length_append, List.length_cons, List.length_nil]
          omega
        dsimp only
        rw [hcount]
        congr 2
        unfold withClauses
        rw [hexpects, hbody]
        simp
      . unfold RequestCase.addAssertion
        rw [if_neg hlt, if_neg]
        . rfl
        . rw [hexpects, List.length_cons]
          omega

theorem builds_iff
    : Builds startCase RequestCase.extend (line, clauses) res ↔
        (expects clauses).length ≤ maxCaseAssertions ∧ res = withClauses (startCase line) clauses := by
  unfold Builds
  rw [foldlM_extend _ _ (Nat.zero_le _)]
  simp only [startCase, List.length_nil, Nat.zero_add, Option.ite_none_right_eq_some,
    Option.some.injEq]
  exact and_congr_right (fun _ => eq_comm)

theorem withClauses_caseOf (line : RequestLine) (clauses : List Clause)
    : CaseOf (line, clauses) (withClauses (startCase line) clauses) where
  method := rfl
  url := rfl
  headers := rfl
  body := Option.or_none
  bodyLen := rfl
  timeoutMs := rfl
  assertions := by
    simp only [withClauses, startCase, List.nil_append]
    rw [List.forall₂_map_right_iff]
    exact List.forall₂_same.mpr (fun e _ => e.means)

theorem parses_iff {ts : List DslToken}
    : (∃ cases, Parses [] ts cases) ↔ ∃ stmts, Program ts stmts ∧ Fits stmts := by
  constructor
  . rintro ⟨cases, stmts, hprogram, hfold⟩
    rcases (foldlM_attach_iff _ _ _).mp hfold with ⟨hleading, hcases, hbuilds⟩
    refine ⟨stmts, hprogram, hleading, hcases, ?_⟩
    intro sec hsec
    rcases List.forall₂_iff_get.mp hbuilds with ⟨hlength, hget⟩
    rcases List.getElem_of_mem hsec with ⟨i, hi, hsec⟩
    have hi' := hget i hi (hlength ▸ hi)
    simp only [List.get_eq_getElem, hsec] at hi'
    exact (builds_iff.mp hi').1
  . rintro ⟨stmts, hprogram, hfits⟩
    refine ⟨(sections stmts).map (fun sec => withClauses (startCase sec.1) sec.2), stmts, hprogram, ?_⟩
    refine (foldlM_attach_iff _ _ _).mpr ⟨hfits.leading, hfits.cases, ?_⟩
    rw [List.forall₂_map_right_iff]
    exact List.forall₂_same.mpr (fun sec hsec => builds_iff.mpr ⟨hfits.assertions sec hsec, rfl⟩)

theorem Grammar.Program.unique {ts : List DslToken} {stmts stmts' : List Statement}
    (h : Program ts stmts) (h' : Program ts stmts') : stmts = stmts' := by
  induction h generalizing stmts' with
  | eof ht =>
    cases h' with
    | eof => rfl
    | blank ht' => grind
    | statement hstmt => exact absurd ht hstmt.head_ne.2
  | blank ht hrest ih =>
    cases h' with
    | eof ht' => grind
    | blank _ hrest' => exact ih hrest'
    | statement hstmt => exact absurd ht hstmt.head_ne.1
  | statement hstmt hend hrest ih =>
    cases h' with
    | eof ht => exact absurd ht hstmt.head_ne.2
    | blank ht => exact absurd ht hstmt.head_ne.1
    | statement hstmt' hend' hrest' =>
      rcases hstmt.unique hstmt' with ⟨rfl, rfl⟩
      rw [hend.unique hend'] at ih
      rw [ih hrest']

def caseOfSection (sec : RequestLine × List Clause) : RequestCase :=
  withClauses (startCase sec.1) sec.2

theorem Parses.cases_eq {ts : List DslToken} {res : List RequestCase} {stmts : List Statement}
    (h : Parses [] ts res) (hstmts : Program ts stmts) : res = (sections stmts).map caseOfSection := by
  rcases h with ⟨stmts', hprogram, hfold⟩
  rw [hstmts.unique hprogram, eq_comm, ← List.forall₂_eq_eq_eq, List.forall₂_map_left_iff]
  refine ((foldlM_attach_iff _ _ _).mp hfold).2.2.imp ?_
  rintro ⟨line, clauses⟩ requestCase hbuilds
  exact (builds_iff.mp hbuilds).2.symm

theorem Parses.cases {ts : List DslToken} {res : List RequestCase} {stmts : List Statement}
    (h : Parses [] ts res) (hstmts : Program ts stmts)
    : List.Forall₂ CaseOf (sections stmts) res := by
  rw [h.cases_eq hstmts, List.forall₂_map_right_iff]
  exact List.forall₂_same.mpr (fun sec _ => withClauses_caseOf sec.1 sec.2)

theorem Grammar.Ends.no_error {rest rest' : List DslToken} (h : Ends rest rest')
    (hrest : ∀ t ∈ rest', t.type ≠ .error) : ∀ t ∈ rest, t.type ≠ .error := by
  cases h with
  | newline ht => grind
  | eof ht => exact hrest

theorem Grammar.Program.no_error {ts : List DslToken} {stmts : List Statement} (h : Program ts stmts)
    : ∀ t ∈ ts, t.type ≠ .error := by
  induction h with
  | eof ht => grind
  | blank ht hrest ih => grind
  | statement hstmt hend hrest ih =>
    have hrest' := hend.no_error ih
    cases hstmt with
    | request ht hu =>
      have hne := ht.ne
      grind
    | body ht hu => grind
    | expect ht he =>
      cases he with
      | status => grind
      | bodyContains => grind
      | header _ _ _ hv =>
        rw [valueWord_iff] at hv
        grind

end Meaning

theorem dslParseRunPlan_parses (source : Bytes) (error : Option DslParseError)
    : ∃ result plan error', dslParseRunPlan source error = some (result, plan, error') ∧
        (result = .ok →
          plan = planOfCases plan.cases ∧
            Parses [] (dslLexerGetTokens (dslCreateLexer source)) plan.cases) ∧
        (result = .error →
          plan = .zero ∧ ∀ cases, ¬ Parses [] (dslLexerGetTokens (dslCreateLexer source)) cases) := by
  rcases parseProgram_reads _ initRunPlan (dslParserCreate_reads source error) rfl with
    ⟨parser, plan, ok, hres, haccept, hreject⟩
  unfold dslParseRunPlan
  rw [hres]
  dsimp only
  cases ok with
  | true =>
    rcases haccept rfl with ⟨herror, hplan, hparses⟩
    rw [if_neg (by simp [herror])]
    exact ⟨_, _, _, rfl, fun _ => ⟨hplan, hparses⟩, fun h => absurd h (by decide)⟩
  | false =>
    rw [if_pos (by simp)]
    exact ⟨_, _, _, rfl, fun h => absurd h (by decide), fun _ => ⟨rfl, hreject rfl⟩⟩

theorem dslParseRunPlan_of_program {source : Bytes} {stmts : List Statement}
    (h : Program (dslLexerGetTokens (dslCreateLexer source)) stmts) (hfits : Fits stmts)
    (error : Option DslParseError)
    : ∃ error', dslParseRunPlan source error =
        some (.ok, planOfCases ((sections stmts).map caseOfSection), error') := by
  obtain ⟨result, plan, error', hres, haccept, hreject⟩ := dslParseRunPlan_parses source error
  cases result with
  | error =>
    obtain ⟨cases, hparses⟩ := parses_iff.mpr ⟨stmts, h, hfits⟩
    exact absurd hparses ((hreject rfl).2 cases)
  | ok =>
    obtain ⟨hplan, hparses⟩ := haccept rfl
    rw [hparses.cases_eq h] at hplan
    rw [hplan] at hres
    exact ⟨error', hres⟩

/--
The parser never leaves its arrays. It accepts the sources whose tokens are a program that fits, and
the plan is the one with the case of every section. Otherwise the plan is cleared.
-/
theorem dslParseRunPlan_correct (source : Bytes) (error : Option DslParseError)
    : ∃ result plan error', dslParseRunPlan source error = some (result, plan, error') ∧
        (result = .ok ↔
          (∀ t ∈ dslLexerGetTokens (dslCreateLexer source), t.type ≠ .error) ∧
            ∃ stmts, Program (dslLexerGetTokens (dslCreateLexer source)) stmts ∧ Fits stmts) ∧
        (result = .ok →
          plan = { initRunPlan with cases := plan.cases } ∧
            ∀ stmts, Program (dslLexerGetTokens (dslCreateLexer source)) stmts →
              List.Forall₂ CaseOf (sections stmts) plan.cases) ∧
        (result = .error → plan = .zero) := by
  rcases dslParseRunPlan_parses source error with ⟨result, plan, error', hres, haccept, hreject⟩
  refine ⟨result, plan, error', hres, ?_, ?_, fun h => (hreject h).1⟩
  . cases result with
    | ok =>
      have hprogram := parses_iff.mp ⟨_, (haccept rfl).2⟩
      refine iff_of_true rfl ⟨?_, hprogram⟩
      rcases hprogram with ⟨_, hprogram, _⟩
      exact hprogram.no_error
    | error =>
      refine iff_of_false (by decide) ?_
      rintro ⟨_, hprogram⟩
      rcases parses_iff.mpr hprogram with ⟨cases, hparses⟩
      exact (hreject rfl).2 cases hparses
  . intro hok
    exact ⟨(haccept hok).1, fun stmts hstmts => (haccept hok).2.cases hstmts⟩

end HttpRuntime
