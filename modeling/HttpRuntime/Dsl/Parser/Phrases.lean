import HttpRuntime.Dsl.Grammar
import HttpRuntime.Dsl.Parser.Reads

/-!
This module contains the phrases that the parser reads off its tokens: it accepts one if and only if
the grammar has it in front of the tokens.
-/

open Lib Lib.Sections

namespace HttpRuntime

open Grammar DslParser

def Grammar.Expect.assertion (e : Expect) : Assertion :=
  match e with
  | .status digits =>
    ⟨.statusEq, .int (if digitsValue digits < 2 ^ 31 then digitsValue digits else atoi digits)⟩
  | .bodyContains text => ⟨.bodyContains, .bytes (some text) text.length⟩
  | .header name value => ⟨.headerContains, .header ⟨some name, some value⟩⟩

def startCase (line : RequestLine) : RequestCase where
  method := line.method
  url := some line.url
  headers := none
  body := none
  bodyLen := 0
  assertions := []
  timeoutMs := 5000

def RequestCase.extend (requestCase : RequestCase) (clause : Clause) : Option RequestCase :=
  match clause with
  | .body text => some { requestCase with body := some text, bodyLen := text.length }
  | .expect e => requestCase.addAssertion e.assertion

def planOfCases (cases : List RequestCase) : RunPlan := { initRunPlan with cases := cases }

abbrev attachStmt (cases : List RequestCase) (stmt : Statement) : Option (List RequestCase) :=
  attach startCase RequestCase.extend maxRequestCases cases stmt

/-- What a parsing function returns: it accepts what `Next` allows, or `Next` allows nothing. -/
def Reading {γ : Type} (Next : γ → List DslToken → Prop) (res : Option (DslParser × γ × Bool)) : Prop :=
  ∃ parser c ok, res = some (parser, c, ok) ∧
    (ok = true → ∃ rest, parser.Reads rest ∧ Next c rest) ∧
    (ok = false → ∀ c rest, ¬ Next c rest)

section Reading

variable {γ : Type} {Next : γ → List DslToken → Prop} {parser : DslParser} {c : γ}

theorem Reading.accept {rest : List DslToken} (hreads : parser.Reads rest) (hnext : Next c rest)
    : Reading Next (some (parser, c, true)) :=
  ⟨parser, c, true, rfl, fun _ => ⟨rest, hreads, hnext⟩, fun h => absurd h (by decide)⟩

theorem Reading.reject (hnext : ∀ c rest, ¬ Next c rest) : Reading Next (some (parser, c, false)) :=
  ⟨parser, c, false, rfl, fun h => absurd h (by decide), fun _ => hnext⟩

end Reading

section Assertions

variable {parser : DslParser} {requestCase : RequestCase} {t : DslToken} {ts : List DslToken}

def Asserted (requestCase : RequestCase) (ts : List DslToken) (res : RequestCase) (rest : List DslToken)
    : Prop :=
  ∃ e, Asserts ts e rest ∧ requestCase.addAssertion e.assertion = some res

theorem addAssertion_of_lt (h : requestCase.assertions.length < maxCaseAssertions) (as : Assertion)
    : requestCase.addAssertion as =
        some { requestCase with assertions := requestCase.assertions ++ [as] } := by
  unfold RequestCase.addAssertion
  rw [if_pos h]

theorem parseStatusAssertion_reads (h : parser.Reads (t :: ts)) (ht : t.type = .status)
    (hroom : requestCase.assertions.length < maxCaseAssertions)
    : Reading (Asserted requestCase (t :: ts)) (parseStatusAssertion parser requestCase) := by
  have hinner : Inner t.type := by rw [ht]; decide
  have hadvance := (h.advance (isFinal_of_inner hinner)).1
  rcases hadvance.exists_cons with ⟨v, rest, rfl⟩
  unfold parseStatusAssertion
  rw [if_neg (by omega), h.consume_eq _ ht]
  dsimp only
  rw [if_neg (by decide)]
  by_cases hv : v.type = .int
  . have hvinner : Inner v.type := by rw [hv]; decide
    have hnext := (hadvance.advance (isFinal_of_inner hvinner)).1
    rcases hadvance.previousStr hvinner with ⟨digits, hstr, _, hdigits, hprevious⟩
    have hvalue : (Expect.status digits).assertion = ⟨.statusEq, .int (atoi digits)⟩ := by
      unfold Expect.assertion
      dsimp only
      split
      . next hfit => rw [atoi_of_digits (hdigits hv) hfit]
      . rfl
    rw [hadvance.consume_eq _ hv]
    dsimp only
    rw [if_neg (by decide), hprevious, Option.bind_eq_bind, Option.bind_some,
      addAssertion_of_lt hroom, Option.bind_eq_bind, Option.bind_some]
    refine Reading.accept hnext ⟨.status digits, .status ht hv hstr, ?_⟩
    rw [addAssertion_of_lt hroom, hvalue]
  . rw [hadvance.consume_ne _ hv]
    apply Reading.reject
    rintro res rest' ⟨e, he, _⟩
    cases he with
    | status _ hv' => exact hv hv'
    | bodyContains ht' => grind
    | header ht' => grind

theorem parseBodyAssertion_reads (h : parser.Reads (t :: ts)) (ht : t.type = .body)
    (hroom : requestCase.assertions.length < maxCaseAssertions)
    : Reading (Asserted requestCase (t :: ts)) (parseBodyAssertion parser requestCase) := by
  have hinner : Inner t.type := by rw [ht]; decide
  have hadvance := (h.advance (isFinal_of_inner hinner)).1
  rcases hadvance.exists_cons with ⟨u, us, rfl⟩
  unfold parseBodyAssertion
  rw [if_neg (by omega), h.consume_eq _ ht]
  dsimp only
  rw [if_neg (by decide)]
  by_cases hu : u.type = .contains
  . have huinner : Inner u.type := by rw [hu]; decide
    have hadvance' := (hadvance.advance (isFinal_of_inner huinner)).1
    rcases hadvance'.exists_cons with ⟨v, rest, rfl⟩
    rw [hadvance.consume_eq _ hu]
    dsimp only
    rw [if_neg (by decide)]
    by_cases hv : v.type = .string
    . have hvinner : Inner v.type := by rw [hv]; decide
      have hnext := (hadvance'.advance (isFinal_of_inner hvinner)).1
      rcases hadvance'.previousStr hvinner with ⟨text, hstr, hzero, _, hprevious⟩
      rw [hadvance'.consume_eq _ hv]
      dsimp only
      rw [if_neg (by decide), hprevious, Option.bind_eq_bind, Option.bind_some,
        addAssertion_of_lt hroom, Option.bind_eq_bind, Option.bind_some]
      refine Reading.accept hnext ⟨.bodyContains text, .bodyContains ht hu hv hstr, ?_⟩
      rw [addAssertion_of_lt hroom, strlen_of_not_mem hzero]
      rfl
    . rw [hadvance'.consume_ne _ hv]
      apply Reading.reject
      rintro res rest' ⟨e, he, _⟩
      cases he with
      | status ht' => grind
      | bodyContains _ _ hv' => exact hv hv'
      | header ht' => grind
  . rw [hadvance.consume_ne _ hu]
    apply Reading.reject
    rintro res rest' ⟨e, he, _⟩
    cases he with
    | status ht' => grind
    | bodyContains _ hu' => exact hu hu'
    | header ht' => grind

theorem valueWord_iff {type : DslTokenType}
    : ValueWord type ↔ type = .ident ∨ type = .string ∨ type = .int := by
  constructor
  . intro h
    cases h with
    | ident => exact .inl rfl
    | string => exact .inr (.inl rfl)
    | int => exact .inr (.inr rfl)
  . rintro (rfl | rfl | rfl)
    . exact .ident
    . exact .string
    . exact .int

theorem parseHeaderAssertion_reads (h : parser.Reads (t :: ts)) (ht : t.type = .header)
    (hroom : requestCase.assertions.length < maxCaseAssertions)
    : Reading (Asserted requestCase (t :: ts)) (parseHeaderAssertion parser requestCase) := by
  have hinner : Inner t.type := by rw [ht]; decide
  have hadvance := (h.advance (isFinal_of_inner hinner)).1
  rcases hadvance.exists_cons with ⟨u, us, rfl⟩
  unfold parseHeaderAssertion
  rw [if_neg (by omega), h.consume_eq _ ht]
  dsimp only
  rw [if_neg (by decide)]
  by_cases hu : u.type = .ident
  . have huinner : Inner u.type := by rw [hu]; decide
    have hadvance' := (hadvance.advance (isFinal_of_inner huinner)).1
    rcases hadvance'.exists_cons with ⟨v, rest, rfl⟩
    rcases hadvance.previousStr huinner with ⟨name, hname, _, _, hprevious⟩
    rw [hadvance.consume_eq _ hu]
    dsimp only
    rw [if_neg (by decide), hprevious, Option.bind_eq_bind, Option.bind_some]
    have hcheck : (parser.advance.advance.check .ident || parser.advance.advance.check .string ||
        parser.advance.advance.check .int) = true ↔ ValueWord v.type := by
      rw [hadvance'.check, hadvance'.check, hadvance'.check, valueWord_iff]
      simp only [Bool.or_eq_true, decide_eq_true_eq, or_assoc]
    by_cases hv : ValueWord v.type
    . have hvinner : Inner v.type := by
        rcases valueWord_iff.mp hv with hv | hv | hv
        all_goals
          rw [hv]
          decide
      have hnext := (hadvance'.advance (isFinal_of_inner hvinner)).1
      rcases hadvance'.previousStr hvinner with ⟨value, hvalue, _, _, hprevious'⟩
      rw [if_neg (by rw [hcheck.mpr hv]; decide), hprevious', Option.bind_some,
        addAssertion_of_lt hroom, Option.bind_eq_bind, Option.bind_some]
      refine Reading.accept hnext ⟨.header name value, .header ht hu hname hv hvalue, ?_⟩
      rw [addAssertion_of_lt hroom]
      rfl
    . rw [if_pos (by rw [Bool.eq_false_iff.mpr (mt hcheck.mp hv)]; decide)]
      apply Reading.reject
      rintro res rest' ⟨e, he, _⟩
      cases he with
      | status ht' => grind
      | bodyContains ht' => grind
      | header _ _ _ hv' => exact hv hv'
  . rw [hadvance.consume_ne _ hu]
    apply Reading.reject
    rintro res rest' ⟨e, he, _⟩
    cases he with
    | status ht' => grind
    | bodyContains ht' => grind
    | header _ hu' => exact hu hu'

theorem parseAssertion_reads (h : parser.Reads ts)
    (hroom : requestCase.assertions.length < maxCaseAssertions)
    : Reading (Asserted requestCase ts) (parseAssertion parser requestCase) := by
  rcases h.exists_cons with ⟨t, ts, rfl⟩
  unfold parseAssertion
  rw [h.check, h.check, h.check]
  simp only [decide_eq_true_eq]
  split
  . next ht => exact parseStatusAssertion_reads h ht hroom
  . next hstatus =>
    split
    . next ht => exact parseBodyAssertion_reads h ht hroom
    . next hbody =>
      split
      . next ht => exact parseHeaderAssertion_reads h ht hroom
      . next hheader =>
        apply Reading.reject
        rintro res rest' ⟨e, he, _⟩
        cases he with
        | status ht' => exact hstatus ht'
        | bodyContains ht' => exact hbody ht'
        | header ht' => exact hheader ht'

end Assertions

section Statements

variable {parser : DslParser} {plan : RunPlan} {cases : List RequestCase} {t : DslToken}
  {ts : List DslToken}

inductive Line (cases : List RequestCase) (ts : List DslToken) : RunPlan → List DslToken → Prop where
  | blank {t : DslToken} {rest : List DslToken} (hts : ts = t :: rest) (ht : t.type = .newline)
    : Line cases ts (planOfCases cases) rest
  | statement {stmt : Statement} {rest rest' : List DslToken} {cases' : List RequestCase}
      (hstmt : Spells ts stmt rest) (hend : Ends rest rest')
      (hcases : attachStmt cases stmt = some cases')
    : Line cases ts (planOfCases cases') rest'

theorem finishStatement_reads {stmt : Statement} {rest : List DslToken} {message : String}
    {cases' : List RequestCase} (h : parser.Reads rest) (hstmt : Spells ts stmt rest)
    (hcases : attachStmt cases stmt = some cases')
    : Reading (Line cases ts) (finishStatement parser (planOfCases cases') message) := by
  rcases h.exists_cons with ⟨t, rest, rfl⟩
  unfold finishStatement
  rw [h.check, h.check]
  simp only [decide_eq_true_eq]
  split
  . next ht =>
    have hinner : Inner t.type := by rw [ht]; decide
    exact Reading.accept (h.advance (isFinal_of_inner hinner)).1 (.statement hstmt (.newline ht) hcases)
  . next hnewline =>
    split
    . next ht =>
      have hrest := h.final (by simp [DslToken.isFinal, ht])
      subst hrest
      exact Reading.accept h (.statement hstmt (.eof ht) hcases)
    . next heof =>
      apply Reading.reject
      intro plan' ts' hline
      cases hline with
      | blank hts ht =>
        rw [hts] at hstmt
        exact hstmt.head_ne.1 ht
      | statement hstmt' hend =>
        rw [← (hstmt.unique hstmt').2] at hend
        cases hend with
        | newline ht => exact hnewline ht
        | eof ht => exact heof ht

theorem methodWord_iff {type : DslTokenType} {m : Method}
    : MethodWord type m ↔ isMethodToken type = true ∧ methodFromToken type = m := by
  constructor
  . intro h
    cases h <;> decide
  . rintro ⟨htype, rfl⟩
    cases type
    case get => exact .get
    case post => exact .post
    case put => exact .put
    case delete => exact .delete
    case patch => exact .patch
    all_goals exact absurd htype (by decide)

theorem parseRequestStmt_reads (h : parser.Reads (t :: ts)) (ht : isMethodToken t.type = true)
    : Reading (Line cases (t :: ts)) (parseRequestStmt parser (planOfCases cases)) := by
  have hword : MethodWord t.type (methodFromToken t.type) := methodWord_iff.mpr ⟨ht, rfl⟩
  have hadvance := (h.advance (isFinal_of_isMethodToken ht)).1
  rcases hadvance.exists_cons with ⟨u, rest, rfl⟩
  have hinv {plan' : RunPlan} {ts' : List DslToken} (hline : Line cases (t :: u :: rest) plan' ts')
      : cases.length < maxRequestCases ∧ u.type = .ident := by
    cases hline with
    | blank hts hnewline =>
      rw [List.cons.injEq] at hts
      rw [← hts.1] at hnewline
      exact absurd hnewline hword.ne.2.2.1
    | statement hstmt _ hcases =>
      cases hstmt with
      | request _ hu =>
        simp only [attach] at hcases
        split at hcases
        . next hroom => exact ⟨hroom, hu⟩
        . cases hcases
      | body hbody => exact absurd hbody hword.ne.1
      | expect hexpect => exact absurd hexpect hword.ne.2.1
  unfold parseRequestStmt
  by_cases hroom : cases.length < maxRequestCases
  . rw [if_neg (by simp only [planOfCases]; omega), h.current, Option.map_some]
    dsimp only
    rw [if_neg (by simp [ht])]
    by_cases hu : u.type = .ident
    . have huinner : Inner u.type := by rw [hu]; decide
      have hnext := (hadvance.advance (isFinal_of_inner huinner)).1
      rcases hadvance.previousStr huinner with ⟨url, hurl, _, _, hprevious⟩
      rw [hadvance.consume_eq _ hu]
      dsimp only
      rw [if_neg (by decide), hprevious, Option.bind_eq_bind, Option.bind_some]
      unfold RunPlan.addCase
      rw [if_pos (show (planOfCases cases).cases.length < _ from hroom), Option.bind_eq_bind, Option.bind_some]
      apply finishStatement_reads hnext (.request hword hu hurl)
      simp only [attach]
      rw [if_pos hroom]
      rfl
    . rw [hadvance.consume_ne _ hu]
      exact Reading.reject (fun _ _ hline => hu (hinv hline).2)
  . rw [if_pos (by simp only [planOfCases]; omega)]
    exact Reading.reject (fun _ _ hline => hroom (hinv hline).1)

theorem getLast?_ne_none_of_attach {clause : Clause} {cases' : List RequestCase}
    (h : attachStmt cases (.inr clause) = some cases') : cases.getLast? ≠ none := by
  intro hlast
  simp only [attachStmt, attach, hlast] at h
  cases h

theorem parseBodyStmt_reads (h : parser.Reads (t :: ts)) (ht : t.type = .bodyStmt)
    : Reading (Line cases (t :: ts)) (parseBodyStmt parser (planOfCases cases)) := by
  have hinner : Inner t.type := by rw [ht]; decide
  have hadvance := (h.advance (isFinal_of_inner hinner)).1
  rcases hadvance.exists_cons with ⟨u, rest, rfl⟩
  have hinv {plan' : RunPlan} {ts' : List DslToken} (hline : Line cases (t :: u :: rest) plan' ts')
      : cases.getLast? ≠ none ∧ u.type = .bodyRaw := by
    cases hline with
    | blank hts hnewline => grind
    | statement hstmt _ hcases =>
      cases hstmt with
      | request hword => exact absurd ht hword.ne.1
      | body _ hu => exact ⟨getLast?_ne_none_of_attach hcases, hu⟩
      | expect hexpect => grind
  unfold parseBodyStmt
  cases hlast : (planOfCases cases).cases.getLast? with
  | none => exact Reading.reject (fun _ _ hline => (hinv hline).1 hlast)
  | some requestCase =>
    dsimp only
    rw [h.consume_eq _ ht]
    dsimp only
    rw [if_neg (by decide)]
    by_cases hu : u.type = .bodyRaw
    . have huinner : Inner u.type := by rw [hu]; decide
      have hnext := (hadvance.advance (isFinal_of_inner huinner)).1
      rcases hadvance.previousStr huinner with ⟨text, htext, hzero, _, hprevious⟩
      rw [hadvance.consume_eq _ hu]
      dsimp only
      rw [if_neg (by decide), hprevious, Option.bind_eq_bind, Option.bind_some, strlen_of_not_mem hzero]
      apply finishStatement_reads hnext (.body ht hu htext)
      simp only [planOfCases] at hlast
      simp only [attach, hlast]
      rfl
    . rw [hadvance.consume_ne _ hu]
      exact Reading.reject (fun _ _ hline => hu (hinv hline).2)

theorem Line.asserted {plan' : RunPlan} {ts' : List DslToken} (hline : Line cases (t :: ts) plan' ts')
    (ht : t.type = .expect)
    : ∃ requestCase requestCase' rest, cases.getLast? = some requestCase ∧
        Asserted requestCase ts requestCase' rest := by
  cases hline with
  | blank hts hnewline => grind
  | @statement _ rest _ _ hstmt _ hcases =>
    cases hstmt with
    | request hword => exact absurd ht hword.ne.2.1
    | body hbody => grind
    | expect _ he =>
      cases hlast : cases.getLast? with
      | none => exact absurd hlast (getLast?_ne_none_of_attach hcases)
      | some requestCase =>
        simp only [attachStmt, attach, hlast, Option.map_eq_some_iff] at hcases
        rcases hcases with ⟨requestCase', hadd, _⟩
        exact ⟨requestCase, requestCase', rest, rfl, _, he, hadd⟩

theorem parseExpectStmt_reads (h : parser.Reads (t :: ts)) (ht : t.type = .expect)
    : Reading (Line cases (t :: ts)) (parseExpectStmt parser (planOfCases cases)) := by
  have hinner : Inner t.type := by rw [ht]; decide
  have hadvance := (h.advance (isFinal_of_inner hinner)).1
  unfold parseExpectStmt
  cases hlast : (planOfCases cases).cases.getLast? with
  | none =>
    apply Reading.reject
    intro _ _ hline
    rcases hline.asserted ht with ⟨_, _, _, hlast', _⟩
    simp only [planOfCases] at hlast
    rw [hlast] at hlast'
    cases hlast'
  | some requestCase =>
    simp only [planOfCases] at hlast
    have hinv' {plan' : RunPlan} {ts' : List DslToken} (hline : Line cases (t :: ts) plan' ts')
        : ∃ requestCase' rest, Asserted requestCase ts requestCase' rest := by
      rcases hline.asserted ht with ⟨requestCase₁, requestCase', rest, hlast', hasserted⟩
      rw [hlast, Option.some.injEq] at hlast'
      rw [hlast']
      exact ⟨requestCase', rest, hasserted⟩
    dsimp only
    rw [h.consume_eq _ ht]
    dsimp only
    rw [if_neg (by decide)]
    by_cases hroom : requestCase.assertions.length < maxCaseAssertions
    . rw [if_neg (by omega)]
      rcases parseAssertion_reads hadvance hroom with ⟨parser', requestCase', ok, hres, haccept, hreject⟩
      rw [hres, Option.bind_eq_bind, Option.bind_some]
      dsimp only
      cases ok with
      | false =>
        rw [if_pos (by decide)]
        apply Reading.reject
        intro _ _ hline
        rcases hinv' hline with ⟨requestCase₁, rest, hasserted⟩
        exact hreject rfl _ _ hasserted
      | true =>
        rw [if_neg (by decide)]
        rcases haccept rfl with ⟨rest, hreads, e, he, hadd⟩
        apply finishStatement_reads hreads (.expect ht he)
        simp only [attach, hlast]
        rw [Option.map_eq_some_iff]
        exact ⟨requestCase', hadd, rfl⟩
    . rw [if_pos (by omega)]
      apply Reading.reject
      intro _ _ hline
      rcases hinv' hline with ⟨requestCase', rest, e, _, hadd⟩
      unfold RequestCase.addAssertion at hadd
      rw [if_neg hroom] at hadd
      cases hadd

/-- The parser accepts a line if and only if the grammar has one and the plan has room for it. -/
theorem parseStatement_reads (h : parser.Reads ts)
    : Reading (Line cases ts) (parseStatement parser (planOfCases cases)) := by
  rcases h.exists_cons with ⟨t, ts, rfl⟩
  unfold parseStatement
  rw [h.check, h.check, h.check, h.check, h.check, h.check, h.check, h.check]
  simp only [decide_eq_true_eq]
  split
  . next ht =>
    have hinner : Inner t.type := by rw [ht]; decide
    exact Reading.accept (h.advance (isFinal_of_inner hinner)).1 (.blank rfl ht)
  . next hnewline =>
    split
    . next ht => exact parseRequestStmt_reads h ht
    . next hmethod =>
      split
      . next ht => exact parseBodyStmt_reads h ht
      . next hbody =>
        split
        . next ht => exact parseExpectStmt_reads h ht
        . next hexpect =>
          apply Reading.reject
          intro _ _ hline
          cases hline with
          | blank hts ht => grind
          | statement hstmt =>
            cases hstmt with
            | request ht => exact hmethod (methodWord_iff.mp ht).1
            | body ht => exact hbody ht
            | expect ht => exact hexpect ht

end Statements

end HttpRuntime
