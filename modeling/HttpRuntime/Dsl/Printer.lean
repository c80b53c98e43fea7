import HttpRuntime.Dsl.Lexer.Words
import HttpRuntime.Dsl.Parser.Correctness
import HttpRuntime.Dsl.Written
import HttpRuntime.Lib.Decimal

/-!
This module contains a source for every plan that the DSL can say, one statement a line, and that the
parser reads the plan back from it.
-/

open Lib Lib.Sections

namespace HttpRuntime

open Grammar

def Identifier (word : Bytes) : Prop := IsWord word ∧ keywordType word = .ident

instance (word : Bytes) : Decidable (Identifier word) := inferInstanceAs (Decidable (_ ∧ _))

/-- A text that `BODY` can give: one line, without blanks at its ends. -/
structure BodyText (text : Bytes) : Prop where
  line : ∀ c ∈ text, Tape.inLine c = true
  first : ∀ c ∈ text.head?, DslLexer.isBlank c = false
  last : ∀ c ∈ text.getLast?, (c == 32 || c == 9) = false

theorem bodyText_iff {text : Bytes}
    : (text.all Tape.inLine && text.head?.all (fun c => !DslLexer.isBlank c) &&
        text.getLast?.all (fun c => !(c == 32 || c == 9))) = true ↔ BodyText text := by
  simp only [Bool.and_eq_true, List.all_eq_true, Option.all_eq_true, Bool.not_eq_true']
  exact ⟨fun h => ⟨h.1.1, h.1.2, h.2⟩, fun h => ⟨⟨h.line, h.first⟩, h.last⟩⟩

instance (text : Bytes) : Decidable (BodyText text) := decidable_of_iff _ bodyText_iff

namespace Grammar

def Expect.Writable (e : Expect) : Prop :=
  match e with
  | .status digits => digits ≠ [] ∧ ∀ c ∈ digits, isdigit c = true
  | .bodyContains text => Quotable text
  | .header name value => Identifier name ∧ Quotable value

def Clause.Writable (clause : Clause) : Prop :=
  match clause with
  | .body text => BodyText text
  | .expect e => e.Writable

def RequestLine.Writable (line : RequestLine) : Prop :=
  (∃ type, MethodWord type line.method) ∧ Identifier line.url

def Writable (stmt : Statement) : Prop := stmt.elim RequestLine.Writable Clause.Writable

def methodWord (method : Method) : Bytes :=
  match method with
  | .get => ascii "GET"
  | .post => ascii "POST"
  | .put => ascii "PUT"
  | .delete => ascii "DELETE"
  | .patch => ascii "PATCH"
  | .head => ascii "HEAD"
  | .options => ascii "OPTIONS"

def Expect.words (e : Expect) : List Bytes :=
  match e with
  | .status digits => [ascii "EXPECT", ascii "status", digits]
  | .bodyContains text => [ascii "EXPECT", ascii "body", ascii "contains", quote text]
  | .header name value => [ascii "EXPECT", ascii "header", name, quote value]

def Expect.tokens (e : Expect) : List (DslTokenType × Bytes) :=
  match e with
  | .status digits => [(.expect, ascii "EXPECT"), (.status, ascii "status"), (.int, digits)]
  | .bodyContains text =>
    [(.expect, ascii "EXPECT"), (.body, ascii "body"), (.contains, ascii "contains"), (.string, text)]
  | .header name value =>
    [(.expect, ascii "EXPECT"), (.header, ascii "header"), (.ident, name), (.string, value)]

def printStatement (stmt : Statement) : Bytes :=
  match stmt with
  | .inl line => spaced [methodWord line.method, line.url]
  | .inr (.body text) => spaced [ascii "BODY", text]
  | .inr (.expect e) => spaced e.words

def printStatements (stmts : List Statement) : Bytes :=
  stmts.flatMap (fun stmt => printStatement stmt ++ [10])

end Grammar

section Lines

variable {lexer : DslLexer} {rest : Bytes}

theorem Identifier.readsAs {word : Bytes} (h : Identifier word) : ReadsAs word (.ident, word) :=
  .keyword ⟨h.1, h.2, by decide, by decide⟩

theorem readsAs_method {type : DslTokenType} {method : Method} (h : MethodWord type method)
    : ReadsAs (methodWord method) (type, methodWord method) := by
  cases h with
  | get => exact .keyword (by decide +kernel)
  | post => exact .keyword (by decide +kernel)
  | put => exact .keyword (by decide +kernel)
  | delete => exact .keyword (by decide +kernel)
  | patch => exact .keyword (by decide +kernel)

theorem Grammar.Expect.Writable.readsAs {e : Expect} (he : e.Writable)
    : List.Forall₂ ReadsAs e.words e.tokens := by
  cases e with
  | status digits =>
    have hstatus : ReadsAs (ascii "status") (.status, ascii "status") :=
      .keyword (by decide +kernel)
    exact .cons readsAs_expect (.cons hstatus (.cons (.digits he.1 he.2) .nil))
  | bodyContains text =>
    have hbody : ReadsAs (ascii "body") (.body, ascii "body") :=
      .keyword (by decide +kernel)
    have hcontains : ReadsAs (ascii "contains") (.contains, ascii "contains") :=
      .keyword (by decide +kernel)
    exact .cons readsAs_expect (.cons hbody (.cons hcontains (.cons (.string he) .nil)))
  | header name value =>
    exact .cons readsAs_expect (.cons readsAs_header (.cons he.1.readsAs (.cons (.string he.2) .nil)))

theorem Grammar.Expect.spells_tokens {e : Expect} {ts : List DslToken}
    (h : List.Forall₂ TokenIs ts e.tokens) (rest : List DslToken)
    : Spells (ts ++ rest) (.inr (.expect e)) rest := by
  cases e with
  | status digits =>
    obtain _ | ⟨ht, _ | ⟨hu, _ | ⟨hv, ⟨⟩⟩⟩⟩ := h
    exact .expect ht.1 (.status hu.1 hv.1 hv.2)
  | bodyContains text =>
    obtain _ | ⟨ht, _ | ⟨hu, _ | ⟨hv, _ | ⟨hw, ⟨⟩⟩⟩⟩⟩ := h
    exact .expect ht.1 (.bodyContains hu.1 hv.1 hw.1 hw.2)
  | header name value =>
    obtain _ | ⟨ht, _ | ⟨hu, _ | ⟨hv, _ | ⟨hw, ⟨⟩⟩⟩⟩⟩ := h
    exact .expect ht.1 (.header hu.1 hv.1 hv.2 (hw.1 ▸ .string) hw.2)

theorem next_bodyWord (s : Bytes)
    : Tape.next ⟨false, ascii "BODY" ++ 32 :: s⟩ = ((.bodyStmt, some (ascii "BODY")), ⟨true, 32 :: s⟩) := by
  rw [Tape.next_eq]
  have hcodes : ascii "BODY" = [66, 79, 68, 89] := by decide +kernel
  have hkeyword : keywordType [66, 79, 68, 89] = .bodyStmt := by decide +kernel
  have hsplit := @DslLexer.dropWhile_run isIdentChar [66, 79, 68, 89] (32 :: s) (by decide +kernel) (by
    intro c hc
    cases hc
    decide)
  rw [hcodes]
  have hstart : ([66, 79, 68, 89] ++ 32 :: s).dropWhile DslLexer.isBlank = [66, 79, 68, 89] ++ 32 :: s :=
    rfl
  dsimp only
  rw [if_neg (by decide), hstart]
  unfold Tape.nextAt
  simp only [List.cons_append, List.nil_append]
  rw [if_neg (by decide), if_neg (by decide), if_neg (by decide), if_pos (by decide)]
  unfold Tape.nextIdentifier
  simp only [List.cons_append, List.nil_append] at hsplit
  rw [hsplit.1, hsplit.2]
  dsimp only
  rw [hkeyword]
  rfl

/-- The body is the text again, up to the end of its line. -/
theorem next_bodyText {text : Bytes} (htext : BodyText text) (hrest : ∀ c ∈ rest.head?, c = 10)
    : Tape.next ⟨true, 32 :: (text ++ rest)⟩ = ((.bodyRaw, some text), ⟨false, rest⟩) := by
  rw [Tape.next_eq]
  dsimp only
  have hskip : (32 :: (text ++ rest)).dropWhile DslLexer.isBlank = text ++ rest := by
    rw [List.dropWhile_cons_of_pos (by decide)]
    cases text with
    | nil =>
      cases rest with
      | nil => rfl
      | cons c rest =>
        rw [hrest c rfl]
        rfl
    | cons c text => rw [List.cons_append, List.dropWhile_cons_of_neg (by simp [htext.first c rfl])]
  have hsplit := @DslLexer.dropWhile_run Tape.inLine text rest htext.line (by
    intro c hc
    rw [hrest c hc]
    decide)
  have htrim : text.rdropWhile (fun c => c == 32 || c == 9) = text := by
    rw [List.rdropWhile_eq_self_iff]
    intro hne
    have hlast := htext.last (text.getLast hne) (List.getLast?_eq_some_getLast hne)
    simp [hlast]
  rw [if_pos rfl, hskip]
  unfold Tape.nextRaw
  rw [hsplit.1, hsplit.2, htrim]

theorem spells_body {text : Bytes} (htext : BodyText text)
    (h : lexer.Ahead (spaced [ascii "BODY", text] ++ rest)) (hrest : ∀ c ∈ rest.head?, c = 10)
    : ∃ next, Spells (dslLexerGetTokens lexer) (.inr (.body text)) (dslLexerGetTokens next) ∧
        next.Ahead rest := by
  have htape : lexer.tape = ⟨false, ascii "BODY" ++ 32 :: (text ++ rest)⟩ := by
    unfold DslLexer.tape
    rw [h.plain, h.rest]
    simp [spaced]
  obtain ⟨hword, hnext⟩ := dslLexerNextToken_reads lexer
  rw [htape, next_bodyWord] at hword hnext
  obtain ⟨hword', hnext'⟩ := dslLexerNextToken_reads (dslLexerNextToken lexer).2
  rw [hnext] at hword' hnext'
  dsimp only at hword' hnext'
  rw [next_bodyText htext hrest] at hword' hnext'
  unfold DslToken.word at hword hword'
  rw [Prod.mk.injEq] at hword hword'
  unfold DslLexer.tape at hnext'
  rw [Tape.mk.injEq] at hnext'
  refine ⟨(dslLexerNextToken (dslLexerNextToken lexer).2).2, ?_, ⟨hnext'.2, hnext'.1⟩⟩
  rw [dslLexerGetTokens_eq lexer, if_neg (by simp [DslToken.isFinal, hword.1]),
    dslLexerGetTokens_eq (dslLexerNextToken lexer).2, if_neg (by simp [DslToken.isFinal, hword'.1])]
  exact .body hword.1 hword'.1 hword'.2

theorem spells_statement {stmt : Statement} (hstmt : Grammar.Writable stmt)
    (h : lexer.Ahead (printStatement stmt ++ rest)) (hrest : ∀ c ∈ rest.head?, c = 10)
    : ∃ next, Spells (dslLexerGetTokens lexer) stmt (dslLexerGetTokens next) ∧ next.Ahead rest := by
  have hseparated : Separated rest := fun c hc => Or.inr (hrest c hc)
  cases stmt with
  | inl line =>
    obtain ⟨⟨type, hmethod⟩, hurl⟩ := hstmt
    obtain ⟨ts, next, htokens, hts, hnext⟩ :=
      @tokens_of_words lexer rest _ _ (.cons (readsAs_method hmethod) (.cons hurl.readsAs .nil)) (by simp)
        [] (by simp) h hseparated
    refine ⟨next, ?_, hnext⟩
    rw [htokens]
    obtain _ | ⟨ht, _ | ⟨hu, ⟨⟩⟩⟩ := hts
    exact .request (ht.1 ▸ hmethod) hu.1 hu.2
  | inr clause =>
    cases clause with
    | body text => exact spells_body hstmt h hrest
    | expect e =>
      have hne : e.words ≠ [] := by
        cases e <;> simp [Expect.words]
      obtain ⟨ts, next, htokens, hts, hnext⟩ :=
        @tokens_of_words lexer rest _ _ (Expect.Writable.readsAs hstmt) hne [] (by simp) h hseparated
      refine ⟨next, ?_, hnext⟩
      rw [htokens]
      exact Expect.spells_tokens hts _

theorem program_of_print {stmts : List Statement} (hstmts : ∀ stmt ∈ stmts, Grammar.Writable stmt)
    (h : lexer.Ahead (printStatements stmts)) : Program (dslLexerGetTokens lexer) stmts := by
  induction stmts generalizing lexer with
  | nil =>
    obtain ⟨t, ht, heof⟩ := tokens_of_end h
    rw [ht]
    exact .eof heof
  | cons stmt stmts ih =>
    have hwritable := List.forall_mem_cons.mp hstmts
    unfold printStatements at h
    rw [List.flatMap_cons, List.append_assoc, List.singleton_append] at h
    obtain ⟨next, hspells, hnext⟩ := spells_statement hwritable.1 h (by simp)
    obtain ⟨t, next', htokens, ht, hnext'⟩ := tokens_of_newline hnext
    rw [htokens] at hspells
    exact .statement hspells (.newline ht) (ih hwritable.2 hnext')

end Lines

section Plans

-- What an assertion says in a source.
def Assertion.expect (as : Assertion) : Expect :=
  match as.expected with
  | .int n => .status (decimal (n % 2 ^ 32).toNat)
  | .bytes data _ => .bodyContains (data.getD [])
  | .header h => .header (h.name.getD []) (h.value.getD [])
  | _ => .bodyContains []

/-- An assertion that a source can say. -/
inductive Assertion.Writable : Assertion → Prop where
  | status {n : Int} (hlow : -2 ^ 31 ≤ n) (hhigh : n < 2 ^ 31) : Writable ⟨.statusEq, .int n⟩
  | bodyContains {text : Bytes} (htext : Quotable text)
    : Writable ⟨.bodyContains, .bytes (some text) text.length⟩
  | header {name value : Bytes} (hname : Identifier name) (hvalue : Quotable value)
    : Writable ⟨.headerContains, .header ⟨some name, some value⟩⟩

namespace RequestCase

def line (requestCase : RequestCase) : RequestLine := ⟨requestCase.method, requestCase.url.getD []⟩

def clauses (requestCase : RequestCase) : List Clause :=
  requestCase.body.toList.map .body ++ requestCase.assertions.map (fun as => .expect as.expect)

def statements (requestCase : RequestCase) : List Statement :=
  .inl requestCase.line :: requestCase.clauses.map .inr

/-- A case that a source can say. -/
structure Writable (requestCase : RequestCase) : Prop where
  method : ∃ type, MethodWord type requestCase.method
  url : ∃ url, requestCase.url = some url ∧ Identifier url
  headers : requestCase.headers = none
  body : ∀ text, requestCase.body = some text → BodyText text
  bodyLen : requestCase.bodyLen = (requestCase.body.map List.length).getD 0
  timeoutMs : requestCase.timeoutMs = 5000
  room : requestCase.assertions.length ≤ maxCaseAssertions
  assertions : ∀ as ∈ requestCase.assertions, as.Writable

end RequestCase

/-- A plan that a source can say. -/
structure RunPlan.Writable (plan : RunPlan) : Prop where
  defaults : plan = { initRunPlan with cases := plan.cases }
  room : plan.cases.length ≤ maxRequestCases
  cases : ∀ requestCase ∈ plan.cases, requestCase.Writable

def printRunPlan (plan : RunPlan) : Bytes := printStatements (plan.cases.flatMap RequestCase.statements)

theorem Assertion.Writable.assertion_expect {as : Assertion} (h : as.Writable) : as.expect.assertion = as := by
  cases h with
  | @status n hlow hhigh =>
    have hdigits : ∀ c ∈ decimal (n % 2 ^ 32).toNat, isdigit c = true := fun c hc => isdigit_of_mem_decimal hc
    have hatoi := atoi_decimal hlow hhigh
    unfold Assertion.expect Expect.assertion
    dsimp only
    split
    . next hfit => rw [← atoi_of_digits hdigits hfit, hatoi]
    . rw [hatoi]
  | bodyContains htext => rfl
  | header hname hvalue => rfl

theorem Assertion.Writable.expect_writable {as : Assertion} (h : as.Writable) : as.expect.Writable := by
  cases h with
  | status hlow hhigh => exact ⟨decimal_ne_nil _, fun c hc => isdigit_of_mem_decimal hc⟩
  | bodyContains htext => exact htext
  | header hname hvalue => exact ⟨hname, hvalue⟩

namespace RequestCase

variable {requestCase : RequestCase}

theorem expects_clauses (requestCase : RequestCase)
    : expects requestCase.clauses = requestCase.assertions.map Assertion.expect := by
  unfold expects clauses
  rw [List.filterMap_append, List.filterMap_map, List.filterMap_map]
  have hbody : requestCase.body.toList.filterMap (Clause.expect? ∘ Clause.body) = [] := by
    rw [List.filterMap_eq_nil_iff]
    exact fun text _ => rfl
  rw [hbody, List.nil_append]
  exact congrFun List.filterMap_eq_map requestCase.assertions

theorem lastBody_clauses (requestCase : RequestCase) : lastBody requestCase.clauses = requestCase.body := by
  unfold lastBody clauses
  rw [List.filterMap_append, List.filterMap_map, List.filterMap_map]
  have hnone : requestCase.assertions.filterMap (Clause.body? ∘ fun as => .expect as.expect) = [] := by
    rw [List.filterMap_eq_nil_iff]
    exact fun as _ => rfl
  rw [hnone, List.append_nil]
  cases requestCase.body <;> rfl

/-- The section of a case says the case again. -/
theorem Writable.caseOfSection_line (h : requestCase.Writable)
    : caseOfSection (requestCase.line, requestCase.clauses) = requestCase := by
  obtain ⟨url, hurl, _⟩ := h.url
  have hassertions : (requestCase.assertions.map Assertion.expect).map Expect.assertion =
      requestCase.assertions := by
    have hid : requestCase.assertions.map (Expect.assertion ∘ Assertion.expect) =
        requestCase.assertions.map id :=
      List.map_congr_left (fun as has => (h.assertions as has).assertion_expect)
    rw [List.map_map, hid, List.map_id]
  unfold caseOfSection withClauses
  rw [expects_clauses, lastBody_clauses, hassertions]
  simp only [startCase, line, Option.or_none, List.nil_append]
  rw [← h.bodyLen, ← h.timeoutMs, ← h.headers, hurl, Option.getD_some, ← hurl]

theorem Writable.statements_writable (h : requestCase.Writable)
    : ∀ stmt ∈ requestCase.statements, Grammar.Writable stmt := by
  obtain ⟨url, hurl, hident⟩ := h.url
  unfold statements
  rw [List.forall_mem_cons]
  constructor
  . refine ⟨h.method, ?_⟩
    unfold line
    rw [hurl]
    exact hident
  . intro stmt hstmt
    obtain ⟨clause, hclause, rfl⟩ := List.mem_map.mp hstmt
    unfold clauses at hclause
    rw [List.mem_append, List.mem_map, List.mem_map] at hclause
    cases hclause with
    | inl hbody =>
      obtain ⟨text, htext, rfl⟩ := hbody
      exact h.body text (Option.mem_toList.mp htext)
    | inr hexpect =>
      obtain ⟨as, has, rfl⟩ := hexpect
      exact (h.assertions as has).expect_writable

end RequestCase

theorem leading_statements (cases : List RequestCase) : leading (cases.flatMap RequestCase.statements) = [] := by
  cases cases <;> rfl

theorem sections_statements (cases : List RequestCase)
    : sections (cases.flatMap RequestCase.statements) =
        cases.map (fun requestCase => (requestCase.line, requestCase.clauses)) := by
  induction cases with
  | nil => rfl
  | cons requestCase cases ih =>
    rw [List.flatMap_cons, List.map_cons]
    unfold RequestCase.statements
    rw [List.cons_append, sections, leading_append_of_nil (sections_map_inr _), leading_map_inr,
      sections_append_of_nil (sections_map_inr _)]
    have hleading := leading_statements cases
    unfold RequestCase.statements at hleading ih
    rw [hleading, List.append_nil, ih]

theorem zero_not_mem_quote {text : Bytes} (h : Quotable text) : 0 ∉ quote text := by
  have hzero : 0 ∉ text := fun hmem => (h 0 hmem).2.1 rfl
  simpa [quote] using hzero

theorem zero_not_mem_printStatement {stmt : Statement} (h : Grammar.Writable stmt)
    : 0 ∉ printStatement stmt := by
  have hdigits : ∀ digits : Bytes, (∀ c ∈ digits, isdigit c = true) → 0 ∉ digits := by
    intro digits hall hmem
    exact absurd (hall 0 hmem) (by decide)
  cases stmt with
  | inl line =>
    have hmethod : 0 ∉ methodWord line.method := by
      cases line.method <;> decide +kernel
    apply zero_not_mem_spaced
    simp only [List.forall_mem_cons, List.not_mem_nil, false_implies, implies_true, and_true]
    exact ⟨hmethod, h.2.1.zero_not_mem⟩
  | inr clause =>
    cases clause with
    | body text =>
      have htext : BodyText text := h
      apply zero_not_mem_spaced
      simp only [List.forall_mem_cons, List.not_mem_nil, false_implies, implies_true, and_true]
      exact ⟨by decide +kernel, fun hmem => absurd (htext.line 0 hmem) (by decide)⟩
    | expect e =>
      apply zero_not_mem_spaced
      cases e with
      | status digits =>
        simp only [Expect.words, List.forall_mem_cons, List.not_mem_nil, false_implies, implies_true,
          and_true]
        exact ⟨by decide +kernel, by decide +kernel, hdigits digits h.2⟩
      | bodyContains text =>
        simp only [Expect.words, List.forall_mem_cons, List.not_mem_nil, false_implies, implies_true,
          and_true]
        exact ⟨by decide +kernel, by decide +kernel, by decide +kernel, zero_not_mem_quote h⟩
      | header name value =>
        have hheader : Identifier name ∧ Quotable value := h
        simp only [Expect.words, List.forall_mem_cons, List.not_mem_nil, false_implies, implies_true,
          and_true]
        exact ⟨by decide +kernel, by decide +kernel, hheader.1.1.zero_not_mem,
          zero_not_mem_quote hheader.2⟩

theorem zero_not_mem_printStatements {stmts : List Statement} (h : ∀ stmt ∈ stmts, Grammar.Writable stmt)
    : 0 ∉ printStatements stmts := by
  unfold printStatements
  rw [List.mem_flatMap]
  rintro ⟨stmt, hstmt, hmem⟩
  rw [List.mem_append, List.mem_singleton] at hmem
  cases hmem with
  | inl hmem => exact zero_not_mem_printStatement (h stmt hstmt) hmem
  | inr heq => exact absurd heq (by decide)

/-- The parser reads a plan back from its source. -/
theorem RunPlan.Writable.parses {plan : RunPlan} (h : plan.Writable) (error : Option DslParseError)
    : ∃ error', dslParseRunPlan (printRunPlan plan) error = some (.ok, plan, error') := by
  have hstmts : ∀ stmt ∈ plan.cases.flatMap RequestCase.statements, Grammar.Writable stmt := by
    intro stmt hstmt
    obtain ⟨requestCase, hcase, hstmt⟩ := List.mem_flatMap.mp hstmt
    exact (h.cases requestCase hcase).statements_writable stmt hstmt
  have hprogram := program_of_print hstmts (dslCreateLexer_ahead (zero_not_mem_printStatements hstmts))
  have hfits : Fits (plan.cases.flatMap RequestCase.statements) := {
    leading := leading_statements plan.cases
    cases := by
      rw [sections_statements, List.length_map]
      exact h.room
    assertions := by
      rw [sections_statements]
      intro sec hsec
      obtain ⟨requestCase, hcase, rfl⟩ := List.mem_map.mp hsec
      rw [RequestCase.expects_clauses, List.length_map]
      exact (h.cases requestCase hcase).room
  }
  obtain ⟨error', hres⟩ := dslParseRunPlan_of_program hprogram hfits error
  refine ⟨error', ?_⟩
  have hcases : (sections (plan.cases.flatMap RequestCase.statements)).map caseOfSection = plan.cases := by
    have hid : plan.cases.map (caseOfSection ∘ fun requestCase => (requestCase.line, requestCase.clauses)) =
        plan.cases.map id :=
      List.map_congr_left (fun requestCase hcase => (h.cases requestCase hcase).caseOfSection_line)
    rw [sections_statements, List.map_map, hid, List.map_id]
  rw [printRunPlan, hres, hcases]
  unfold planOfCases
  rw [← h.defaults]

end Plans

end HttpRuntime
