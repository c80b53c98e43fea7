import HttpRuntime.Cli.Commands
import HttpRuntime.Cli.Status
import HttpRuntime.Core.HeaderLines
import HttpRuntime.Dsl.Parser.Correctness
import HttpRuntime.Dsl.Written

/-!
This module contains that both front ends agree: a request with its expectations is the same case,
given as arguments or written as a source.
-/

open Lib Lib.Sections

namespace HttpRuntime

open Grammar

/-- The text is one identifier, and all of it. -/
def LexesAsIdent (text : Bytes) : Prop :=
  (dslLexerGetTokens (dslCreateLexer text)).map (fun token => (token.type, token.str)) =
    [(.ident, some text), (.eof, none)]

instance (text : Bytes) : Decidable (LexesAsIdent text) := inferInstanceAs (Decidable (_ = _))

/-- What a user expects of a response. The value of a header may be written between quotes. -/
inductive Expectation where
  | status (digits : Bytes)
  | body (text : Bytes)
  | header (name value : Bytes)
  | quotedHeader (name value : Bytes)

namespace Expectation

-- `Quotable` leaves out the terminator, which no argument has.
def Valid (e : Expectation) : Prop :=
  match e with
  | .status digits => digits ≠ [] ∧ ∀ c ∈ digits, isdigit c = true
  | .body text => text ≠ [] ∧ Quotable text ∧ text.take 4 ≠ ascii "hex:"
  | .header name value => LexesAsIdent name ∧ LexesAsIdent value
  | .quotedHeader name value => LexesAsIdent name ∧ Quotable value

def option (e : Expectation) : CliOption :=
  match e with
  | .status digits => .expectStatus digits
  | .body text => .expectBody text
  | .header name value => .expectHeader name value
  | .quotedHeader name value => .expectHeader name value

def expect (e : Expectation) : Expect :=
  match e with
  | .status digits => .status digits
  | .body text => .bodyContains text
  | .header name value => .header name value
  | .quotedHeader name value => .header name value

def words (e : Expectation) : List Bytes :=
  match e with
  | .status digits => [ascii "EXPECT", ascii "status", digits]
  | .body text => [ascii "EXPECT", ascii "body", ascii "contains", quote text]
  | .header name value => [ascii "EXPECT", ascii "header", name, value]
  | .quotedHeader name value => [ascii "EXPECT", ascii "header", name, quote value]

end Expectation

def cliArguments (prog url : Bytes) (es : List Expectation) : List Bytes :=
  prog :: ascii "get" :: url :: es.flatMap (fun e => e.option.args)

-- The last line may end with a newline.
def dslSource (url : Bytes) (es : List Expectation) (newline : Bool) : Bytes :=
  spaced [ascii "GET", url] ++
    (es.flatMap (fun e => 10 :: spaced e.words) ++ if newline then [10] else [])

section Text

variable {lexer : DslLexer} {rest : Bytes}

theorem LexesAsIdent.isWord {text : Bytes} (h : LexesAsIdent text)
    : IsWord text ∧ keywordType text = .ident := by
  unfold LexesAsIdent at h
  rw [dslLexerGetTokens_eq, List.map_cons, List.cons.injEq, Prod.mk.injEq] at h
  exact isWord_of_ident h.1.1 h.1.2

theorem ReadsAs.ident {word : Bytes} (h : LexesAsIdent word) : ReadsAs word (.ident, word) :=
  .keyword ⟨h.isWord.1, h.isWord.2, by decide, by decide⟩

-- The tokens of a line.
def Expectation.tokens (e : Expectation) : List (DslTokenType × Bytes) :=
  match e with
  | .status digits => [(.expect, ascii "EXPECT"), (.status, ascii "status"), (.int, digits)]
  | .body text =>
    [(.expect, ascii "EXPECT"), (.body, ascii "body"), (.contains, ascii "contains"), (.string, text)]
  | .header name value =>
    [(.expect, ascii "EXPECT"), (.header, ascii "header"), (.ident, name), (.ident, value)]
  | .quotedHeader name value =>
    [(.expect, ascii "EXPECT"), (.header, ascii "header"), (.ident, name), (.string, value)]

theorem Expectation.Valid.readsAs {e : Expectation} (he : e.Valid)
    : List.Forall₂ ReadsAs e.words e.tokens := by
  cases e with
  | status digits =>
    have hstatus : ReadsAs (ascii "status") (.status, ascii "status") :=
      .keyword (by decide +kernel)
    exact .cons readsAs_expect (.cons hstatus (.cons (.digits he.1 he.2) .nil))
  | body text =>
    have hbody : ReadsAs (ascii "body") (.body, ascii "body") :=
      .keyword (by decide +kernel)
    have hcontains : ReadsAs (ascii "contains") (.contains, ascii "contains") :=
      .keyword (by decide +kernel)
    exact .cons readsAs_expect (.cons hbody (.cons hcontains (.cons (.string he.2.1) .nil)))
  | header name value =>
    exact .cons readsAs_expect (.cons readsAs_header (.cons (.ident he.1) (.cons (.ident he.2) .nil)))
  | quotedHeader name value =>
    exact .cons readsAs_expect (.cons readsAs_header (.cons (.ident he.1) (.cons (.string he.2) .nil)))

theorem Expectation.spells_tokens {e : Expectation} {ts : List DslToken}
    (h : List.Forall₂ TokenIs ts e.tokens) (rest : List DslToken)
    : Spells (ts ++ rest) (.inr (.expect e.expect)) rest := by
  cases e with
  | status digits =>
    obtain _ | ⟨ht, _ | ⟨hu, _ | ⟨hv, ⟨⟩⟩⟩⟩ := h
    exact .expect ht.1 (.status hu.1 hv.1 hv.2)
  | body text =>
    obtain _ | ⟨ht, _ | ⟨hu, _ | ⟨hv, _ | ⟨hw, ⟨⟩⟩⟩⟩⟩ := h
    exact .expect ht.1 (.bodyContains hu.1 hv.1 hw.1 hw.2)
  | header name value =>
    obtain _ | ⟨ht, _ | ⟨hu, _ | ⟨hv, _ | ⟨hw, ⟨⟩⟩⟩⟩⟩ := h
    exact .expect ht.1 (.header hu.1 hv.1 hv.2 (hw.1 ▸ .ident) hw.2)
  | quotedHeader name value =>
    obtain _ | ⟨ht, _ | ⟨hu, _ | ⟨hv, _ | ⟨hw, ⟨⟩⟩⟩⟩⟩ := h
    exact .expect ht.1 (.header hu.1 hv.1 hv.2 (hw.1 ▸ .string) hw.2)

theorem Expectation.Valid.spells {e : Expectation} (he : e.Valid)
    (h : lexer.Ahead (spaced e.words ++ rest)) (hrest : Separated rest)
    : ∃ next, Spells (dslLexerGetTokens lexer) (.inr (.expect e.expect)) (dslLexerGetTokens next) ∧
        next.Ahead rest := by
  have hne : e.words ≠ [] := by
    cases e <;> simp [Expectation.words]
  obtain ⟨ts, next, htokens, hts, hnext⟩ :=
    @tokens_of_words lexer rest _ _ he.readsAs hne [] (by simp) h hrest
  refine ⟨next, ?_, hnext⟩
  rw [htokens]
  exact Expectation.spells_tokens hts _

theorem separated_lines (es : List Expectation) (newline : Bool)
    : Separated (es.flatMap (fun e => 10 :: spaced e.words) ++ if newline then [10] else []) := by
  cases es with
  | nil => cases newline <;> simp [Separated]
  | cons e es => simp [Separated]

/-- The end of a line, and the lines behind it. -/
theorem program_of_lines {es : List Expectation} (hes : ∀ e ∈ es, e.Valid) (newline : Bool)
    (h : lexer.Ahead (es.flatMap (fun e => 10 :: spaced e.words) ++ if newline then [10] else []))
    : ∃ ts, Ends (dslLexerGetTokens lexer) ts ∧
        Program ts (es.map (fun e => .inr (.expect e.expect))) := by
  induction es generalizing lexer with
  | nil =>
    cases newline with
    | false =>
      obtain ⟨t, ht, heof⟩ := tokens_of_end h
      rw [ht]
      exact ⟨[t], .eof heof, .eof heof⟩
    | true =>
      obtain ⟨t, next, htokens, ht, hnext⟩ := tokens_of_newline h
      obtain ⟨t', ht', heof⟩ := tokens_of_end hnext
      rw [htokens, ht']
      exact ⟨[t'], .newline ht, .eof heof⟩
  | cons e es ih =>
    rw [List.flatMap_cons, List.append_assoc, List.cons_append] at h
    have hvalid := List.forall_mem_cons.mp hes
    obtain ⟨t, next, htokens, ht, hnext⟩ := tokens_of_newline h
    obtain ⟨next', hspells, hnext'⟩ := hvalid.1.spells hnext (separated_lines es newline)
    obtain ⟨ts, hends, hprogram⟩ := ih hvalid.2 hnext'
    rw [htokens]
    exact ⟨_, .newline ht, .statement hspells hends hprogram⟩

theorem LexesAsIdent.zero_not_mem {word : Bytes} (h : LexesAsIdent word) : 0 ∉ word :=
  h.isWord.1.zero_not_mem

theorem Quotable.zero_not_mem {str : Bytes} (h : Quotable str) : 0 ∉ str :=
  fun hmem => (h 0 hmem).2.1 rfl

theorem Expectation.Valid.zero_not_mem {e : Expectation} (he : e.Valid) : ∀ word ∈ e.words, 0 ∉ word := by
  have hquote : ∀ str, Quotable str → 0 ∉ quote str := by
    intro str hstr
    simpa [quote] using hstr.zero_not_mem
  cases e with
  | status digits =>
    have hdigits : 0 ∉ digits := fun hmem => absurd (he.2 0 hmem) (by decide)
    simp only [Expectation.words, List.forall_mem_cons, List.not_mem_nil, false_implies,
      implies_true, and_true]
    exact ⟨by decide, by decide, hdigits⟩
  | body text =>
    simp only [Expectation.words, List.forall_mem_cons, List.not_mem_nil, false_implies,
      implies_true, and_true]
    exact ⟨by decide, by decide, by decide, hquote _ he.2.1⟩
  | header name value =>
    simp only [Expectation.words, List.forall_mem_cons, List.not_mem_nil, false_implies,
      implies_true, and_true]
    exact ⟨by decide, by decide, he.1.zero_not_mem, he.2.zero_not_mem⟩
  | quotedHeader name value =>
    simp only [Expectation.words, List.forall_mem_cons, List.not_mem_nil, false_implies,
      implies_true, and_true]
    exact ⟨by decide, by decide, he.1.zero_not_mem, hquote _ he.2⟩

theorem zero_not_mem_dslSource {url : Bytes} (hurl : LexesAsIdent url) {es : List Expectation}
    (hes : ∀ e ∈ es, e.Valid) (newline : Bool) : 0 ∉ dslSource url es newline := by
  unfold dslSource
  rw [List.mem_append, List.mem_append, List.mem_flatMap, not_or, not_or]
  refine ⟨?_, ?_, ?_⟩
  . apply zero_not_mem_spaced
    intro word hword
    rw [List.mem_pair] at hword
    cases hword with
    | inl heq => rw [heq]; decide
    | inr heq => rw [heq]; exact hurl.zero_not_mem
  . rintro ⟨e, he, hmem⟩
    cases List.mem_cons.mp hmem with
    | inl heq => exact absurd heq (by decide)
    | inr hmem => exact zero_not_mem_spaced (hes e he).zero_not_mem hmem
  . cases newline <;> decide

def clausesOf (es : List Expectation) : List Clause := es.map (fun e => .expect e.expect)

/-- The source is a program with the request and its expectations. -/
theorem program_of_dslSource {url : Bytes} (hurl : LexesAsIdent url) {es : List Expectation}
    (hes : ∀ e ∈ es, e.Valid) (newline : Bool)
    : Program (dslLexerGetTokens (dslCreateLexer (dslSource url es newline)))
        (.inl ⟨.get, url⟩ :: (clausesOf es).map .inr) := by
  have hstart := dslCreateLexer_ahead (zero_not_mem_dslSource hurl hes newline)
  obtain ⟨next, hspells, hnext⟩ := spells_request (.ident hurl) hstart (separated_lines es newline)
  obtain ⟨ts, hends, hprogram⟩ := program_of_lines hes newline hnext
  unfold clausesOf
  rw [List.map_map]
  exact .statement hspells hends hprogram

end Text

section Agreement

variable {e : Expectation} {es : List Expectation} {url : Bytes}

theorem Expectation.Valid.option_valid (he : e.Valid) : e.option.Valid := by
  cases e with
  | status digits => trivial
  | body text => exact fun hhex => absurd hhex he.2.2
  | header name value => trivial
  | quotedHeader name value => trivial

/-- Both front ends make the same assertion of an expectation. -/
theorem Expectation.Valid.assertion_eq (he : e.Valid) : e.option.assertion = e.expect.assertion := by
  cases e with
  | status digits => exact (assertion_status he.2).symm
  | body text =>
    have hlength := strlen_of_not_mem he.2.1.zero_not_mem
    unfold Expectation.option CliOption.assertion Expectation.expect Expect.assertion
    dsimp only
    rw [if_neg he.2.2, hlength]
  | header name value => rfl
  | quotedHeader name value => rfl

theorem dupString_nil {s : Bytes} (h : 0 ∉ s) : dupString (some s) [] = (some s, []) := by
  unfold dupString
  dsimp only
  rw [cstring_eq_self (fun c hc heq => h (heq ▸ hc))]
  rfl

-- The deep copy is the assertion again.
theorem Expectation.Valid.copyAssertion_eq (he : e.Valid)
    : copyAssertion e.option.assertion [] = (e.option.assertion, []) := by
  have hheader {name value : Bytes} (hname : 0 ∉ name) (hvalue : 0 ∉ value)
      : copyAssertion ⟨.headerContains, .header ⟨some name, some value⟩⟩ [] =
          (⟨.headerContains, .header ⟨some name, some value⟩⟩, []) := by
    unfold copyAssertion
    dsimp only
    rw [dupString_nil hname, dupString_nil hvalue]
  cases e with
  | status digits => rfl
  | body text =>
    unfold Expectation.option CliOption.assertion
    dsimp only
    rw [if_neg he.2.2, strlen_of_not_mem he.2.1.zero_not_mem]
    unfold copyAssertion
    dsimp only
    rw [List.take_length]
    rfl
  | header name value => exact hheader he.1.zero_not_mem he.2.zero_not_mem
  | quotedHeader name value => exact hheader he.1.zero_not_mem he.2.zero_not_mem

theorem copyAssertions_options (hes : ∀ e ∈ es, e.Valid)
    : copyAssertions (es.map (fun e => e.option.assertion)) [] =
        es.map (fun e => e.option.assertion) := by
  induction es with
  | nil => rfl
  | cons e es ih =>
    have hvalid := List.forall_mem_cons.mp hes
    rw [List.map_cons, copyAssertions, hvalid.1.copyAssertion_eq, ih hvalid.2]

-- The case of the plan, without the way there.
def requestCaseOf (url : Bytes) (es : List Expectation) : RequestCase :=
  { startCase ⟨.get, url⟩ with assertions := es.map (fun e => e.option.assertion) }

theorem parseCliOptions_arguments (prog : Bytes) (url : Bytes) (hes : ∀ e ∈ es, e.Valid)
    (hlength : es.length ≤ 16)
    : (parseCliOptions (cliArguments prog url es) .zero []).1 = 0 ∧
        (parseCliOptions (cliArguments prog url es) .zero []).2.url = some url ∧
        (parseCliOptions (cliArguments prog url es) .zero []).2.assertions =
          es.map (fun e => e.option.assertion) := by
  have hargs : es.flatMap (fun e => e.option.args) = (es.map Expectation.option).flatMap CliOption.args :=
    List.flatMap_map .. |>.symm
  have hlist : OptionList (es.flatMap (fun e => e.option.args))
      { CliOptions.zero with command := some (ascii "get"), url := some url }
      (es.map Expectation.option) := by
    refine ⟨hargs, ?_, ?_⟩
    . intro opt hopt
      obtain ⟨e, he, rfl⟩ := List.mem_map.mp hopt
      exact (hes e he).option_valid
    . rw [List.length_map]
      simpa [CliOptions.zero, maxAssertion] using hlength
  have haccepted := parseOptions_of_optionList hlist (Nat.le_refl _)
  rw [foldl_extend, List.map_map] at haccepted
  unfold parseCliOptions cliArguments
  dsimp only
  rw [haccepted]
  exact ⟨rfl, rfl, rfl⟩

theorem cliOptionsToRunPlan_arguments {options : CliOptions} (hurl : LexesAsIdent url)
    (hes : ∀ e ∈ es, e.Valid) (hlength : es.length ≤ 16) (hoptions : options.url = some url)
    (hassertions : options.assertions = es.map (fun e => e.option.assertion))
    : ∃ plan, cliOptionsToRunPlan options [] = some plan ∧ plan.cases = [requestCaseOf url es] := by
  have hne : url ≠ [] := by
    obtain ⟨c, hc, _⟩ := hurl.isWord.1.start
    rintro rfl
    cases hc
  have hstrlen : ¬ strlen url = 0 := by
    rw [strlen_of_not_mem hurl.zero_not_mem, List.length_eq_zero_iff]
    exact hne
  have hroom : ¬ (es.map (fun e => e.option.assertion)).length > maxCaseAssertions := by
    rw [List.length_map]
    unfold maxCaseAssertions
    omega
  unfold cliOptionsToRunPlan
  rw [hoptions, hassertions]
  dsimp only
  rw [if_neg hstrlen, dupString_nil (by decide)]
  dsimp only
  rw [dupString_nil (by decide)]
  dsimp only
  rw [if_neg (by simp), dupString_nil hurl.zero_not_mem]
  dsimp only
  rw [if_neg (by simp), if_neg hroom, copyAssertions_options hes]
  exact ⟨_, rfl, rfl⟩

theorem expects_clausesOf (es : List Expectation)
    : expects (clausesOf es) = es.map Expectation.expect := by
  unfold expects clausesOf
  rw [List.filterMap_map]
  exact congrFun List.filterMap_eq_map es

theorem lastBody_clausesOf (es : List Expectation) : lastBody (clausesOf es) = none := by
  unfold lastBody clausesOf
  rw [List.filterMap_map, List.getLast?_eq_none_iff, List.filterMap_eq_nil_iff]
  exact fun e _ => rfl

theorem caseOfSection_request (hes : ∀ e ∈ es, e.Valid)
    : caseOfSection (⟨.get, url⟩, clausesOf es) = requestCaseOf url es := by
  have hassertions : es.map (fun e => e.option.assertion) =
      (es.map Expectation.expect).map Expect.assertion := by
    rw [List.map_map]
    exact List.map_congr_left (fun e he => (hes e he).assertion_eq)
  unfold caseOfSection withClauses requestCaseOf
  rw [expects_clausesOf, lastBody_clausesOf, hassertions]
  rfl

theorem sections_request (line : RequestLine) (clauses : List Clause)
    : sections (.inl line :: clauses.map .inr) = [(line, clauses)] := by
  rw [sections, leading_map_inr, sections_map_inr]

theorem fits_request (line : RequestLine) (hlength : es.length ≤ 16)
    : Fits (.inl line :: (clausesOf es).map .inr) where
  leading := rfl
  cases := by
    rw [sections_request, List.length_singleton]
    decide
  assertions := by
    rw [sections_request]
    intro sec hsec
    rw [List.mem_singleton] at hsec
    rw [hsec, expects_clausesOf, List.length_map]
    unfold maxCaseAssertions
    omega

/-- Both front ends make one case of a request with its expectations, and it is the same case. -/
theorem frontEnds_agree (prog : Bytes) (hurl : LexesAsIdent url) (hes : ∀ e ∈ es, e.Valid)
    (hlength : es.length ≤ 16) (newline : Bool) (error : Option DslParseError)
    : ∃ options cliPlan dslPlan error' requestCase,
        parseCliOptions (cliArguments prog url es) .zero [] = (0, options) ∧
          cliOptionsToRunPlan options [] = some cliPlan ∧ cliPlan.cases = [requestCase] ∧
          dslParseRunPlan (dslSource url es newline) error = some (.ok, dslPlan, error') ∧
          dslPlan.cases = [requestCase] := by
  obtain ⟨haccepted, hoptions, hassertions⟩ := parseCliOptions_arguments prog url hes hlength
  obtain ⟨cliPlan, hcli, hcliCases⟩ := cliOptionsToRunPlan_arguments hurl hes hlength hoptions hassertions
  have hprogram := program_of_dslSource hurl hes newline
  obtain ⟨error', hdsl⟩ := dslParseRunPlan_of_program hprogram (fits_request _ hlength) error
  refine ⟨_, cliPlan, _, error', requestCaseOf url es, Prod.ext haccepted rfl, hcli, hcliCases, hdsl, ?_⟩
  rw [sections_request, List.map_singleton, caseOfSection_request hes]
  rfl

def sampleExpectations : List Expectation :=
  [.status (ascii "200"), .quotedHeader (ascii "Content-Type") (ascii "text/html; x"),
    .header (ascii "Server") (ascii "nginx"), .body (ascii "Example Domain")]

theorem frontEnds_agree_sample
    : ∃ options cliPlan dslPlan error' requestCase,
        parseCliOptions (cliArguments (ascii "fman") (ascii "https://a.b/c?d=e") sampleExpectations) .zero [] =
            (0, options) ∧
          cliOptionsToRunPlan options [] = some cliPlan ∧ cliPlan.cases = [requestCase] ∧
          dslParseRunPlan (dslSource (ascii "https://a.b/c?d=e") sampleExpectations true) none =
            some (.ok, dslPlan, error') ∧
          dslPlan.cases = [requestCase] := by
  refine frontEnds_agree (ascii "fman") (by decide +kernel) ?_ (by decide) true none
  simp only [sampleExpectations, List.forall_mem_cons, List.not_mem_nil, false_implies, implies_true,
    and_true, Expectation.Valid]
  decide +kernel

end Agreement

end HttpRuntime
