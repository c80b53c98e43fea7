import HttpRuntime.Dsl.Lexer.Words
import HttpRuntime.Dsl.Parser.Congruence
import HttpRuntime.Dsl.Written

/-!
This module contains which words stand for themselves where a URL, the name of a header or its value
is expected: those that are neither a word of the language nor a number, and as a value also numbers.
-/

open Lib Lib.Sections

namespace HttpRuntime

open Grammar

/-- A word over the alphabet of the identifiers, without the bytes in front that only go on with one. -/
structure ValueText (word : Bytes) : Prop where
  ne_nil : word ≠ []
  chars : ∀ c ∈ word, isIdentChar c = true
  start : ∀ c ∈ word.head?, c ∉ ascii "#?&=%"

/-- Neither a word of the language, nor does it begin like a number. -/
structure PlainWord (word : Bytes) : Prop where
  start : ∀ c ∈ word.head?, isdigit c = false
  type : keywordType word = .ident

-- A request, and an expectation about a header of the response.
def headerSource (url name value : Bytes) : Bytes :=
  spaced [ascii "GET", url] ++ 10 :: spaced [ascii "EXPECT", ascii "header", name, value]

/-- The source is accepted, with one case that has the URL and one expectation about the header. -/
def Yields (source url name value : Bytes) : Prop :=
  ∀ error, ∃ plan error', dslParseRunPlan source error = some (.ok, plan, error') ∧
    ∃ requestCase, plan.cases = [requestCase] ∧ requestCase.url = some url ∧
      requestCase.assertions = [⟨.headerContains, .header ⟨some name, some value⟩⟩]

section Words

variable {lexer : DslLexer} {word : Bytes}

theorem ValueText.head (h : ValueText word) : ∃ c ∈ word.head?, isdigit c = true ∨ isIdentStart c = true := by
  cases word with
  | nil => exact absurd rfl h.ne_nil
  | cons c cs =>
    have hchar := h.chars c List.mem_cons_self
    have hstart := h.start c rfl
    have hcodes : ascii "#?&=%" = [35, 63, 38, 61, 37] := by decide +kernel
    rw [hcodes] at hstart
    refine ⟨c, rfl, ?_⟩
    unfold isIdentChar isalnum at hchar
    unfold isIdentStart
    grind

theorem ValueText.isWord (h : ValueText word) (hplain : PlainWord word) : IsWord word := by
  obtain ⟨c, hc, hdigit | hstart⟩ := h.head
  . rw [hplain.start c hc] at hdigit
    cases hdigit
  . exact ⟨⟨c, hc, hstart⟩, h.chars⟩

theorem IsWord.plain (h : IsWord word) (htype : keywordType word = .ident) : PlainWord word := by
  refine ⟨?_, htype⟩
  intro c hc
  obtain ⟨c', hc', hstart⟩ := h.start
  rw [Option.mem_def.mp hc, Option.mem_some_iff] at hc'
  rw [← hc'] at hstart
  grind [isIdentStart, isalpha, isdigit]

theorem ValueText.zero_not_mem (h : ValueText word) : 0 ∉ word :=
  fun hmem => absurd (h.chars 0 hmem) (by decide)

theorem ValueText.readsAs (h : ValueText word) (hplain : PlainWord word) : ReadsAs word (.ident, word) :=
  .keyword ⟨h.isWord hplain, hplain.type, by decide, by decide⟩

theorem digits_of_int {digits : Bytes} (htype : (dslLexerNextToken lexer).1.type = .int)
    (hstr : (dslLexerNextToken lexer).1.str = some digits) : ∀ c ∈ digits, isdigit c = true := by
  obtain ⟨str, hstr', _, hdigits⟩ := valid_dslLexerNextToken lexer (by rw [htype]; decide)
  rw [hstr, Option.some.injEq] at hstr'
  rw [hstr']
  exact hdigits htype

theorem head_of_string {s : Bytes} (h : (Tape.nextAt s).1.1 = .string) : s.head? = some 34 := by
  cases s with
  | nil => cases h
  | cons c cs =>
    unfold Tape.nextAt at h
    dsimp only at h
    split at h
    . cases h
    . split at h
      . next hquote =>
        rw [hquote]
        rfl
      . split at h
        . cases h
        . split at h
          . exact absurd h (keywordType_ne _ (by decide))
          . split at h
            . unfold Tape.nextComment at h
              split at h <;> cases h
            . cases h

-- A word of the alphabet is no string.
theorem ValueText.not_string (hword : ValueText word) (h : lexer.Ahead ([32] ++ word))
    : (dslLexerNextToken lexer).1.type ≠ .string := by
  obtain ⟨hreads, _⟩ := dslLexerNextToken_reads lexer
  have htape : lexer.tape = ⟨false, 32 :: word⟩ := by
    unfold DslLexer.tape
    rw [h.rest, h.plain]
    rfl
  obtain ⟨c, hc, hstart⟩ := hword.head
  cases word with
  | nil => cases hc
  | cons c' cs =>
    obtain rfl := Option.some.inj hc
    have hblank : DslLexer.isBlank c' = false := by
      unfold DslLexer.isBlank
      grind [isIdentStart, isalpha, isdigit]
    intro htype
    rw [htape, Tape.next_eq] at hreads
    have hstring := congrArg Prod.fst hreads
    dsimp only at hstring
    rw [List.dropWhile_cons_of_pos (by decide), List.dropWhile_cons_of_neg (by rw [hblank]; decide)] at hstring
    have hhead : (c' :: cs).head? = some 34 := head_of_string (hstring.symm.trans htype)
    obtain rfl := Option.some.inj hhead
    revert hstart
    decide

end Words

namespace Grammar

variable {t t' : DslToken} {ts : List DslToken} {stmts : List Statement}

theorem Program.request_inv (h : Program (t :: ts) stmts) (ht : t.type = .get)
    : ∃ u url rest rest' stmts', ts = u :: rest ∧ u.type = .ident ∧ u.str = some url ∧
        Ends rest rest' ∧ Program rest' stmts' ∧ stmts = .inl ⟨.get, url⟩ :: stmts' := by
  cases h with
  | eof heof =>
    rw [ht] at heof
    cases heof
  | blank hnewline =>
    rw [ht] at hnewline
    cases hnewline
  | statement hstmt hend hrest =>
    cases hstmt with
    | request hmethod hu hurl =>
      rw [ht] at hmethod
      cases hmethod
      exact ⟨_, _, _, _, _, rfl, hu, hurl, hend, hrest, rfl⟩
    | body hbody =>
      rw [ht] at hbody
      cases hbody
    | expect hexpect =>
      rw [ht] at hexpect
      cases hexpect

theorem Program.header_inv (h : Program (t :: t' :: ts) stmts) (ht : t.type = .expect)
    (ht' : t'.type = .header)
    : ∃ u v name value rest stmts', ts = u :: v :: rest ∧ u.type = .ident ∧ u.str = some name ∧
        ValueWord v.type ∧ v.str = some value ∧
        stmts = .inr (.expect (.header name value)) :: stmts' := by
  cases h with
  | blank hnewline =>
    rw [ht] at hnewline
    cases hnewline
  | statement hstmt hend hrest =>
    cases hstmt with
    | request hmethod =>
      rw [ht] at hmethod
      cases hmethod
    | body hbody =>
      rw [ht] at hbody
      cases hbody
    | expect _ he =>
      cases he with
      | status hstatus =>
        rw [ht'] at hstatus
        cases hstatus
      | bodyContains hbody =>
        rw [ht'] at hbody
        cases hbody
      | header _ hu hname hv hvalue => exact ⟨_, _, _, _, _, _, rfl, hu, hname, hv, hvalue, rfl⟩

end Grammar

section Lines

variable {lexer : DslLexer} {url name value word : Bytes}

theorem spaced_cons_cons (word word' : Bytes) (words : List Bytes)
    : spaced (word :: word' :: words) = word ++ ([32] ++ spaced (word' :: words)) := by
  unfold spaced
  rw [List.intercalate_cons_cons, List.append_assoc]

theorem spaced_singleton (word : Bytes) : spaced [word] = word := List.intercalate_singleton

theorem headerSource_ahead (hu : ValueText url) (hn : ValueText name) (hv : ValueText value)
    : (dslCreateLexer (headerSource url name value)).Ahead (headerSource url name value) := by
  have hget : 0 ∉ ascii "GET" := by decide
  have hexpect : 0 ∉ ascii "EXPECT" := by decide
  have hheader : 0 ∉ ascii "header" := by decide
  apply dslCreateLexer_ahead
  unfold headerSource
  rw [List.mem_append, List.mem_cons, not_or, not_or]
  refine ⟨zero_not_mem_spaced ?_, by decide, zero_not_mem_spaced ?_⟩
  . simp [hget, hu.zero_not_mem]
  . simp [hexpect, hheader, hn.zero_not_mem, hv.zero_not_mem]

theorem first_token {t : DslToken} {ts : List DslToken} (h : dslLexerGetTokens lexer = t :: ts)
    : (dslLexerNextToken lexer).1 = t := by
  rw [dslLexerGetTokens_eq, List.cons.injEq] at h
  exact h.1

theorem plainWord_of_token {t : DslToken} {ts : List DslToken} (h : dslLexerGetTokens lexer = t :: ts)
    (htype : t.type = .ident) (hstr : t.str = some word) : PlainWord word := by
  rw [← first_token h] at htype hstr
  obtain ⟨hword, hident⟩ := isWord_of_ident htype hstr
  exact hword.plain hident

/-- What a value says that the lexer read from a word. -/
theorem ValueText.of_token (hword : ValueText word) (h : lexer.Ahead ([32] ++ word)) {t : DslToken}
    {ts : List DslToken} (htokens : dslLexerGetTokens lexer = t :: ts) (ht : ValueWord t.type)
    (hstr : t.str = some word) : PlainWord word ∨ ∀ c ∈ word, isdigit c = true := by
  have hstring := hword.not_string h
  have hfirst := first_token htokens
  cases htype : t.type with
  | ident => exact .inl (plainWord_of_token htokens htype hstr)
  | int =>
    rw [← hfirst] at htype hstr
    exact .inr (digits_of_int htype hstr)
  | string =>
    rw [hfirst] at hstring
    exact absurd htype hstring
  | _ =>
    rw [htype] at ht
    cases ht

theorem ValueText.readsAs_value (h : ValueText word) (hword : PlainWord word ∨ ∀ c ∈ word, isdigit c = true)
    : ∃ type, ReadsAs word (type, word) ∧ ValueWord type := by
  cases hword with
  | inl hplain => exact ⟨.ident, h.readsAs hplain, .ident⟩
  | inr hdigits => exact ⟨.int, .digits h.ne_nil hdigits, .int⟩

theorem program_of_headerSource (hu : ValueText url) (hn : ValueText name) (hv : ValueText value)
    (hurl : PlainWord url) (hname : PlainWord name)
    (hvalue : PlainWord value ∨ ∀ c ∈ value, isdigit c = true)
    : Program (dslLexerGetTokens (dslCreateLexer (headerSource url name value)))
        [.inl ⟨.get, url⟩, .inr (.expect (.header name value))] := by
  obtain ⟨type, hreads, htype⟩ := hv.readsAs_value hvalue
  obtain ⟨next, hrequest, hnext⟩ := spells_request (hu.readsAs hurl) (headerSource_ahead hu hn hv)
    (by simp [Separated])
  obtain ⟨t, next₁, htokens, ht, hnext₁⟩ := tokens_of_newline hnext
  obtain ⟨ts, next₂, hline, hts, hnext₂⟩ := @tokens_of_words next₁ [] _ _
    (.cons readsAs_expect (.cons readsAs_header (.cons (hn.readsAs hname) (.cons hreads .nil)))) (by simp)
    [] (by simp) (by rw [List.append_nil]; exact hnext₁) (by simp [Separated])
  obtain ⟨t', hend, heof⟩ := tokens_of_end hnext₂
  have hexpect : Spells (ts ++ [t']) (.inr (.expect (.header name value))) [t'] := by
    obtain _ | ⟨he, _ | ⟨hh, _ | ⟨hu, _ | ⟨hw, ⟨⟩⟩⟩⟩⟩ := hts
    exact .expect he.1 (.header hh.1 hu.1 hu.2 (hw.1 ▸ htype) hw.2)
  rw [htokens, hline, hend] at hrequest
  exact .statement hrequest (.newline ht) (.statement hexpect (.eof heof) (.eof heof))

-- What the only case of a program says about its first two lines.
theorem singleton_case {line : RequestLine} {stmts : List Statement} {requestCase : RequestCase}
    (h : (sections (.inl line :: stmts)).map caseOfSection = [requestCase])
    : requestCase.url = some line.url ∧
        requestCase.assertions = (expects (leading stmts)).map Expect.assertion := by
  rw [sections, List.map_cons, List.cons.injEq] at h
  rw [← h.1]
  exact ⟨rfl, List.nil_append _⟩

theorem plainWords_of_yields (hu : ValueText url) (hv : ValueText value) (hn : ValueText name)
    (h : Yields (headerSource url name value) url name value)
    : PlainWord url ∧ PlainWord name ∧ (PlainWord value ∨ ∀ c ∈ value, isdigit c = true) := by
  obtain ⟨plan, error', hres, requestCase, hcases, hurl, hassertions⟩ := h none
  obtain ⟨stmts, hprogram, _, rfl⟩ := program_of_ok hres
  have hstart := headerSource_ahead hu hn hv
  have hsource : headerSource url name value =
      ascii "GET" ++ ([32] ++ url ++ (10 :: (spaced [ascii "EXPECT", ascii "header"] ++
        ([32] ++ name ++ ([32] ++ value))))) := by
    unfold headerSource
    simp only [spaced_cons_cons, spaced_singleton, List.append_assoc]
  rw [hsource] at hstart hprogram
  -- The request: its URL is the word behind the method.
  obtain ⟨t, lexer₁, htokens, ht, h₁⟩ :=
    @ReadsAs.tokens _ _ _ [] _ readsAs_get (by simp) hstart (by simp [Separated])
  rw [htokens] at hprogram
  obtain ⟨u, url', rest, rest', stmts, hline, hutype, hustr, hend, hprogram, rfl⟩ :=
    hprogram.request_inv ht.1
  obtain ⟨hcaseUrl, hcaseAssertions⟩ := singleton_case hcases
  obtain rfl : url' = url := by
    rw [hurl, Option.some.injEq] at hcaseUrl
    exact hcaseUrl.symm
  have hplainUrl := plainWord_of_token hline hutype hustr
  obtain ⟨u', lexer₂, hurlTokens, _, h₂⟩ :=
    (hu.readsAs hplainUrl).tokens (by simp) h₁ (by simp [Separated])
  rw [hurlTokens, List.cons.injEq] at hline
  obtain ⟨newline, lexer₃, hnewlineTokens, hnewline, h₃⟩ := tokens_of_newline h₂
  rw [← hline.2, hnewlineTokens] at hend
  obtain rfl : rest' = dslLexerGetTokens lexer₃ := hend.unique (.newline hnewline)
  -- The expectation: its name and its value are the last two words.
  obtain ⟨ts, lexer₄, hexpectTokens, hts, h₄⟩ := @tokens_of_words lexer₃ _ _ _
    (.cons readsAs_expect (.cons readsAs_header .nil)) (by simp) [] (by simp) h₃ (by simp [Separated])
  obtain _ | ⟨he, _ | ⟨hh, ⟨⟩⟩⟩ := hts
  rw [hexpectTokens, List.cons_append, List.cons_append, List.nil_append] at hprogram
  obtain ⟨n, v, name', value', rest, stmts, hlast, hntype, hnstr, hvtype, hvstr, rfl⟩ :=
    hprogram.header_inv he.1 hh.1
  have hsame : name' = name ∧ value' = value := by
    rw [hassertions] at hcaseAssertions
    simp only [leading, expects, List.filterMap_cons, Clause.expect?, List.map_cons] at hcaseAssertions
    rw [List.cons.injEq] at hcaseAssertions
    simpa [Expect.assertion, eq_comm] using hcaseAssertions.1
  obtain ⟨rfl, rfl⟩ := hsame
  have hplainName := plainWord_of_token hlast hntype hnstr
  obtain ⟨n', lexer₅, hnameTokens, _, h₅⟩ :=
    (hn.readsAs hplainName).tokens (by simp) h₄ (by simp [Separated])
  rw [hnameTokens, List.cons.injEq] at hlast
  exact ⟨hplainUrl, hplainName, hv.of_token h₅ hlast.2 hvtype hvstr⟩

/--
A source with words for the URL, for the name of a header and for its value says what the words say if
and only if they are neither words of the language nor begin with a digit; the value may be a number.
-/
theorem headerSource_yields_iff (hu : ValueText url) (hn : ValueText name) (hv : ValueText value)
    : Yields (headerSource url name value) url name value ↔
        PlainWord url ∧ PlainWord name ∧ (PlainWord value ∨ ∀ c ∈ value, isdigit c = true) := by
  constructor
  . exact plainWords_of_yields hu hv hn
  . rintro ⟨hurl, hname, hvalue⟩ error
    have hprogram := program_of_headerSource hu hn hv hurl hname hvalue
    have hfits : Fits [.inl ⟨.get, url⟩, .inr (.expect (.header name value))] := by
      constructor
      . rfl
      . simp [sections, maxRequestCases]
      . simp [sections, leading, expects, Clause.expect?, maxCaseAssertions]
    obtain ⟨error', hres⟩ := dslParseRunPlan_of_program hprogram hfits error
    exact ⟨_, error', hres, _, rfl, rfl, rfl⟩

theorem headerSource_yields_length
    : Yields (headerSource (ascii "https://a.b/c?d=e") (ascii "Content-Length") (ascii "42"))
          (ascii "https://a.b/c?d=e") (ascii "Content-Length") (ascii "42") ↔
        PlainWord (ascii "https://a.b/c?d=e") ∧ PlainWord (ascii "Content-Length") ∧
          (PlainWord (ascii "42") ∨ ∀ c ∈ ascii "42", isdigit c = true) :=
  headerSource_yields_iff ⟨by decide +kernel, by decide +kernel, by decide +kernel⟩
    ⟨by decide +kernel, by decide +kernel, by decide +kernel⟩
    ⟨by decide +kernel, by decide +kernel, by decide +kernel⟩

theorem headerSource_address
    : ValueText (ascii "127.0.0.1") ∧ ValueText (ascii "Allow") ∧ ValueText (ascii "GET") ∧
        dslParseRunPlan (headerSource (ascii "127.0.0.1") (ascii "Allow") (ascii "GET")) none =
          some (.error, .zero, none) ∧
        ¬ Yields (headerSource (ascii "127.0.0.1") (ascii "Allow") (ascii "GET")) (ascii "127.0.0.1")
          (ascii "Allow") (ascii "GET") := by
  have hrejected : dslParseRunPlan (headerSource (ascii "127.0.0.1") (ascii "Allow") (ascii "GET")) none =
      some (.error, .zero, none) := by
    decide +kernel
  refine ⟨⟨by decide +kernel, by decide +kernel, by decide +kernel⟩,
    ⟨by decide +kernel, by decide +kernel, by decide +kernel⟩,
    ⟨by decide +kernel, by decide +kernel, by decide +kernel⟩, hrejected, ?_⟩
  intro hyields
  obtain ⟨plan, error', hres, _⟩ := hyields none
  rw [hrejected] at hres
  cases hres

end Lines

end HttpRuntime
