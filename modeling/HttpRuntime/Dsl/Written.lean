import HttpRuntime.Dsl.Grammar
import HttpRuntime.Dsl.Lexer.Chunks
import HttpRuntime.Dsl.Parser.Reads

/-!
This module contains that the words of a line, written with a space between them, are read as their
tokens one by one.
-/

open Lib

namespace HttpRuntime

-- The words of a line with a space between them.
def spaced (words : List Bytes) : Bytes := [32].intercalate words

variable {lexer : DslLexer} {rest : Bytes}

/-- The word is read as the token, with and without a space in front of it. -/
structure ReadsAs (word : Bytes) (token : DslTokenType × Bytes) : Prop where
  inner : DslParser.Inner token.1
  lexes : ∀ run, (∀ c ∈ run, c = 32) → LexesTo (run ++ word) token.1 token.2

def TokenIs (t : DslToken) (token : DslTokenType × Bytes) : Prop :=
  t.type = token.1 ∧ t.str = some token.2

theorem ReadsAs.tokens {word run : Bytes} {token : DslTokenType × Bytes} (hword : ReadsAs word token)
    (hrun : ∀ c ∈ run, c = 32) (h : lexer.Ahead (run ++ word ++ rest)) (hrest : Separated rest)
    : ∃ t next, dslLexerGetTokens lexer = t :: dslLexerGetTokens next ∧ TokenIs t token ∧
        next.Ahead rest := by
  obtain ⟨ht, hstr, hnext⟩ := hword.lexes run hrun lexer rest h hrest
  refine ⟨_, (dslLexerNextToken lexer).2, ?_, ⟨ht, hstr⟩, hnext⟩
  rw [dslLexerGetTokens_eq, if_neg]
  rw [DslParser.isFinal_of_inner (ht ▸ hword.inner)]
  decide

/-- The words of a line are read one by one. -/
theorem tokens_of_words {words : List Bytes} {tokens : List (DslTokenType × Bytes)}
    (hwords : List.Forall₂ ReadsAs words tokens) (hne : words ≠ []) {run : Bytes}
    (hrun : ∀ c ∈ run, c = 32) (h : lexer.Ahead (run ++ spaced words ++ rest)) (hrest : Separated rest)
    : ∃ ts next, dslLexerGetTokens lexer = ts ++ dslLexerGetTokens next ∧
        List.Forall₂ TokenIs ts tokens ∧ next.Ahead rest := by
  induction hwords generalizing lexer run with
  | nil => exact absurd rfl hne
  | @cons word token words tokens hword hwords ih =>
    cases words with
    | nil =>
      cases hwords
      unfold spaced at h
      rw [List.intercalate_singleton] at h
      obtain ⟨t, next, htokens, ht, hnext⟩ := hword.tokens hrun h hrest
      exact ⟨[t], next, htokens, .cons ht .nil, hnext⟩
    | cons word' words =>
      have happend : run ++ spaced (word :: word' :: words) ++ rest =
          run ++ word ++ ([32] ++ spaced (word' :: words) ++ rest) := by
        unfold spaced
        rw [List.intercalate_cons_cons]
        simp only [List.append_assoc]
      rw [happend] at h
      obtain ⟨t, next, htokens, ht, hnext⟩ := hword.tokens hrun h (by simp [Separated])
      obtain ⟨ts, next', htokens', hts, hnext'⟩ := ih (by simp) (by simp) hnext
      refine ⟨t :: ts, next', ?_, .cons ht hts, hnext'⟩
      rw [htokens, htokens', List.cons_append]

theorem ReadsAs.keyword {word : Bytes} {type : DslTokenType}
    (h : IsWord word ∧ keywordType word = type ∧ DslParser.Inner type ∧ type ≠ .bodyStmt)
    : ReadsAs word (type, word) where
  inner := h.2.2.1
  lexes := by
    obtain ⟨hword, rfl, _, hne⟩ := h
    intro run hrun
    exact lexesTo_word hrun hword hne

theorem ReadsAs.digits {digits : Bytes} (hne : digits ≠ []) (hdigits : ∀ c ∈ digits, isdigit c = true)
    : ReadsAs digits (.int, digits) where
  inner := by
    dsimp only
    decide
  lexes := fun _ hrun => lexesTo_digits hrun hne hdigits

theorem ReadsAs.string {str : Bytes} (h : Quotable str) : ReadsAs (quote str) (.string, str) where
  inner := by
    dsimp only
    decide
  lexes := fun _ hrun => lexesTo_string hrun h

theorem readsAs_get : ReadsAs (ascii "GET") (.get, ascii "GET") :=
  .keyword (by decide +kernel)

theorem readsAs_expect : ReadsAs (ascii "EXPECT") (.expect, ascii "EXPECT") :=
  .keyword (by decide +kernel)

theorem readsAs_header : ReadsAs (ascii "header") (.header, ascii "header") :=
  .keyword (by decide +kernel)

theorem spells_request {url : Bytes} (hurl : ReadsAs url (.ident, url))
    (h : lexer.Ahead (spaced [ascii "GET", url] ++ rest)) (hrest : Separated rest)
    : ∃ next, Grammar.Spells (dslLexerGetTokens lexer) (.inl ⟨.get, url⟩) (dslLexerGetTokens next) ∧
        next.Ahead rest := by
  obtain ⟨ts, next, htokens, hts, hnext⟩ :=
    @tokens_of_words lexer rest _ _ (.cons readsAs_get (.cons hurl .nil)) (by simp) [] (by simp) h hrest
  refine ⟨next, ?_, hnext⟩
  rw [htokens]
  obtain _ | ⟨ht, _ | ⟨hu, ⟨⟩⟩⟩ := hts
  exact .request (ht.1 ▸ .get) hu.1 hu.2

theorem tokens_of_newline (h : lexer.Ahead (10 :: rest))
    : ∃ t next, dslLexerGetTokens lexer = t :: dslLexerGetTokens next ∧ t.type = .newline ∧
        next.Ahead rest := by
  obtain ⟨start, hstarts, hstart⟩ := @DslLexer.Ahead.starts lexer rest 10 [] h (by simp) (by decide)
  rw [dslLexerGetTokens_eq, dslLexerNextToken_newline hstarts]
  exact ⟨_, start.advance, rfl, rfl, hstart.advance⟩

theorem tokens_of_end (h : lexer.Ahead []) : ∃ t, dslLexerGetTokens lexer = [t] ∧ t.type = .eof := by
  have htype := dslLexerNextToken_eof h
  refine ⟨_, ?_, htype⟩
  rw [dslLexerGetTokens_eq, if_pos]
  simp [DslToken.isFinal, htype]

theorem IsWord.zero_not_mem {word : Bytes} (h : IsWord word) : 0 ∉ word :=
  fun hmem => absurd (h.chars 0 hmem) (by decide)

theorem zero_not_mem_spaced {words : List Bytes} (h : ∀ word ∈ words, 0 ∉ word) : 0 ∉ spaced words := by
  unfold spaced
  induction words with
  | nil => simp
  | cons word words ih =>
    have hwords := List.forall_mem_cons.mp h
    cases words with
    | nil =>
      rw [List.intercalate_singleton]
      exact hwords.1
    | cons word' words =>
      rw [List.intercalate_cons_cons, List.mem_append, List.mem_append, not_or, not_or]
      exact ⟨⟨hwords.1, by decide⟩, ih hwords.2⟩

end HttpRuntime
