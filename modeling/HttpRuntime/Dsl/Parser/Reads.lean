import HttpRuntime.Dsl.Lexer.Lemmas
import HttpRuntime.Dsl.Parser.Progress

/-!
This module contains the state of a parser as the tokens that it has not consumed.
-/

open Lib

namespace HttpRuntime

namespace DslParser

def tokens (parser : DslParser) : List DslToken :=
  match parser.current with
  | none => []
  | some token => token :: if token.isFinal = true then [] else dslLexerGetTokens parser.lexer

/-- The error flag is set if and only if the next token is an error, as long as all went well. -/
structure Reads (parser : DslParser) (ts : List DslToken) : Prop where
  tokens_eq : parser.tokens = ts
  ne_nil : ts ≠ []
  valid : ∀ token ∈ ts, token.Valid
  hadError : parser.hadError = true ↔ ∃ token ∈ ts.head?, token.type = .error

variable {parser : DslParser} {t : DslToken} {ts : List DslToken}

theorem advance_tokens (parser : DslParser) : parser.advance.tokens = dslLexerGetTokens parser.lexer := by
  unfold tokens
  rw [advance_current, advance_lexer]
  exact (dslLexerGetTokens_eq parser.lexer).symm

theorem advance_hadError (parser : DslParser)
    : parser.advance.hadError = true ↔
        parser.hadError = true ∨ (dslLexerNextToken parser.lexer).1.type = .error := by
  unfold advance
  dsimp only
  split
  . next h => simp [h]
  . next h => simp [h]

theorem Reads.current (h : parser.Reads (t :: ts)) : parser.current = some t := by
  have htokens := h.tokens_eq
  unfold tokens at htokens
  split at htokens
  . cases htokens
  . next token hcurrent =>
    rw [hcurrent, (List.cons.inj htokens).1]

theorem Reads.check (h : parser.Reads (t :: ts)) (type : DslTokenType)
    : parser.check type = decide (t.type = type) := by
  unfold DslParser.check
  rw [h.current]

theorem Reads.final (h : parser.Reads (t :: ts)) (hfinal : t.isFinal = true) : ts = [] := by
  have htokens := h.tokens_eq
  unfold tokens at htokens
  rw [h.current] at htokens
  dsimp only at htokens
  rw [if_pos hfinal] at htokens
  exact (List.cons.inj htokens).2.symm

theorem Reads.advance (h : parser.Reads (t :: ts)) (hfinal : t.isFinal = false)
    : parser.advance.Reads ts ∧ parser.advance.previous = some t := by
  have htail : dslLexerGetTokens parser.lexer = ts := by
    have htokens := h.tokens_eq
    unfold tokens at htokens
    rw [h.current] at htokens
    dsimp only at htokens
    rw [if_neg (by simp [hfinal])] at htokens
    exact (List.cons.inj htokens).2
  have hnoError : ¬ parser.hadError = true := by
    rw [h.hadError]
    rintro ⟨token, htoken, herror⟩
    rw [List.head?_cons, Option.mem_some_iff] at htoken
    rw [← htoken] at herror
    simp [DslToken.isFinal, herror] at hfinal
  refine ⟨⟨?_, ?_, ?_, ?_⟩, ?_⟩
  . rw [advance_tokens, htail]
  . rw [← htail, dslLexerGetTokens_eq]
    simp
  . intro token htoken
    exact h.valid token (List.mem_cons_of_mem _ htoken)
  . rw [advance_hadError, or_iff_right hnoError, ← htail, dslLexerGetTokens_eq]
    simp
  . rw [advance_previous, h.current]

theorem Reads.exists_cons (h : parser.Reads ts) : ∃ t ts', ts = t :: ts' := by
  cases ts with
  | nil => exact absurd rfl h.ne_nil
  | cons t ts' => exact ⟨t, ts', rfl⟩

theorem isFinal_of_inner (h : Inner t.type) : t.isFinal = false := by
  simp [DslToken.isFinal, h.1, h.2]

theorem Reads.consume_eq {type : DslTokenType} (h : parser.Reads (t :: ts)) (message : String)
    (htype : t.type = type)
    : parser.consume type message = (parser.advance, true) := by
  unfold consume
  rw [h.check, if_pos (by simp [htype])]

theorem Reads.consume_ne {type : DslTokenType} (h : parser.Reads (t :: ts)) (message : String)
    (htype : t.type ≠ type)
    : parser.consume type message = (parser.parserError message, false) := by
  unfold consume
  rw [h.check, if_neg (by simp [htype])]

theorem Reads.previousStr (h : parser.Reads (t :: ts)) (hinner : Inner t.type)
    : ∃ str, t.str = some str ∧ 0 ∉ str ∧ (t.type = .int → ∀ c ∈ str, isdigit c = true) ∧
        parser.advance.previousStr = some str := by
  rcases h.valid t List.mem_cons_self hinner.1 with ⟨str, hstr, hzero, hdigits⟩
  refine ⟨str, hstr, hzero, hdigits, ?_⟩
  unfold DslParser.previousStr
  rw [(h.advance (isFinal_of_inner hinner)).2]
  exact hstr

theorem dslParserCreate_reads (source : Bytes) (error : Option DslParseError)
    : (dslParserCreate source error).Reads (dslLexerGetTokens (dslCreateLexer source)) := by
  unfold dslParserCreate
  dsimp only
  refine ⟨?_, ?_, ?_, ?_⟩
  . rw [advance_tokens]
  . rw [dslLexerGetTokens_eq]
    simp
  . exact valid_dslLexerGetTokens _
  . rw [advance_hadError, dslLexerGetTokens_eq]
    simp

end DslParser

end HttpRuntime
