import HttpRuntime.Core.Assertion
import HttpRuntime.Dsl.Lexer.Tokens
import Mathlib.Data.List.TakeWhile

/-!
This module contains what the text of a token is: the bytes that a loop of the scanner passed over.
-/

open Lib

namespace HttpRuntime

namespace DslLexer

variable {p : UInt8 → Bool} {hp : p 0 = false} {lexer : DslLexer}

def rest (lexer : DslLexer) : Bytes := (cstring lexer.input).drop lexer.pos

theorem take_strlen (s : Bytes) : s.take (strlen s) = cstring s := by
  unfold strlen cstring
  exact (List.prefix_iff_eq_take.mp (List.takeWhile_prefix _)).symm

theorem zero_not_mem_rest (lexer : DslLexer) : 0 ∉ lexer.rest := by
  intro h
  have hmem := List.mem_takeWhile_imp (List.mem_of_mem_drop h)
  simp at hmem

theorem peek_eq (lexer : DslLexer) : lexer.peek = lexer.rest.headD 0 := by
  have hlen : (cstring lexer.input).length = lexer.len := lexer.len_eq.symm
  unfold peek rest
  split
  . next h =>
    rw [List.drop_eq_nil_of_le (by omega)]
    rfl
  . next h =>
    have hlt : lexer.pos < (cstring lexer.input).length := by omega
    rw [List.drop_eq_getElem_cons hlt, List.headD_cons]
    have htake : (cstring lexer.input)[lexer.pos]? = lexer.input[lexer.pos]? := by
      rw [← take_strlen, List.getElem?_take_of_lt]
      rw [← lexer.len_eq]
      omega
    rw [List.getElem?_eq_getElem hlt] at htake
    rw [List.getD_eq_getElem?_getD, ← htake]
    rfl

theorem peek_eq_zero_iff : lexer.peek = 0 ↔ lexer.rest = [] := by
  rw [peek_eq]
  cases h : lexer.rest with
  | nil => simp
  | cons c cs =>
    have hzero := lexer.zero_not_mem_rest
    rw [h, List.mem_cons, not_or] at hzero
    simp only [List.headD_cons, reduceCtorEq, iff_false]
    exact fun heq => hzero.1 heq.symm

theorem rest_advance (lexer : DslLexer) : lexer.advance.rest = lexer.rest.tail := by
  unfold rest
  rw [advance_input]
  by_cases h : lexer.peek = 0
  . have hrest := peek_eq_zero_iff.mp h
    unfold rest at hrest
    unfold advance
    rw [dif_pos h, hrest]
    rfl
  . rw [advance_pos h, List.tail_drop]

theorem rest_advanceWhile (lexer : DslLexer)
    : (lexer.advanceWhile p hp).rest = lexer.rest.dropWhile p ∧
        (lexer.advanceWhile p hp).pos = lexer.pos + (lexer.rest.takeWhile p).length := by
  fun_induction advanceWhile p hp lexer with
  | case1 lexer h ih =>
    cases hrest : lexer.rest with
    | nil =>
      rw [peek_eq_zero_iff.mpr hrest, hp] at h
      cases h
    | cons c cs =>
      have hpeek : lexer.peek ≠ 0 := by
        rw [ne_eq, peek_eq_zero_iff, hrest]
        simp
      have hc : p c = true := by
        rw [peek_eq, hrest] at h
        exact h
      rw [rest_advance, hrest, advance_pos hpeek] at ih
      rw [List.dropWhile_cons_of_pos hc, List.takeWhile_cons_of_pos hc, List.length_cons]
      refine ⟨ih.1, ?_⟩
      rw [ih.2]
      simp only [List.tail_cons]
      omega
  | case2 lexer h =>
    rw [peek_eq] at h
    cases hrest : lexer.rest with
    | nil => simp
    | cons c cs =>
      rw [hrest, List.headD_cons] at h
      rw [List.dropWhile_cons_of_neg h, List.takeWhile_cons_of_neg h]
      simp

theorem text_advanceWhile (p : UInt8 → Bool) (hp : p 0 = false) (lexer : DslLexer)
    : dslStrndup (lexer.input.drop lexer.pos) ((lexer.advanceWhile p hp).pos - lexer.pos) =
        lexer.rest.takeWhile p := by
  have hrest : lexer.rest <+: lexer.input.drop lexer.pos := by
    unfold rest
    rw [← take_strlen, List.drop_take]
    exact List.take_prefix _ _
  have hprefix := (List.takeWhile_prefix p).trans hrest
  unfold dslStrndup
  rw [(rest_advanceWhile lexer).2, Nat.add_sub_cancel_left]
  exact (List.prefix_iff_eq_take.mp hprefix).symm

theorem zero_not_mem_takeWhile_rest : 0 ∉ lexer.rest.takeWhile p :=
  fun h => lexer.zero_not_mem_rest ((List.takeWhile_prefix p).subset h)

end DslLexer

theorem ite_ne {c : Prop} [Decidable c] {a b type : DslTokenType} (ha : a ≠ type) (hb : b ≠ type)
    : (if c then a else b) ≠ type := by
  split
  . exact ha
  . exact hb

theorem keywordType_ne {type : DslTokenType} (word : Bytes)
    (h : type ∈ [DslTokenType.eof, .error, .newline, .int, .string, .bodyRaw])
    : keywordType word ≠ type := by
  unfold keywordType
  -- `split` would simplify all of the words again at each of them.
  repeat' apply ite_ne
  all_goals
    intro heq
    rw [← heq] at h
    revert h
    decide

/-- What a token says besides its type: a text without a terminator, and digits where it is a number. -/
def DslToken.Valid (token : DslToken) : Prop :=
  token.type ≠ .eof →
    ∃ str, token.str = some str ∧ 0 ∉ str ∧ (token.type = .int → ∀ c ∈ str, isdigit c = true)

theorem valid_scanNumber (lexer : DslLexer) : lexer.scanNumber.1.Valid := by
  intro _
  have htext := lexer.text_advanceWhile isdigit (by decide)
  refine ⟨_, rfl, ?_, ?_⟩
  . rw [htext]
    exact DslLexer.zero_not_mem_takeWhile_rest
  . intro _ c hc
    rw [htext] at hc
    exact List.mem_takeWhile_imp hc

theorem valid_scanIdentifier (lexer : DslLexer) : lexer.scanIdentifier.1.Valid := by
  intro _
  have htext := lexer.text_advanceWhile isIdentChar (by decide)
  refine ⟨_, rfl, ?_, ?_⟩
  . rw [htext]
    exact DslLexer.zero_not_mem_takeWhile_rest
  . intro htype
    exact absurd htype (keywordType_ne _ (by decide))

theorem valid_scanString (lexer : DslLexer) : lexer.scanString.1.Valid := by
  have htext := lexer.advance.text_advanceWhile (fun c => c != 34 && c != 0 && c != 10) rfl
  rw [DslLexer.advance_input] at htext
  intro _
  unfold DslLexer.scanString
  dsimp only
  split
  . exact ⟨_, rfl, by decide, by simp⟩
  . refine ⟨_, rfl, ?_, by simp⟩
    rw [htext]
    exact DslLexer.zero_not_mem_takeWhile_rest

theorem valid_scanBodyRaw (lexer : DslLexer) : lexer.scanBodyRaw.1.Valid := by
  have htext := (lexer.advanceWhile (fun c => c == 32 || c == 9) rfl).text_advanceWhile
    (fun c => c != 0 && c != 10 && c != 13) rfl
  rw [DslLexer.advanceWhile_input] at htext
  intro _
  refine ⟨_, rfl, ?_, by simp [DslLexer.scanBodyRaw]⟩
  rw [htext, List.mem_reverse]
  intro h
  have hmem := (List.dropWhile_suffix _).subset h
  rw [List.mem_reverse] at hmem
  exact DslLexer.zero_not_mem_takeWhile_rest hmem

theorem valid_dslLexerNextToken (lexer : DslLexer) : (dslLexerNextToken lexer).1.Valid := by
  fun_induction dslLexerNextToken lexer with
  | case1 lexer start hraw => exact valid_scanBodyRaw _
  | case2 lexer start c hraw hc => exact fun h => absurd rfl h
  | case3 lexer start c hraw hc hnewline => exact fun _ => ⟨_, rfl, by decide, by simp⟩
  | case4 lexer start c hraw hc hnewline hquote => exact valid_scanString _
  | case5 lexer start c hraw hc hnewline hquote hdigit => exact valid_scanNumber _
  | case6 lexer start c hraw hc hnewline hquote hdigit hident => exact valid_scanIdentifier _
  | case7 lexer start c hraw hc hnewline hquote hdigit hident hcomment ih => exact ih
  | case8 lexer start c hraw hc hnewline hquote hdigit hident hcomment msg =>
    intro _
    refine ⟨_, rfl, ?_, by simp⟩
    have hmessage : 0 ∉ ascii "unexpected character '" := by decide
    have hquote : 0 ∉ ascii "'" := by decide
    simp only [msg, List.mem_append, List.mem_singleton, not_or]
    exact ⟨⟨hmessage, fun heq => hc heq.symm⟩, hquote⟩

theorem valid_dslLexerGetTokens (lexer : DslLexer) : ∀ token ∈ dslLexerGetTokens lexer, token.Valid := by
  fun_induction dslLexerGetTokens lexer with
  | case1 lexer h =>
    intro token htoken
    rw [List.mem_singleton] at htoken
    rw [htoken]
    exact valid_dslLexerNextToken lexer
  | case2 lexer h ih =>
    intro token htoken
    rw [List.mem_cons] at htoken
    cases htoken with
    | inl htoken =>
      rw [htoken]
      exact valid_dslLexerNextToken lexer
    | inr htoken => exact ih token htoken

end HttpRuntime
