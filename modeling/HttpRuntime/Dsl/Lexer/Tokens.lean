import HttpRuntime.Dsl.Lexer.Basic

/-!
This module contains the token stream of a source. It ends because a token uses up a part of the
source, or it is the raw body that a `BODY` asks for.
-/

open Lib

namespace HttpRuntime

theorem isIdentChar_of_isIdentStart {c : UInt8} (h : isIdentStart c = true) : isIdentChar c = true := by
  grind [isIdentStart, isIdentChar, isalnum]

namespace DslLexer

variable {p : UInt8 → Bool} {hp : p 0 = false} {lexer : DslLexer}

@[simp]
theorem advance_readBodyRawNext (lexer : DslLexer)
    : lexer.advance.readBodyRawNext = lexer.readBodyRawNext := by
  unfold advance
  split <;> rfl

@[simp]
theorem advance_input (lexer : DslLexer) : lexer.advance.input = lexer.input := by
  unfold advance
  split <;> rfl

@[simp]
theorem advanceWhile_readBodyRawNext (lexer : DslLexer)
    : (lexer.advanceWhile p hp).readBodyRawNext = lexer.readBodyRawNext := by
  fun_induction advanceWhile p hp lexer with
  | case1 lexer h ih => rw [ih, advance_readBodyRawNext]
  | case2 => rfl

@[simp]
theorem advanceWhile_input (lexer : DslLexer) : (lexer.advanceWhile p hp).input = lexer.input := by
  fun_induction advanceWhile p hp lexer with
  | case1 lexer h ih => rw [ih, advance_input]
  | case2 => rfl

def fuel (lexer : DslLexer) : Nat :=
  2 * (lexer.len - lexer.pos) + lexer.readBodyRawNext.toNat

theorem fuel_lt_of_pos_lt {next : DslLexer} (hlen : next.len = lexer.len)
    (hpos : lexer.pos < next.pos) : next.fuel < lexer.fuel := by
  have := next.pos_le
  have := Bool.toNat_le next.readBodyRawNext
  unfold fuel
  omega

theorem fuel_skipSpacesAndTabs_le (lexer : DslLexer) : lexer.skipSpacesAndTabs.fuel ≤ lexer.fuel := by
  have hpos : lexer.pos ≤ lexer.skipSpacesAndTabs.pos := pos_le_advanceWhile _ _ lexer
  unfold fuel skipSpacesAndTabs at *
  rw [advanceWhile_len, advanceWhile_readBodyRawNext]
  omega

theorem fuel_skipComment_le (lexer : DslLexer) : lexer.skipComment.fuel ≤ lexer.fuel := by
  have hpos : lexer.pos ≤ lexer.skipComment.pos := pos_le_advanceWhile _ _ lexer
  unfold fuel skipComment at *
  rw [advanceWhile_len, advanceWhile_readBodyRawNext]
  omega

theorem fuel_advance_lt (h : lexer.peek ≠ 0) : lexer.advance.fuel < lexer.fuel := by
  apply fuel_lt_of_pos_lt
  . exact advance_len lexer
  . rw [advance_pos h]
    omega

theorem fuel_scanNumber_lt (h : isdigit lexer.peek = true) : lexer.scanNumber.2.fuel < lexer.fuel := by
  apply fuel_lt_of_pos_lt
  . exact advanceWhile_len lexer
  . exact pos_lt_advanceWhile _ h

theorem fuel_scanIdentifier_lt (h : isIdentStart lexer.peek = true)
    : lexer.scanIdentifier.2.fuel < lexer.fuel := by
  have hpos := pos_lt_advanceWhile (by decide) (isIdentChar_of_isIdentStart h)
  apply fuel_lt_of_pos_lt
  . unfold scanIdentifier
    dsimp only
    split <;> exact advanceWhile_len lexer
  . unfold scanIdentifier
    dsimp only
    split <;> exact hpos

theorem fuel_scanString_lt (h : lexer.peek = 34) : lexer.scanString.2.fuel < lexer.fuel := by
  have hpeek : lexer.peek ≠ 0 := by
    rw [h]
    decide
  have hopened := advance_pos hpeek
  have hnext := pos_le_advanceWhile (fun c => c != 34 && c != 0 && c != 10) rfl lexer.advance
  apply fuel_lt_of_pos_lt
  . unfold scanString
    dsimp only
    split <;> simp
  . unfold scanString
    dsimp only
    split
    . dsimp only
      omega
    . have := pos_le_advance (lexer.advance.advanceWhile (fun c => c != 34 && c != 0 && c != 10) rfl)
      dsimp only
      omega

theorem fuel_scanBodyRaw_le (lexer : DslLexer) : lexer.scanBodyRaw.2.fuel ≤ lexer.fuel := by
  have hstart := pos_le_advanceWhile (fun c => c == 32 || c == 9) rfl lexer
  have hnext := pos_le_advanceWhile (fun c => c != 0 && c != 10 && c != 13) rfl
    (lexer.advanceWhile (fun c => c == 32 || c == 9) rfl)
  unfold fuel scanBodyRaw
  simp only [advanceWhile_len, advanceWhile_readBodyRawNext]
  omega

end DslLexer

def DslToken.isFinal (token : DslToken) : Bool :=
  token.type = .eof || token.type = .error

theorem fuel_dslLexerNextToken_lt {lexer : DslLexer}
    (h : (dslLexerNextToken lexer).1.isFinal = false)
    : (dslLexerNextToken lexer).2.fuel < lexer.fuel := by
  fun_induction dslLexerNextToken lexer with
  | case1 lexer start hraw =>
    have hstart := lexer.fuel_skipSpacesAndTabs_le
    have hscan := { start with readBodyRawNext := false }.fuel_scanBodyRaw_le
    have hflag : { start with readBodyRawNext := false }.fuel < start.fuel := by
      simp [DslLexer.fuel, hraw]
    exact Nat.lt_of_le_of_lt hscan (Nat.lt_of_lt_of_le hflag hstart)
  | case2 lexer start c hraw hc => cases h
  | case3 lexer start c hraw hc hnewline =>
    exact Nat.lt_of_lt_of_le (DslLexer.fuel_advance_lt hc) lexer.fuel_skipSpacesAndTabs_le
  | case4 lexer start c hraw hc hnewline hquote =>
    exact Nat.lt_of_lt_of_le (DslLexer.fuel_scanString_lt hquote) lexer.fuel_skipSpacesAndTabs_le
  | case5 lexer start c hraw hc hnewline hquote hdigit =>
    exact Nat.lt_of_lt_of_le (DslLexer.fuel_scanNumber_lt hdigit) lexer.fuel_skipSpacesAndTabs_le
  | case6 lexer start c hraw hc hnewline hquote hdigit hident =>
    exact Nat.lt_of_lt_of_le (DslLexer.fuel_scanIdentifier_lt hident) lexer.fuel_skipSpacesAndTabs_le
  | case7 lexer start c hraw hc hnewline hquote hdigit hident hcomment ih =>
    have hstart := lexer.fuel_skipSpacesAndTabs_le
    have hskip := start.fuel_skipComment_le
    exact Nat.lt_of_lt_of_le (ih h) (Nat.le_trans hskip hstart)
  | case8 lexer start c hraw hc hnewline hquote hdigit hident hcomment msg => cases h

def dslLexerGetTokens (lexer : DslLexer) : List DslToken :=
  if _h : (dslLexerNextToken lexer).1.isFinal = true then
    [(dslLexerNextToken lexer).1]
  else
    (dslLexerNextToken lexer).1 :: dslLexerGetTokens (dslLexerNextToken lexer).2
termination_by lexer.fuel
decreasing_by
  apply fuel_dslLexerNextToken_lt
  simpa using _h

theorem dslLexerGetTokens_eq (lexer : DslLexer)
    : dslLexerGetTokens lexer =
        (dslLexerNextToken lexer).1 ::
          if (dslLexerNextToken lexer).1.isFinal = true then []
          else dslLexerGetTokens (dslLexerNextToken lexer).2 := by
  conv => lhs; unfold dslLexerGetTokens
  split <;> rfl

end HttpRuntime
