import HttpRuntime.Core.HeaderLines
import HttpRuntime.Dsl.Lexer.Lemmas

/-!
This module contains the other direction: the bytes that are written for a token are read as this
token, if nothing that could be a part of it stands behind them.
-/

open Lib

namespace HttpRuntime

/-- The lexer is in front of the bytes, and not behind a `BODY`. -/
structure DslLexer.Ahead (lexer : DslLexer) (bytes : Bytes) : Prop where
  rest : lexer.rest = bytes
  plain : lexer.readBodyRawNext = false

theorem dslCreateLexer_ahead {source : Bytes} (h : 0 ∉ source)
    : (dslCreateLexer source).Ahead source := by
  refine ⟨?_, rfl⟩
  unfold DslLexer.rest dslCreateLexer
  rw [cstring_eq_self (fun c hc heq => h (heq ▸ hc))]
  rfl

-- What may stand behind a token.
def Separated (bytes : Bytes) : Prop := ∀ c ∈ bytes.head?, c = 32 ∨ c = 10

/-- The chunk is read as one token, whatever stands behind it. -/
def LexesTo (chunk : Bytes) (type : DslTokenType) (str : Bytes) : Prop :=
  ∀ lexer rest, DslLexer.Ahead lexer (chunk ++ rest) → Separated rest →
    (dslLexerNextToken lexer).1.type = type ∧ (dslLexerNextToken lexer).1.str = some str ∧
      (dslLexerNextToken lexer).2.Ahead rest

/-- A word starts like an identifier and goes on like one. -/
structure IsWord (word : Bytes) : Prop where
  start : ∃ c ∈ word.head?, isIdentStart c = true
  chars : ∀ c ∈ word, isIdentChar c = true

theorem isWord_iff {word : Bytes}
    : (word.head?.any isIdentStart && word.all isIdentChar) = true ↔ IsWord word := by
  rw [Bool.and_eq_true, Option.any_eq_true, List.all_eq_true]
  exact ⟨fun h => ⟨h.1, h.2⟩, fun h => ⟨h.start, h.chars⟩⟩

instance (word : Bytes) : Decidable (IsWord word) := decidable_of_iff _ isWord_iff

namespace DslLexer

variable {p : UInt8 → Bool} {hp : p 0 = false} {lexer : DslLexer} {run rest : Bytes}

theorem Ahead.peek {c : UInt8} (h : lexer.Ahead (c :: rest)) : lexer.peek = c := by
  rw [peek_eq, h.rest]
  rfl

theorem Ahead.advance {c : UInt8} (h : lexer.Ahead (c :: rest)) : lexer.advance.Ahead rest := by
  constructor
  . rw [rest_advance, h.rest, List.tail_cons]
  . rw [advance_readBodyRawNext]
    exact h.plain

theorem dropWhile_run (hrun : ∀ c ∈ run, p c = true) (hrest : ∀ c ∈ rest.head?, p c = false)
    : (run ++ rest).dropWhile p = rest ∧ (run ++ rest).takeWhile p = run := by
  rw [List.dropWhile_append_of_pos hrun, List.takeWhile_append_of_pos hrun]
  cases rest with
  | nil => simp
  | cons c rest =>
    have hc : ¬ p c = true := by
      rw [hrest c (by simp)]
      decide
    rw [List.dropWhile_cons_of_neg hc, List.takeWhile_cons_of_neg hc, List.append_nil]
    exact ⟨rfl, rfl⟩

theorem Ahead.advanceWhile (h : lexer.Ahead (run ++ rest)) (hrun : ∀ c ∈ run, p c = true)
    (hrest : ∀ c ∈ rest.head?, p c = false)
    : (lexer.advanceWhile p hp).Ahead rest ∧
        dslStrndup (lexer.input.drop lexer.pos) ((lexer.advanceWhile p hp).pos - lexer.pos) = run := by
  have hsplit := dropWhile_run hrun hrest
  refine ⟨⟨?_, ?_⟩, ?_⟩
  . rw [(rest_advanceWhile lexer).1, h.rest]
    exact hsplit.1
  . rw [advanceWhile_readBodyRawNext]
    exact h.plain
  . rw [text_advanceWhile, h.rest]
    exact hsplit.2

theorem Ahead.skipSpacesAndTabs (h : lexer.Ahead (run ++ rest)) (hrun : ∀ c ∈ run, c = 32)
    (hrest : ∀ c ∈ rest.head?, c ≠ 32 ∧ c ≠ 9 ∧ c ≠ 13) : lexer.skipSpacesAndTabs.Ahead rest := by
  have hblank : ∀ c ∈ run, (c == 32 || c == 9 || c == 13) = true := by
    intro c hc
    rw [hrun c hc]
    decide
  apply (h.advanceWhile hblank _).1
  intro c hc
  simpa [and_assoc] using hrest c hc

end DslLexer

section Scanners

open DslLexer

variable {lexer start : DslLexer} {rest : Bytes} {c : UInt8}

-- The first byte of the next token, where the search for it ends.
structure DslLexer.Starts (lexer start : DslLexer) (c : UInt8) : Prop where
  skip : lexer.skipSpacesAndTabs = start
  plain : ¬ start.readBodyRawNext = true
  peek : start.peek = c

theorem DslLexer.Ahead.starts {run : Bytes} (h : lexer.Ahead (run ++ c :: rest)) (hrun : ∀ c ∈ run, c = 32)
    (hc : c ≠ 32 ∧ c ≠ 9 ∧ c ≠ 13)
    : ∃ start, lexer.Starts start c ∧ start.Ahead (c :: rest) := by
  have hstart := h.skipSpacesAndTabs hrun (by simpa using hc)
  refine ⟨_, ⟨rfl, ?_, hstart.peek⟩, hstart⟩
  rw [hstart.plain]
  decide

theorem dslLexerNextToken_newline (h : lexer.Starts start 10)
    : dslLexerNextToken lexer =
        (⟨.newline, some (ascii "\\n"), start.line, start.column⟩, start.advance) := by
  unfold dslLexerNextToken
  dsimp only
  rw [h.skip, h.peek, if_neg h.plain, if_neg (by decide), if_pos rfl]

theorem dslLexerNextToken_string (h : lexer.Starts start 34)
    : dslLexerNextToken lexer = start.scanString := by
  unfold dslLexerNextToken
  dsimp only
  rw [h.skip, h.peek, if_neg h.plain, if_neg (by decide), if_neg (by decide), if_pos rfl]

theorem dslLexerNextToken_number (h : lexer.Starts start c) (hc : isdigit c = true)
    : dslLexerNextToken lexer = start.scanNumber := by
  have hzero : c ≠ 0 := by grind [isdigit]
  have hnewline : c ≠ 10 := by grind [isdigit]
  have hquote : c ≠ 34 := by grind [isdigit]
  unfold dslLexerNextToken
  dsimp only
  rw [h.skip, h.peek, if_neg h.plain, if_neg hzero, if_neg hnewline, if_neg hquote, if_pos hc]

theorem dslLexerNextToken_identifier (h : lexer.Starts start c) (hc : isIdentStart c = true)
    : dslLexerNextToken lexer = start.scanIdentifier := by
  have hzero : c ≠ 0 := by grind [isIdentStart, isalpha]
  have hnewline : c ≠ 10 := by grind [isIdentStart, isalpha]
  have hquote : c ≠ 34 := by grind [isIdentStart, isalpha]
  have hdigit : ¬ isdigit c = true := by grind [isIdentStart, isalpha, isdigit]
  unfold dslLexerNextToken
  dsimp only
  rw [h.skip, h.peek, if_neg h.plain, if_neg hzero, if_neg hnewline, if_neg hquote, if_neg hdigit,
    if_pos hc]

theorem dslLexerNextToken_eof (h : lexer.Ahead [])
    : (dslLexerNextToken lexer).1.type = .eof := by
  have hstart := @DslLexer.Ahead.skipSpacesAndTabs lexer [] [] h (by simp) (by simp)
  have hpeek := peek_eq_zero_iff.mpr hstart.rest
  unfold dslLexerNextToken
  dsimp only
  rw [hpeek, hstart.plain, if_neg (by decide), if_pos rfl]

theorem lexesTo_word {run word : Bytes} (hrun : ∀ c ∈ run, c = 32) (hword : IsWord word)
    (htype : keywordType word ≠ .bodyStmt) : LexesTo (run ++ word) (keywordType word) word := by
  intro lexer rest h hrest
  obtain ⟨c, hc, hstartChar⟩ := hword.start
  cases word with
  | nil => cases hc
  | cons c' word =>
    cases hc
    rw [List.append_assoc] at h
    have hblank : c ≠ 32 ∧ c ≠ 9 ∧ c ≠ 13 := by grind [isIdentStart, isalpha]
    obtain ⟨start, hstarts, hstart⟩ := h.starts hrun hblank
    rw [dslLexerNextToken_identifier hstarts hstartChar]
    have hstop : ∀ c ∈ rest.head?, isIdentChar c = false := by
      intro c hc
      cases hrest c hc with
      | inl heq => rw [heq]; decide
      | inr heq => rw [heq]; decide
    have hscan := @DslLexer.Ahead.advanceWhile isIdentChar (by decide) _ _ _ hstart hword.chars hstop
    unfold scanIdentifier
    dsimp only
    rw [hscan.2, if_neg htype]
    exact ⟨rfl, rfl, hscan.1⟩

theorem lexesTo_digits {run digits : Bytes} (hrun : ∀ c ∈ run, c = 32) (hne : digits ≠ [])
    (hdigits : ∀ c ∈ digits, isdigit c = true) : LexesTo (run ++ digits) .int digits := by
  intro lexer rest h hrest
  cases digits with
  | nil => exact absurd rfl hne
  | cons c digits =>
    rw [List.append_assoc] at h
    have hc := hdigits c List.mem_cons_self
    have hblank : c ≠ 32 ∧ c ≠ 9 ∧ c ≠ 13 := by grind [isdigit]
    obtain ⟨start, hstarts, hstart⟩ := h.starts hrun hblank
    rw [dslLexerNextToken_number hstarts hc]
    have hstop : ∀ c ∈ rest.head?, isdigit c = false := by
      intro c hc
      cases hrest c hc with
      | inl heq => rw [heq]; decide
      | inr heq => rw [heq]; decide
    have hscan := @DslLexer.Ahead.advanceWhile isdigit (by decide) _ _ _ hstart hdigits hstop
    unfold scanNumber
    dsimp only
    rw [hscan.2]
    exact ⟨rfl, rfl, hscan.1⟩

-- What can stand between quotes.
def Quotable (text : Bytes) : Prop := ∀ c ∈ text, c ≠ 34 ∧ c ≠ 0 ∧ c ≠ 10

instance (text : Bytes) : Decidable (Quotable text) := List.decidableBAll _ _

def quote (text : Bytes) : Bytes := [34] ++ text ++ [34]

theorem lexesTo_string {run text : Bytes} (hrun : ∀ c ∈ run, c = 32) (htext : Quotable text)
    : LexesTo (run ++ quote text) .string text := by
  intro lexer rest h hrest
  have happend : run ++ quote text ++ rest = run ++ 34 :: (text ++ 34 :: rest) := by
    simp [quote]
  rw [happend] at h
  obtain ⟨start, hstarts, hstart⟩ := h.starts hrun (by decide)
  rw [dslLexerNextToken_string hstarts]
  have hin : ∀ c ∈ text, (c != 34 && c != 0 && c != 10) = true := by
    intro c hc
    simpa [and_assoc] using htext c hc
  have hscan := @DslLexer.Ahead.advanceWhile (fun c => c != 34 && c != 0 && c != 10) rfl _ _ _
    hstart.advance hin (by simp)
  rw [advance_input] at hscan
  unfold scanString
  dsimp only
  rw [if_neg (by rw [hscan.1.peek]; decide), hscan.2]
  exact ⟨rfl, rfl, hscan.1.advance⟩

theorem isWord_of_ident {lexer : DslLexer} {word : Bytes}
    (htype : (dslLexerNextToken lexer).1.type = .ident)
    (hstr : (dslLexerNextToken lexer).1.str = some word)
    : IsWord word ∧ keywordType word = .ident := by
  fun_induction dslLexerNextToken lexer with
  | case1 => cases htype
  | case2 => cases htype
  | case3 => cases htype
  | case4 lexer start c hraw hc hnewline hquote =>
    unfold scanString at htype
    dsimp only at htype
    split at htype
    . cases htype
    . cases htype
  | case5 => cases htype
  | case6 lexer start c hraw hc hnewline hquote hdigit hident =>
    unfold scanIdentifier at htype hstr
    dsimp only at htype hstr
    rw [text_advanceWhile] at htype hstr
    rw [Option.some.injEq] at hstr
    rw [hstr] at htype
    refine ⟨⟨?_, ?_⟩, htype⟩
    . have hpeek := peek_eq start
      cases hrest : start.rest with
      | nil => exact absurd (peek_eq_zero_iff.mpr hrest) hc
      | cons c' rest =>
        rw [hrest, List.headD_cons] at hpeek
        have hstart : isIdentStart c' = true := hpeek ▸ hident
        rw [hrest, List.takeWhile_cons_of_pos (isIdentChar_of_isIdentStart hstart)] at hstr
        rw [← hstr]
        exact ⟨c', rfl, hstart⟩
    . rw [← hstr]
      intro c' hc'
      exact List.mem_takeWhile_imp hc'
  | case7 lexer start c hraw hc hnewline hquote hdigit hident hcomment ih => exact ih htype hstr
  | case8 => cases htype

end Scanners

end HttpRuntime
