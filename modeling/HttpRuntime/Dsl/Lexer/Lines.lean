import HttpRuntime.Dsl.Lexer.Words

/-!
This module contains the lines of the tokens: they follow from the words, since only a newline ends a
line.
-/

open Lib

namespace HttpRuntime

variable {lexer lexer' : DslLexer}

/-- A token without its column. -/
def DslToken.head (t : DslToken) : Word × Nat := (t.word, t.line)

def DslLexer.heads (lexer : DslLexer) : List (Word × Nat) := (dslLexerGetTokens lexer).map DslToken.head

theorem line_advance (h : lexer.peek ≠ 10) : lexer.advance.line = lexer.line := by
  unfold DslLexer.advance
  by_cases hpeek : lexer.peek = 0
  . rw [dif_pos hpeek]
  . rw [dif_neg hpeek, if_neg h]

theorem line_skipSpacesAndTabs (lexer : DslLexer) : lexer.skipSpacesAndTabs.line = lexer.line :=
  DslLexer.advanceWhile_line rfl lexer

theorem line_scanString (h : lexer.peek = 34)
    : lexer.scanString.1.line = lexer.line ∧ lexer.scanString.2.line = lexer.line := by
  have hopened : lexer.advance.line = lexer.line := line_advance (by rw [h]; decide)
  have hnext := @DslLexer.advanceWhile_line (fun c => c != 34 && c != 0 && c != 10) rfl rfl lexer.advance
  unfold DslLexer.scanString
  dsimp only
  generalize lexer.advance.advanceWhile (fun c => c != 34 && c != 0 && c != 10) rfl = next at hnext ⊢
  split
  . exact ⟨rfl, hnext.trans hopened⟩
  . next hclosed =>
    rw [ne_eq, not_not] at hclosed
    refine ⟨rfl, ?_⟩
    dsimp only
    rw [line_advance (by rw [hclosed]; decide), hnext, hopened]

theorem line_scanBodyRaw (lexer : DslLexer)
    : lexer.scanBodyRaw.1.line = lexer.line ∧ lexer.scanBodyRaw.2.line = lexer.line := by
  refine ⟨rfl, ?_⟩
  unfold DslLexer.scanBodyRaw
  dsimp only
  rw [DslLexer.advanceWhile_line rfl, DslLexer.advanceWhile_line rfl]

theorem line_scanIdentifier (lexer : DslLexer)
    : lexer.scanIdentifier.1.line = lexer.line ∧ lexer.scanIdentifier.2.line = lexer.line := by
  refine ⟨rfl, ?_⟩
  have hline := @DslLexer.advanceWhile_line isIdentChar (by decide) (by decide) lexer
  unfold DslLexer.scanIdentifier
  dsimp only
  split
  . exact hline
  . exact hline

/-- The line of a token is that of the lexer, and a newline ends it. -/
structure OnLine (lexer : DslLexer) (res : DslToken × DslLexer) : Prop where
  token : res.1.line = lexer.line
  next : res.1.isFinal = false →
    res.2.line = if res.1.type = .newline then lexer.line + 1 else lexer.line

theorem onLine_of_line {res : DslToken × DslLexer} (htype : res.1.type ≠ .newline)
    (h : res.1.line = lexer.line ∧ res.2.line = lexer.line) : OnLine lexer res where
  token := h.1
  next := fun _ => by rw [if_neg htype, h.2]

theorem dslLexerNextToken_onLine (lexer : DslLexer) : OnLine lexer (dslLexerNextToken lexer) := by
  have hskip := line_skipSpacesAndTabs lexer
  fun_induction dslLexerNextToken lexer with
  | case1 lexer start hraw =>
    have hscan := line_scanBodyRaw { start with readBodyRawNext := false }
    exact onLine_of_line (by intro h; cases h) ⟨hscan.1.trans hskip, hscan.2.trans hskip⟩
  | case2 lexer start c hraw hc => exact ⟨hskip, fun hfinal => by cases hfinal⟩
  | case3 lexer start c hraw hc hnewline =>
    have hpeek : start.peek = 10 := hnewline
    refine ⟨hskip, ?_⟩
    intro _
    unfold DslLexer.advance
    rw [dif_neg hc, if_pos rfl]
    dsimp only
    rw [if_pos hpeek, hskip]
  | case4 lexer start c hraw hc hnewline hquote =>
    have hscan := line_scanString hquote
    apply onLine_of_line
    . unfold DslLexer.scanString
      dsimp only
      split
      . intro h; cases h
      . intro h; cases h
    . exact ⟨hscan.1.trans hskip, hscan.2.trans hskip⟩
  | case5 lexer start c hraw hc hnewline hquote hdigit =>
    have hline := @DslLexer.advanceWhile_line isdigit (by decide) (by decide) start
    exact onLine_of_line (by intro h; cases h) ⟨hskip, hline.trans hskip⟩
  | case6 lexer start c hraw hc hnewline hquote hdigit hident =>
    have hscan := line_scanIdentifier start
    refine onLine_of_line ?_ ⟨hscan.1.trans hskip, hscan.2.trans hskip⟩
    exact keywordType_ne _ (by decide)
  | case7 lexer start c hraw hc hnewline hquote hdigit hident hcomment ih =>
    have hcomment' : start.skipComment.line = start.line := DslLexer.advanceWhile_line rfl start
    have honLine := ih (line_skipSpacesAndTabs _)
    have hline : start.skipComment.line = lexer.line := hcomment'.trans hskip
    refine ⟨honLine.token.trans hline, ?_⟩
    rw [← hline]
    exact honLine.next
  | case8 lexer start c hraw hc hnewline hquote hdigit hident hcomment msg =>
    exact ⟨hskip, fun hfinal => by cases hfinal⟩

theorem heads_eq (lexer : DslLexer)
    : lexer.heads = (lexer.tape.next.1, lexer.line) ::
        if lexer.tape.next.1.isFinal = true then [] else (dslLexerNextToken lexer).2.heads := by
  obtain ⟨hword, _⟩ := dslLexerNextToken_reads lexer
  have hline := (dslLexerNextToken_onLine lexer).token
  have hfinal : (dslLexerNextToken lexer).1.isFinal = lexer.tape.next.1.isFinal := by
    rw [← hword]
    rfl
  unfold DslLexer.heads
  rw [dslLexerGetTokens_eq, List.map_cons, hfinal]
  unfold DslToken.head
  rw [hword, hline]
  split <;> rfl

/-- The words of a source and the line on which they begin make up their lines. -/
theorem heads_congr (hwords : lexer'.words = lexer.words) (hline : lexer'.line = lexer.line)
    : lexer'.heads = lexer.heads := by
  induction hn : lexer.fuel using Nat.strongRecOn generalizing lexer lexer' with
  | ind n ih =>
    rw [words_eq lexer, words_eq lexer', List.cons.injEq] at hwords
    rw [heads_eq lexer, heads_eq lexer', hwords.1, hline]
    have hrest := hwords.2
    rw [hwords.1] at hrest
    split
    . rfl
    . next hfinal =>
      obtain ⟨hword, _⟩ := dslLexerNextToken_reads lexer
      obtain ⟨hword', _⟩ := dslLexerNextToken_reads lexer'
      rw [if_neg hfinal, if_neg hfinal] at hrest
      have hinner : (dslLexerNextToken lexer).1.isFinal = false := by
        rw [← hword] at hfinal
        exact Bool.eq_false_iff.mpr hfinal
      have hlt : (dslLexerNextToken lexer).2.fuel < n := by
        rw [← hn]
        exact fuel_dslLexerNextToken_lt hinner
      have hsame : (dslLexerNextToken lexer').1.word = (dslLexerNextToken lexer).1.word :=
        (hword'.trans hwords.1).trans hword.symm
      have htype : (dslLexerNextToken lexer').1.type = (dslLexerNextToken lexer).1.type :=
        congrArg Prod.fst hsame
      have hinner' : (dslLexerNextToken lexer').1.isFinal = false := by
        unfold DslToken.isFinal at hinner ⊢
        rw [htype]
        exact hinner
      have hnext : (dslLexerNextToken lexer').2.line = (dslLexerNextToken lexer).2.line := by
        rw [(dslLexerNextToken_onLine lexer).next hinner, (dslLexerNextToken_onLine lexer').next hinner',
          htype, hline]
      rw [ih _ hlt hrest hnext rfl]

end HttpRuntime
