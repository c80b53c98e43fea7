import HttpRuntime.Dsl.Lexer.Spans
import HttpRuntime.Dsl.Parser.Correctness
import HttpRuntime.Dsl.Parser.Diagnosis
import HttpRuntime.Lib.Loop

/-!
This module contains how long lexer and parser run: the restart behind a comment, the loop over the
tokens and the loop over the statements, round for round, and their bounds.
-/

open Lib Lib.Loop

namespace HttpRuntime

section Restart

variable {lexer lexer' : DslLexer}

/-- The body of `dsl_lexer_next_token`. It goes on with the lexer that it calls itself with. -/
def nextTokenRound (lexer : DslLexer) : DslLexer ⊕ (DslToken × DslLexer) :=
  let start := lexer.skipSpacesAndTabs
  let c := start.peek
  if start.readBodyRawNext then
    .inr { start with readBodyRawNext := false }.scanBodyRaw
  else if c = 0 then
    .inr (⟨.eof, none, start.line, start.column⟩, start)
  else if c = 10 then
    .inr (⟨.newline, some (ascii "\\n"), start.line, start.column⟩, start.advance)
  else if c = 34 then
    .inr start.scanString
  else if isdigit c then
    .inr start.scanNumber
  else if isIdentStart c then
    .inr start.scanIdentifier
  else if c = 35 then
    .inl start.skipComment
  else
    let msg := ascii "unexpected character '" ++ [c] ++ ascii "'"
    .inr (⟨.error, some msg, start.line, start.column⟩, start.advance)

theorem dslLexerNextToken_eq_round (lexer : DslLexer)
    : dslLexerNextToken lexer = (nextTokenRound lexer).elim dslLexerNextToken id := by
  conv => lhs; unfold dslLexerNextToken
  unfold nextTokenRound
  dsimp only
  -- Both sides have the same branches, and only the comment goes on.
  iterate 6
    split
    . rfl
  split <;> rfl

-- The last of the branches before the error.
theorem nextTokenRound_restarts (h : nextTokenRound lexer = .inl lexer')
    : lexer' = lexer.skipSpacesAndTabs.skipComment ∧ lexer.skipSpacesAndTabs.readBodyRawNext = false := by
  unfold nextTokenRound at h
  dsimp only at h
  split at h
  . cases h
  next hraw =>
    refine ⟨?_, Bool.eq_false_iff.mpr hraw⟩
    iterate 5
      split at h
      . cases h
    split at h
    . exact (Sum.inl.inj h).symm
    . cases h

theorem peek_skipComment (lexer : DslLexer)
    : lexer.skipComment.peek = 0 ∨ lexer.skipComment.peek = 10 := by
  have hstop := @DslLexer.peek_advanceWhile (fun c => c != 0 && c != 10) rfl lexer
  by_cases hzero : lexer.skipComment.peek = 0
  . exact .inl hzero
  . right
    unfold DslLexer.skipComment at hzero ⊢
    simpa [hzero] using hstop

theorem skipSpacesAndTabs_of_peek (h : lexer.peek = 0 ∨ lexer.peek = 10)
    : lexer.skipSpacesAndTabs = lexer := by
  unfold DslLexer.skipSpacesAndTabs
  rw [DslLexer.advanceWhile, dif_neg]
  cases h with
  | inl h => rw [h]; decide
  | inr h => rw [h]; decide

/-- Behind a comment there is no other one. -/
theorem nextTokenRound_of_restart (h : nextTokenRound lexer = .inl lexer')
    : ∃ res, nextTokenRound lexer' = .inr res := by
  obtain ⟨rfl, hraw⟩ := nextTokenRound_restarts h
  have hpeek := peek_skipComment lexer.skipSpacesAndTabs
  have hflag : lexer.skipSpacesAndTabs.skipComment.readBodyRawNext = false := by
    unfold DslLexer.skipComment
    rw [DslLexer.advanceWhile_readBodyRawNext, hraw]
  unfold nextTokenRound
  dsimp only
  rw [skipSpacesAndTabs_of_peek hpeek, hflag, if_neg (by decide)]
  cases hpeek with
  | inl hpeek =>
    rw [if_pos hpeek]
    exact ⟨_, rfl⟩
  | inr hpeek =>
    rw [if_neg (by rw [hpeek]; decide), if_pos hpeek]
    exact ⟨_, rfl⟩

/-- `dsl_lexer_next_token` calls itself at most once. -/
theorem within_nextTokenRound (lexer : DslLexer)
    : within nextTokenRound 2 lexer = some (dslLexerNextToken lexer) := by
  have hres : ∃ res, within nextTokenRound 2 lexer = some res := by
    cases hround : nextTokenRound lexer with
    | inl lexer' =>
      obtain ⟨res, hres⟩ := nextTokenRound_of_restart hround
      exact ⟨res, (within_goesOn hround 1).trans (within_leaves hres 0)⟩
    | inr res => exact ⟨res, within_leaves hround 1⟩
  obtain ⟨res, hres⟩ := hres
  rw [hres, eq_of_within dslLexerNextToken_eq_round hres]

end Restart

section Tokens

variable {lexer : DslLexer}

-- One round of the loop of `dsl_lexer_get_tokens`, behind the tokens that are there.
def getTokensRound (s : DslLexer × List DslToken) : (DslLexer × List DslToken) ⊕ List DslToken :=
  let res := dslLexerNextToken s.1
  let tokens := s.2 ++ [res.1]
  if res.1.isFinal then .inr tokens else .inl (res.2, tokens)

theorem dslLexerGetTokens_eq_round (s : DslLexer × List DslToken)
    : s.2 ++ dslLexerGetTokens s.1 =
        (getTokensRound s).elim (fun s => s.2 ++ dslLexerGetTokens s.1) id := by
  unfold getTokensRound
  dsimp only
  rw [dslLexerGetTokens_eq]
  split
  . rfl
  . rw [Sum.elim_inl, List.append_assoc]
    rfl

-- How many tokens may come in front of the last one: a `BODY` pays for the raw body behind it.
def DslLexer.tokensLeft (lexer : DslLexer) : Nat :=
  lexer.len - lexer.pos + lexer.readBodyRawNext.toNat

theorem keywordType_bodyStmt {word : Bytes} (h : keywordType word = .bodyStmt) : word = ascii "BODY" := by
  by_contra hne
  revert h
  unfold keywordType
  rw [if_neg hne]
  change _ ≠ _
  repeat' apply ite_ne
  all_goals decide

theorem scanIdentifier_raw (h : lexer.scanIdentifier.2.readBodyRawNext = true)
    (hraw : lexer.readBodyRawNext = false)
    : lexer.scanIdentifier.2.len - lexer.scanIdentifier.2.pos + 4 ≤ lexer.len - lexer.pos := by
  unfold DslLexer.scanIdentifier at h ⊢
  dsimp only at h ⊢
  split at h
  . next htype =>
    have hword := congrArg List.length (keywordType_bodyStmt htype)
    have hpos := (lexer.advanceWhile isIdentChar (by decide)).pos_le
    have hlength : (ascii "BODY").length = 4 := by decide
    unfold dslStrndup at hword
    rw [List.length_take, hlength] at hword
    rw [if_pos htype]
    dsimp only
    rw [DslLexer.advanceWhile_len] at hpos ⊢
    omega
  . rw [DslLexer.advanceWhile_readBodyRawNext, hraw] at h
    cases h

theorem left_advanceWhile_le (p : UInt8 → Bool) (hp : p 0 = false) (lexer : DslLexer)
    : (lexer.advanceWhile p hp).len - (lexer.advanceWhile p hp).pos ≤ lexer.len - lexer.pos := by
  have hpos := lexer.pos_le_advanceWhile p hp
  rw [DslLexer.advanceWhile_len]
  omega

/-- Only the word `BODY` sets the flag, and it has four bytes. -/
theorem dslLexerNextToken_raw (h : (dslLexerNextToken lexer).2.readBodyRawNext = true)
    : (dslLexerNextToken lexer).2.len - (dslLexerNextToken lexer).2.pos + 4 ≤ lexer.len - lexer.pos := by
  fun_induction dslLexerNextToken lexer with
  | case1 lexer start hraw => simp [DslLexer.scanBodyRaw] at h
  | case2 lexer start c hraw hc => exact absurd h hraw
  | case3 lexer start c hraw hc hnewline =>
    rw [DslLexer.advance_readBodyRawNext] at h
    exact absurd h hraw
  | case4 lexer start c hraw hc hnewline hquote =>
    have hflag : start.scanString.2.readBodyRawNext = start.readBodyRawNext := by
      unfold DslLexer.scanString
      dsimp only
      split <;> simp
    exact absurd (hflag ▸ h) hraw
  | case5 lexer start c hraw hc hnewline hquote hdigit =>
    have hflag : start.scanNumber.2.readBodyRawNext = start.readBodyRawNext :=
      start.advanceWhile_readBodyRawNext
    exact absurd (hflag ▸ h) hraw
  | case6 lexer start c hraw hc hnewline hquote hdigit hident =>
    have hscan := scanIdentifier_raw h (Bool.eq_false_iff.mpr hraw)
    exact Nat.le_trans hscan (left_advanceWhile_le _ _ lexer)
  | case7 lexer start c hraw hc hnewline hquote hdigit hident hcomment ih =>
    have hskip := left_advanceWhile_le (fun c => c != 0 && c != 10) rfl start
    have hstart := left_advanceWhile_le (fun c => c == 32 || c == 9 || c == 13) rfl lexer
    exact Nat.le_trans (ih h) (Nat.le_trans hskip hstart)
  | case8 lexer start c hraw hc hnewline hquote hdigit hident hcomment msg =>
    rw [DslLexer.advance_readBodyRawNext] at h
    exact absurd h hraw

theorem tokensLeft_dslLexerNextToken_lt (h : (dslLexerNextToken lexer).1.isFinal = false)
    : (dslLexerNextToken lexer).2.tokensLeft < lexer.tokensLeft := by
  have hfuel := fuel_dslLexerNextToken_lt h
  have hraw := @dslLexerNextToken_raw lexer
  have hflag := Bool.toNat_le lexer.readBodyRawNext
  unfold DslLexer.fuel at hfuel
  unfold DslLexer.tokensLeft
  cases hnext : (dslLexerNextToken lexer).2.readBodyRawNext with
  | true =>
    have hword := hraw hnext
    rw [Bool.toNat_true]
    omega
  | false =>
    rw [hnext, Bool.toNat_false] at hfuel
    rw [Bool.toNat_false]
    omega

theorem length_dslLexerGetTokens_le (lexer : DslLexer)
    : (dslLexerGetTokens lexer).length ≤ lexer.tokensLeft + 1 := by
  fun_induction dslLexerGetTokens lexer with
  | case1 lexer hfinal =>
    rw [List.length_singleton]
    omega
  | case2 lexer hfinal ih =>
    have hless := tokensLeft_dslLexerNextToken_lt (Bool.eq_false_iff.mpr hfinal)
    rw [List.length_cons]
    omega

/-- The loop over the tokens ends, and its rounds are the tokens that it may return. -/
theorem within_getTokensRound (lexer : DslLexer)
    : within getTokensRound (lexer.tokensLeft + 1) (lexer, []) = some (dslLexerGetTokens lexer) := by
  have hround (s s' : DslLexer × List DslToken) (_ : True) (h : getTokensRound s = .inl s')
      : True ∧ s'.1.tokensLeft < s.1.tokensLeft := by
    unfold getTokensRound at h
    dsimp only at h
    split at h
    . cases h
    . next hfinal =>
      obtain rfl := Sum.inl.inj h
      exact ⟨trivial, tokensLeft_dslLexerNextToken_lt (Bool.eq_false_iff.mpr hfinal)⟩
  obtain ⟨res, hres⟩ := @within_of_measure _ _ getTokensRound (lexer, []) (fun _ => True)
    (fun s => s.1.tokensLeft) trivial hround _ (Nat.lt_succ_self _)
  rw [hres, eq_of_within dslLexerGetTokens_eq_round hres]
  rfl

/-- The last token and no other ends the list. -/
def EndsOnce (tokens : List DslToken) : Prop :=
  ∀ i token, tokens[i]? = some token → (token.isFinal = true ↔ i + 1 = tokens.length)

theorem endsOnce_dslLexerGetTokens (lexer : DslLexer) : EndsOnce (dslLexerGetTokens lexer) := by
  fun_induction dslLexerGetTokens lexer with
  | case1 lexer hfinal =>
    intro i token htoken
    rw [List.getElem?_singleton, Option.ite_none_right_eq_some, Option.some.injEq] at htoken
    obtain ⟨rfl, rfl⟩ := htoken
    exact iff_of_true hfinal rfl
  | case2 lexer hfinal ih =>
    intro i token htoken
    cases i with
    | zero =>
      obtain rfl := Option.some.inj htoken
      apply iff_of_false hfinal
      rw [dslLexerGetTokens_eq (dslLexerNextToken lexer).2]
      simp
    | succ i =>
      rw [List.length_cons, Nat.add_right_cancel_iff]
      exact ih i token htoken

end Tokens

section Statements

open DslParser

variable {source : Bytes} {error : Option DslParseError} {parser parser' : DslParser}
  {plan plan' : RunPlan}

-- One round of the loop of `parse_program`.
def parseProgramRound (s : DslParser × RunPlan)
    : (DslParser × RunPlan) ⊕ Option (DslParser × RunPlan × Bool) :=
  if s.1.check .eof then
    .inr (some (s.1, s.2, !s.1.hadError))
  else if s.1.hadError then
    .inr (some (s.1, s.2, false))
  else
    match parseStatement s.1 s.2 with
    | none => .inr none
    | some (parser, plan, false) => .inr (some (parser, plan, false))
    | some (parser, plan, true) => .inl (parser, plan)

theorem parseProgram_eq_round (s : DslParser × RunPlan)
    : parseProgram s.1 s.2 = (parseProgramRound s).elim (fun s => parseProgram s.1 s.2) id := by
  unfold parseProgramRound
  rw [parseProgram]
  split
  . rfl
  . split
    . rfl
    . split <;> rename_i hres <;> rw [hres] <;> rfl

def Consumes (parser parser' : DslParser) : Prop :=
  ∃ consumed, consumed ≠ [] ∧ parser.tokens = consumed ++ parser'.tokens

/-- An iteration stops with an error, or it goes on behind some tokens. -/
def StopsOrConsumes (parser : DslParser) (plan : RunPlan) : Prop :=
  (∃ parser' plan', parseProgramRound (parser, plan) = .inr (some (parser', plan', false)) ∧
      parser'.hadError = true) ∨
    ∃ parser' plan', parseProgramRound (parser, plan) = .inl (parser', plan') ∧ Consumes parser parser'

theorem length_of_spells {ts rest : List DslToken} {stmt : Grammar.Statement}
    (h : Grammar.Spells ts stmt rest) : rest.length < ts.length := by
  cases h with
  | request =>
    rw [List.length_cons, List.length_cons]
    omega
  | body =>
    rw [List.length_cons, List.length_cons]
    omega
  | expect ht he =>
    have hlength := he.suffix.length_le
    rw [List.length_cons]
    omega

theorem Line.consumed {cases : List RequestCase} {ts rest : List DslToken} (h : Line cases ts plan rest)
    : ∃ consumed, consumed ≠ [] ∧ ts = consumed ++ rest := by
  cases h with
  | blank hts ht => exact ⟨[_], List.cons_ne_nil _ _, hts⟩
  | statement hstmt hend hcases =>
    obtain ⟨consumed, hconsumed⟩ := hend.suffix.trans hstmt.suffix
    refine ⟨consumed, ?_, hconsumed.symm⟩
    rintro rfl
    have hlength := length_of_spells hstmt
    have hend := hend.suffix.length_le
    rw [← hconsumed, List.nil_append] at hlength
    omega

/-- The parser is in front of a line, and the plan has nothing but cases. -/
structure InProgram (source : Bytes) (error : Option DslParseError) (s : DslParser × RunPlan) : Prop where
  line : AtLine error (dslParserCreate source error) (dslLexerGetTokens (dslCreateLexer source)) s.1 s.2
  plan : s.2 = planOfCases s.2.cases

theorem InProgram.parseStatement (h : InProgram source error (parser, plan))
    (heof : ¬ parser.check .eof = true)
    : ∃ parser' plan' ok, parseStatement parser plan = some (parser', plan', ok) ∧
        (ok = false → parser'.hadError = true) ∧
        (ok = true → InProgram source error (parser', plan') ∧ Consumes parser parser') := by
  obtain ⟨parser', plan', ok, hres, hgood, hbad⟩ := h.line.statement heof
  obtain ⟨c, t, ts, htracks, _⟩ := h.line
  obtain ⟨_, _, _, hres', haccept, _⟩ := @parseStatement_reads _ plan.cases _ htracks.reads
  have hplan : plan = planOfCases plan.cases := h.plan
  rw [← hplan, hres, Option.some.injEq, Prod.mk.injEq, Prod.mk.injEq] at hres'
  obtain ⟨rfl, rfl, rfl⟩ := hres'
  refine ⟨parser', plan', ok, hres, fun hok => (hbad hok).hadError, ?_⟩
  intro hok
  obtain ⟨rest, hreads, hline⟩ := haccept hok
  obtain ⟨consumed, hne, hts⟩ := hline.consumed
  refine ⟨⟨hgood hok, hline.planOfCases⟩, consumed, hne, ?_⟩
  rw [htracks.reads.tokens_eq, hreads.tokens_eq, hts]

theorem InProgram.round (h : InProgram source error (parser, plan)) (heof : ¬ parser.check .eof = true)
    : (∃ parser' plan', parseProgramRound (parser, plan) = .inr (some (parser', plan', false)) ∧
        parser'.hadError = true) ∨
      ∃ parser' plan', parseProgramRound (parser, plan) = .inl (parser', plan') ∧
        InProgram source error (parser', plan') ∧ Consumes parser parser' := by
  unfold parseProgramRound
  dsimp only
  rw [if_neg heof]
  split
  . next hhad => exact .inl ⟨parser, plan, rfl, hhad⟩
  . obtain ⟨parser', plan', ok, hres, hbad, hgood⟩ := h.parseStatement heof
    rw [hres]
    cases ok with
    | false => exact .inl ⟨parser', plan', rfl, hbad rfl⟩
    | true => exact .inr ⟨parser', plan', rfl, hgood rfl⟩

theorem InProgram.next (s s' : DslParser × RunPlan) (h : InProgram source error s)
    (hround : parseProgramRound s = .inl s')
    : InProgram source error s' ∧ s'.1.tokens.length < s.1.tokens.length := by
  have heof : ¬ s.1.check .eof = true := by
    intro heof
    unfold parseProgramRound at hround
    rw [if_pos heof] at hround
    cases hround
  cases h.round heof with
  | inl hstops =>
    obtain ⟨_, _, hstops, _⟩ := hstops
    rw [hround] at hstops
    cases hstops
  | inr hnext =>
    obtain ⟨parser', plan', hnext, hprogram, consumed, hne, htokens⟩ := hnext
    rw [hround] at hnext
    obtain rfl := Sum.inl.inj hnext
    refine ⟨hprogram, ?_⟩
    have hpos := List.length_pos_of_ne_nil hne
    rw [htokens, List.length_append]
    dsimp only
    omega

theorem inProgram_create (source : Bytes) (error : Option DslParseError)
    : InProgram source error (dslParserCreate source error, initRunPlan) where
  line := dslParserCreate_atLine source error
  plan := rfl

theorem tokensLeft_create (source : Bytes) : (dslCreateLexer source).tokensLeft = strlen source := rfl

theorem within_parseProgramRound (source : Bytes) (error : Option DslParseError)
    : within parseProgramRound (strlen source + 2) (dslParserCreate source error, initRunPlan) =
        some (parseProgram (dslParserCreate source error) initRunPlan) := by
  have hlength : (dslParserCreate source error).tokens.length < strlen source + 2 := by
    have hle := length_dslLexerGetTokens_le (dslCreateLexer source)
    rw [tokensLeft_create] at hle
    rw [(dslParserCreate_reads source error).tokens_eq]
    omega
  obtain ⟨res, hres⟩ := @within_of_measure _ _ parseProgramRound _ _ (fun s => s.1.tokens.length)
    (inProgram_create source error) InProgram.next _ hlength
  rw [hres, eq_of_within parseProgram_eq_round hres]

/--
The restart behind a comment, the loop over the tokens and the loop over the statements all end, for
every source of `strlen source` bytes.
-/
theorem dslParseRunPlan_terminates (source : Bytes) (error : Option DslParseError)
    : (∃ tokens, within getTokensRound (strlen source + 1) (dslCreateLexer source, []) = some tokens ∧
          tokens.length ≤ strlen source + 1 ∧ EndsOnce tokens) ∧
        (∀ lexer, within nextTokenRound 2 lexer = some (dslLexerNextToken lexer)) ∧
        (∀ parser plan,
          Reaches parseProgramRound (dslParserCreate source error, initRunPlan) (parser, plan) →
          ¬ parser.check .eof = true → StopsOrConsumes parser plan) ∧
        ∃ parser plan ok,
          within parseProgramRound (strlen source + 2) (dslParserCreate source error, initRunPlan) =
            some (some (parser, plan, ok)) ∧
          dslParseRunPlan source error =
            if !ok || parser.hadError then some (.error, .zero, parser.error)
            else some (.ok, plan, parser.error) := by
  refine ⟨?_, within_nextTokenRound, ?_, ?_⟩
  . have hle := length_dslLexerGetTokens_le (dslCreateLexer source)
    have hloop := within_getTokensRound (dslCreateLexer source)
    rw [tokensLeft_create] at hle hloop
    exact ⟨_, hloop, hle, endsOnce_dslLexerGetTokens _⟩
  . intro parser plan hreaches heof
    have hprogram := hreaches.of_invariant (inProgram_create source error)
      (fun s s' h hround => (InProgram.next s s' h hround).1)
    cases hprogram.round heof with
    | inl hstops => exact .inl hstops
    | inr hnext =>
      obtain ⟨parser', plan', hround, _, hconsumes⟩ := hnext
      exact .inr ⟨parser', plan', hround, hconsumes⟩
  . have hloop := within_parseProgramRound source error
    obtain ⟨_, _, _, hres, _⟩ := dslParseRunPlan_parses source error
    unfold dslParseRunPlan at hres ⊢
    cases hprogram : parseProgram (dslParserCreate source error) initRunPlan with
    | none =>
      rw [hprogram] at hres
      cases hres
    | some res =>
      rw [hprogram] at hloop
      exact ⟨_, _, _, hloop, rfl⟩

end Statements

end HttpRuntime
