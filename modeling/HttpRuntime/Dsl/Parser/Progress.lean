import HttpRuntime.Dsl.Parser.Basic

/-!
This module contains the loop of the parser. It ends because every statement that is accepted uses
up a token.
-/

open Lib

namespace HttpRuntime

namespace DslParser

variable {parser : DslParser}

def fuel (parser : DslParser) : Nat :=
  match parser.current with
  | none => parser.lexer.fuel + 1
  | some token => if token.isFinal then 0 else parser.lexer.fuel + 1

theorem advance_current (parser : DslParser)
    : parser.advance.current = some (dslLexerNextToken parser.lexer).1 := by
  unfold advance
  dsimp only
  split <;> rfl

theorem advance_lexer (parser : DslParser)
    : parser.advance.lexer = (dslLexerNextToken parser.lexer).2 := by
  unfold advance
  dsimp only
  split <;> rfl

theorem advance_previous (parser : DslParser) : parser.advance.previous = parser.current := by
  unfold advance
  dsimp only
  split <;> rfl

theorem fuel_advance_lt {token : DslToken} (h : parser.current = some token)
    (hfinal : token.isFinal = false) : parser.advance.fuel < parser.fuel := by
  have hfuel : parser.fuel = parser.lexer.fuel + 1 := by
    unfold fuel
    rw [h]
    simp [hfinal]
  rw [hfuel]
  unfold fuel
  rw [advance_current, advance_lexer]
  dsimp only
  split
  . omega
  . next hnext =>
    have := fuel_dslLexerNextToken_lt (by simpa using hnext)
    omega

theorem check_iff {type : DslTokenType}
    : parser.check type = true ↔ ∃ token, parser.current = some token ∧ token.type = type := by
  unfold check
  cases parser.current with
  | none => simp
  | some token => simp

-- The types of the tokens before the last one.
def Inner (type : DslTokenType) : Prop := type ≠ .eof ∧ type ≠ .error

instance (type : DslTokenType) : Decidable (Inner type) := inferInstanceAs (Decidable (_ ∧ _))

theorem fuel_advance_of_check {type : DslTokenType} (h : parser.check type = true)
    (htype : Inner type) : parser.advance.fuel < parser.fuel := by
  rcases check_iff.mp h with ⟨token, hcurrent, htoken⟩
  apply fuel_advance_lt hcurrent
  rw [← htoken] at htype
  simp [DslToken.isFinal, htype.1, htype.2]

theorem fuel_consume {type : DslTokenType} {message : String}
    (h : ¬ (!(parser.consume type message).2) = true) (htype : Inner type)
    : (parser.consume type message).1.fuel < parser.fuel := by
  unfold consume at h ⊢
  split at h
  . next hcheck =>
    rw [if_pos hcheck]
    exact fuel_advance_of_check hcheck htype
  . simp at h

end DslParser

section Progress

open DslParser

variable {parser parser' : DslParser} {requestCase requestCase' : RequestCase} {plan plan' : RunPlan}

theorem fuel_parseStatusAssertion
    (h : parseStatusAssertion parser requestCase = some (parser', requestCase', true))
    : parser'.fuel < parser.fuel := by
  unfold parseStatusAssertion at h
  split at h
  . simp at h
  . dsimp only at h
    split at h
    . simp at h
    . next hstatus =>
      split at h
      . simp at h
      . next hint =>
        simp only [Option.bind_eq_bind, Option.bind_eq_some_iff, Option.some.injEq, Prod.mk.injEq] at h
        rcases h with ⟨_, _, _, _, hparser, _⟩
        rw [← hparser]
        exact Nat.lt_trans (fuel_consume hint (by decide)) (fuel_consume hstatus (by decide))

theorem fuel_parseBodyAssertion
    (h : parseBodyAssertion parser requestCase = some (parser', requestCase', true))
    : parser'.fuel < parser.fuel := by
  unfold parseBodyAssertion at h
  split at h
  . simp at h
  . dsimp only at h
    split at h
    . simp at h
    . next hbody =>
      split at h
      . simp at h
      . next hcontains =>
        split at h
        . simp at h
        . next hstring =>
          simp only [Option.bind_eq_bind, Option.bind_eq_some_iff, Option.some.injEq, Prod.mk.injEq] at h
          rcases h with ⟨_, _, _, _, hparser, _⟩
          rw [← hparser]
          have := fuel_consume hbody (by decide)
          have := fuel_consume hcontains (by decide)
          have := fuel_consume hstring (by decide)
          omega

theorem fuel_parseHeaderAssertion
    (h : parseHeaderAssertion parser requestCase = some (parser', requestCase', true))
    : parser'.fuel < parser.fuel := by
  unfold parseHeaderAssertion at h
  split at h
  . simp at h
  . dsimp only at h
    split at h
    . simp at h
    . next hheader =>
      split at h
      . simp at h
      . next hname =>
        rw [Option.bind_eq_bind, Option.bind_eq_some_iff] at h
        rcases h with ⟨name, _, h⟩
        split at h
        . simp at h
        . next hvalue =>
          simp only [Option.bind_eq_bind, Option.bind_eq_some_iff, Option.some.injEq, Prod.mk.injEq] at h
          rcases h with ⟨_, _, _, _, hparser, _⟩
          rw [← hparser]
          have := fuel_consume hheader (by decide)
          have := fuel_consume hname (by decide)
          simp only [Bool.not_eq_true', Bool.not_eq_false, Bool.or_eq_true] at hvalue
          rcases hvalue with (hvalue | hvalue) | hvalue
          all_goals
            have := fuel_advance_of_check hvalue (by decide)
            omega

theorem fuel_parseAssertion
    (h : parseAssertion parser requestCase = some (parser', requestCase', true))
    : parser'.fuel < parser.fuel := by
  unfold parseAssertion at h
  split at h
  . exact fuel_parseStatusAssertion h
  . split at h
    . exact fuel_parseBodyAssertion h
    . split at h
      . exact fuel_parseHeaderAssertion h
      . simp at h

theorem fuel_finishStatement {message : String}
    (h : finishStatement parser plan message = some (parser', plan', true))
    : parser'.fuel ≤ parser.fuel := by
  unfold finishStatement at h
  split at h
  . next hnewline =>
    simp only [Option.some.injEq, Prod.mk.injEq] at h
    rw [← h.1]
    exact Nat.le_of_lt (fuel_advance_of_check hnewline (by decide))
  . split at h
    . simp only [Option.some.injEq, Prod.mk.injEq] at h
      rw [← h.1]
    . simp at h

theorem fuel_parseBodyStmt (h : parseBodyStmt parser plan = some (parser', plan', true))
    : parser'.fuel < parser.fuel := by
  unfold parseBodyStmt at h
  split at h
  . simp at h
  . dsimp only at h
    split at h
    . simp at h
    . next hbody =>
      split at h
      . simp at h
      . next hraw =>
        rw [Option.bind_eq_bind, Option.bind_eq_some_iff] at h
        rcases h with ⟨_, _, h⟩
        have := fuel_consume hbody (by decide)
        have := fuel_consume hraw (by decide)
        have := fuel_finishStatement h
        omega

theorem isFinal_of_isMethodToken {token : DslToken} (h : isMethodToken token.type = true)
    : token.isFinal = false := by
  unfold DslToken.isFinal
  unfold isMethodToken at h
  revert h
  cases token.type <;> decide

theorem fuel_parseRequestStmt (h : parseRequestStmt parser plan = some (parser', plan', true))
    : parser'.fuel < parser.fuel := by
  unfold parseRequestStmt at h
  split at h
  . simp at h
  . split at h
    . simp at h
    . next methodToken hmethod =>
      split at h
      . simp at h
      . next hmethodToken =>
        dsimp only at h
        split at h
        . simp at h
        . next hurl =>
          simp only [Option.bind_eq_bind, Option.bind_eq_some_iff] at h
          rcases h with ⟨_, _, _, _, h⟩
          have hfinal : parser.advance.fuel < parser.fuel := by
            rw [Option.map_eq_some_iff] at hmethod
            rcases hmethod with ⟨token, hcurrent, htype⟩
            apply fuel_advance_lt hcurrent
            apply isFinal_of_isMethodToken
            rw [htype]
            simpa using hmethodToken
          have := fuel_consume hurl (by decide)
          have := fuel_finishStatement h
          omega

theorem fuel_parseExpectStmt (h : parseExpectStmt parser plan = some (parser', plan', true))
    : parser'.fuel < parser.fuel := by
  unfold parseExpectStmt at h
  split at h
  . simp at h
  . dsimp only at h
    split at h
    . simp at h
    . next hexpect =>
      split at h
      . simp at h
      . rw [Option.bind_eq_bind, Option.bind_eq_some_iff] at h
        rcases h with ⟨⟨parser₁, requestCase, ok⟩, hassertion, h⟩
        dsimp only at h
        cases ok with
        | false => simp at h
        | true =>
          rw [if_neg (by simp)] at h
          have := fuel_consume hexpect (by decide)
          have := fuel_parseAssertion hassertion
          have := fuel_finishStatement h
          omega

theorem fuel_parseStatement (h : parseStatement parser plan = some (parser', plan', true))
    : parser'.fuel < parser.fuel := by
  unfold parseStatement at h
  split at h
  . next hnewline =>
    simp only [Option.some.injEq, Prod.mk.injEq] at h
    rw [← h.1]
    exact fuel_advance_of_check hnewline (by decide)
  . split at h
    . exact fuel_parseRequestStmt h
    . split at h
      . exact fuel_parseBodyStmt h
      . split at h
        . exact fuel_parseExpectStmt h
        . simp at h

end Progress

def parseProgram (parser : DslParser) (plan : RunPlan) : StatementParse :=
  if parser.check .eof then
    some (parser, plan, !parser.hadError)
  else if parser.hadError then
    some (parser, plan, false)
  else
    match _h : parseStatement parser plan with
    | none => none
    | some (parser, plan, false) => some (parser, plan, false)
    | some (parser, plan, true) => parseProgram parser plan
termination_by parser.fuel
decreasing_by exact fuel_parseStatement _h

/-- The result with the plan and the error that the caller finds. -/
def dslParseRunPlan (source : Bytes) (error : Option DslParseError)
    : Option (DslParseResult × RunPlan × Option DslParseError) :=
  match parseProgram (dslParserCreate source error) initRunPlan with
  | none => none
  | some (parser, plan, ok) =>
    -- `free_run_plan` clears what was built
    if !ok || parser.hadError then some (.error, .zero, parser.error)
    else some (.ok, plan, parser.error)

end HttpRuntime
