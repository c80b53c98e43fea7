import HttpRuntime.Dsl.Lexer.Spans
import HttpRuntime.Dsl.Parser.Progress

/-!
This module contains what the parsing functions do to a parser, whatever they return: they advance it
and they record errors. So a parser at the end of its tokens is at the end of its source.
-/

open Lib

namespace HttpRuntime

namespace DslParser

/-- The parsers that are reached from a parser by consuming tokens and recording errors. -/
inductive Moves (parser : DslParser) : DslParser → Prop where
  | refl : Moves parser parser
  | advance {parser' : DslParser} (h : Moves parser parser') : Moves parser parser'.advance
  | parserError {parser' : DslParser} (message : String) (h : Moves parser parser')
    : Moves parser (parser'.parserError message)

-- The same for what a parsing function returns.
def Moving {γ : Type} (parser : DslParser) (res : Option (DslParser × γ × Bool)) : Prop :=
  ∀ parser' c ok, res = some (parser', c, ok) → parser.Moves parser'

variable {γ : Type} {parser parser' : DslParser}

theorem Moves.consume (h : parser.Moves parser') (type : DslTokenType) (message : String)
    : parser.Moves (parser'.consume type message).1 := by
  unfold DslParser.consume
  split
  . exact h.advance
  . exact h.parserError message

theorem Moves.moving (h : parser.Moves parser') (c : γ) (ok : Bool)
    : parser.Moving (some (parser', c, ok)) := by
  intro parser₁ c₁ ok₁ heq
  rw [Option.some.injEq, Prod.mk.injEq] at heq
  rw [← heq.1]
  exact h

theorem Moving.none : parser.Moving (none : Option (DslParser × γ × Bool)) := by
  intro parser' c ok heq
  cases heq

theorem Moving.ite {c : Prop} [Decidable c] {res res' : Option (DslParser × γ × Bool)}
    (h : parser.Moving res) (h' : parser.Moving res') : parser.Moving (if c then res else res') := by
  split
  . exact h
  . exact h'

theorem Moving.bind {δ : Type} {x : Option δ} {res : δ → Option (DslParser × γ × Bool)}
    (h : ∀ d, x = some d → parser.Moving (res d)) : parser.Moving (x >>= res) := by
  cases x with
  | none => exact Moving.none
  | some d => exact h d rfl

end DslParser

section Moves

open DslParser

variable {parser parser' : DslParser} {requestCase : RequestCase} {plan : RunPlan}

theorem parseStatusAssertion_moving (h : parser.Moves parser')
    : parser.Moving (parseStatusAssertion parser' requestCase) := by
  have hstatus := h.consume .status "expected 'status'"
  have hint := hstatus.consume .int "expected status code after 'status'"
  unfold parseStatusAssertion
  apply Moving.ite
  . exact (h.parserError _).moving _ _
  apply Moving.ite
  . exact hstatus.moving _ _
  apply Moving.ite
  . exact hint.moving _ _
  apply Moving.bind
  intro str _
  apply Moving.bind
  intro requestCase' _
  exact hint.moving _ _

theorem parseBodyAssertion_moving (h : parser.Moves parser')
    : parser.Moving (parseBodyAssertion parser' requestCase) := by
  have hbody := h.consume .body "expected 'body'"
  have hcontains := hbody.consume .contains "expected 'contains' after 'body'"
  have hstring := hcontains.consume .string "expected string after 'body contains'"
  unfold parseBodyAssertion
  apply Moving.ite
  . exact (h.parserError _).moving _ _
  apply Moving.ite
  . exact hbody.moving _ _
  apply Moving.ite
  . exact hcontains.moving _ _
  apply Moving.ite
  . exact hstring.moving _ _
  apply Moving.bind
  intro str _
  apply Moving.bind
  intro requestCase' _
  exact hstring.moving _ _

theorem parseHeaderAssertion_moving (h : parser.Moves parser')
    : parser.Moving (parseHeaderAssertion parser' requestCase) := by
  have hheader := h.consume .header "expected 'header'"
  have hname := hheader.consume .ident "expected header name after 'header'"
  unfold parseHeaderAssertion
  apply Moving.ite
  . exact (h.parserError _).moving _ _
  apply Moving.ite
  . exact hheader.moving _ _
  apply Moving.ite
  . exact hname.moving _ _
  apply Moving.bind
  intro name _
  apply Moving.ite
  . exact (hname.parserError _).moving _ _
  apply Moving.bind
  intro value _
  apply Moving.bind
  intro requestCase' _
  exact hname.advance.moving _ _

theorem parseAssertion_moving (h : parser.Moves parser')
    : parser.Moving (parseAssertion parser' requestCase) := by
  unfold parseAssertion
  apply Moving.ite
  . exact parseStatusAssertion_moving h
  apply Moving.ite
  . exact parseBodyAssertion_moving h
  apply Moving.ite
  . exact parseHeaderAssertion_moving h
  . exact (h.parserError _).moving _ _

theorem finishStatement_moving (h : parser.Moves parser') (message : String)
    : parser.Moving (finishStatement parser' plan message) := by
  unfold finishStatement
  apply Moving.ite
  . exact h.advance.moving _ _
  apply Moving.ite
  . exact h.moving _ _
  . exact (h.parserError _).moving _ _

theorem parseBodyStmt_moving (h : parser.Moves parser')
    : parser.Moving (parseBodyStmt parser' plan) := by
  have hbody := h.consume .bodyStmt "expected BODY"
  have hraw := hbody.consume .bodyRaw "expected body value after BODY"
  unfold parseBodyStmt
  split
  . exact (h.parserError _).moving _ _
  . apply Moving.ite
    . exact hbody.moving _ _
    apply Moving.ite
    . exact hraw.moving _ _
    apply Moving.bind
    intro str _
    exact finishStatement_moving hraw _

theorem parseRequestStmt_moving (h : parser.Moves parser')
    : parser.Moving (parseRequestStmt parser' plan) := by
  have hurl := h.advance.consume .ident "expected URL after HTTP method"
  unfold parseRequestStmt
  apply Moving.ite
  . exact (h.parserError _).moving _ _
  split
  . exact (h.parserError _).moving _ _
  . apply Moving.ite
    . exact (h.parserError _).moving _ _
    apply Moving.ite
    . exact hurl.moving _ _
    apply Moving.bind
    intro str _
    apply Moving.bind
    intro plan' _
    exact finishStatement_moving hurl _

theorem parseExpectStmt_moving (h : parser.Moves parser')
    : parser.Moving (parseExpectStmt parser' plan) := by
  have hexpect := h.consume .expect "expected EXPECT"
  unfold parseExpectStmt
  split
  . exact (h.parserError _).moving _ _
  . next requestCase _ =>
    apply Moving.ite
    . exact hexpect.moving _ _
    apply Moving.ite
    . exact (hexpect.parserError _).moving _ _
    apply Moving.bind
    rintro ⟨parser₁, requestCase', ok⟩ hres
    have hassertion := parseAssertion_moving hexpect _ _ _ hres
    apply Moving.ite
    . exact hassertion.moving _ _
    . exact finishStatement_moving hassertion _

theorem parseStatement_moving (h : parser.Moves parser')
    : parser.Moving (parseStatement parser' plan) := by
  unfold parseStatement
  apply Moving.ite
  . exact h.advance.moving _ _
  apply Moving.ite
  . exact parseRequestStmt_moving h
  apply Moving.ite
  . exact parseBodyStmt_moving h
  apply Moving.ite
  . exact parseExpectStmt_moving h
  . exact (h.parserError _).moving _ _

theorem parseProgram_moving (h : parser.Moves parser') : parser.Moving (parseProgram parser' plan) := by
  fun_induction parseProgram parser' plan with
  | case1 parser' plan heof => exact h.moving _ _
  | case2 parser' plan heof herror => exact h.moving _ _
  | case3 parser' plan heof herror hnone => exact Moving.none
  | case4 parser' plan heof herror parser₁ plan₁ hsome =>
    exact (parseStatement_moving h _ _ _ hsome).moving _ _
  | case5 parser' plan heof herror parser₁ plan₁ hsome ih =>
    exact ih (parseStatement_moving h _ _ _ hsome)

end Moves

namespace DslParser

/-- The lexer of the parser reads `text`, and it is at its end if the parser is. -/
structure On (parser : DslParser) (text : Bytes) : Prop where
  lexer : parser.lexer.At text
  eof : parser.check .eof = true → parser.lexer.pos = text.length

variable {parser parser' : DslParser} {text : Bytes}

theorem on_advance (h : parser.lexer.At text) : parser.advance.On text := by
  rcases dslLexerNextToken_scanned h with ⟨span, hspan, hnext⟩
  refine ⟨advance_lexer parser ▸ hnext, ?_⟩
  intro hcheck
  rcases check_iff.mp hcheck with ⟨token, hcurrent, htype⟩
  rw [advance_current, Option.some.injEq] at hcurrent
  rw [← hcurrent] at htype
  have heof := hspan.token.eof htype
  have hstop := span.start_le
  have hbehind := hspan.behind.le
  have hle := hnext.pos_le
  rw [advance_lexer]
  omega

theorem On.parserError (h : parser.On text) (message : String) : (parser.parserError message).On text := by
  unfold DslParser.parserError
  split
  . exact h
  . exact ⟨h.lexer, h.eof⟩

theorem Moves.on (hmoves : parser.Moves parser') (h : parser.On text) : parser'.On text := by
  induction hmoves with
  | refl => exact h
  | advance _ ih => exact on_advance ih.lexer
  | parserError message _ ih => exact ih.parserError message

end DslParser

theorem dslParserCreate_on (source : Bytes) (error : Option DslParseError)
    : (dslParserCreate source error).On (cstring source) := by
  unfold dslParserCreate
  apply DslParser.on_advance
  exact dslCreateLexer_at source

theorem parseProgram_eof {parser parser' : DslParser} {plan plan' : RunPlan}
    (h : parseProgram parser plan = some (parser', plan', true)) : parser'.check .eof = true := by
  fun_induction parseProgram parser plan with
  | case1 parser plan heof =>
    rw [Option.some.injEq, Prod.mk.injEq] at h
    rw [← h.1]
    exact heof
  | case2 => cases h
  | case3 => cases h
  | case4 => cases h
  | case5 parser plan heof herror parser₁ plan₁ hsome ih => exact ih h

/-- A parser that accepts has left its lexer at the terminator of the source. -/
theorem parseProgram_pos {source : Bytes} {error : Option DslParseError} {parser : DslParser}
    {plan : RunPlan}
    (h : parseProgram (dslParserCreate source error) initRunPlan = some (parser, plan, true))
    : parser.lexer.pos = strlen source :=
  ((parseProgram_moving .refl _ _ _ h).on (dslParserCreate_on source error)).eof (parseProgram_eof h)

end HttpRuntime
