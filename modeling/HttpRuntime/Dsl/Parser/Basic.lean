import HttpRuntime.Core.RunPlan
import HttpRuntime.Dsl.Lexer.Tokens

/-!
This module contains the parser of the DSL, `dsl_parser.c`, when every allocation succeeds.

`none` is the result of a step that leaves the program: a write behind the end of an array, or the
copy of a null string.
-/

open Lib

namespace HttpRuntime

structure DslParseError where
  message : Bytes
  line : Nat
  column : Nat
  deriving DecidableEq, Repr

inductive DslParseResult where
  | ok
  | error
  deriving DecidableEq, Repr

/-- `error` is `none` where the caller does not ask for the error. -/
structure DslParser where
  lexer : DslLexer
  current : Option DslToken
  previous : Option DslToken
  error : Option DslParseError
  hadError : Bool

-- `snprintf` into `char message[256]`
def DslParseError.write (message : Bytes) (line column : Nat) : DslParseError where
  message := message.take 255
  line := line
  column := column

namespace DslParser

def check (parser : DslParser) (type : DslTokenType) : Bool :=
  match parser.current with
  | none => false
  | some token => token.type = type

def advance (parser : DslParser) : DslParser :=
  let res := dslLexerNextToken parser.lexer
  let parser := { parser with
    lexer := res.2
    current := some res.1
    previous := parser.current
  }
  if res.1.type = .error then
    let message := res.1.str.getD (ascii "lexer error")
    { parser with
      hadError := true
      error := parser.error.map (fun _ => .write message res.1.line res.1.column)
    }
  else
    parser

def parserError (parser : DslParser) (message : String) : DslParser :=
  if parser.hadError then
    parser
  else
    let line := (parser.current.map DslToken.line).getD 0
    let column := (parser.current.map DslToken.column).getD 0
    { parser with
      hadError := true
      error := parser.error.map (fun _ => .write (ascii message) line column)
    }

def consume (parser : DslParser) (type : DslTokenType) (message : String) : DslParser × Bool :=
  if parser.check type then (parser.advance, true) else (parser.parserError message, false)

-- `parser->previous.str`, where it is copied.
def previousStr (parser : DslParser) : Option Bytes := parser.previous.bind DslToken.str

end DslParser

def dslParserCreate (text : Bytes) (error : Option DslParseError) : DslParser :=
  let parser : DslParser := {
    lexer := dslCreateLexer text
    current := none
    previous := none
    error := error.map (fun _ => ⟨[], 0, 0⟩)
    hadError := false
  }
  parser.advance

-- The write to the next free place of `assertions`.
def RequestCase.addAssertion (requestCase : RequestCase) (as : Assertion) : Option RequestCase :=
  if requestCase.assertions.length < maxCaseAssertions then
    some { requestCase with assertions := requestCase.assertions ++ [as] }
  else
    none

-- The write to the next free place of `cases`.
def RunPlan.addCase (plan : RunPlan) (requestCase : RequestCase) : Option RunPlan :=
  if plan.cases.length < maxRequestCases then
    some { plan with cases := plan.cases ++ [requestCase] }
  else
    none

-- What is written to `plan->cases[plan->case_count - 1]`.
def RunPlan.setLastCase (plan : RunPlan) (requestCase : RequestCase) : RunPlan :=
  { plan with cases := plan.cases.dropLast ++ [requestCase] }

section Assertions

variable (parser : DslParser) (requestCase : RequestCase)

abbrev AssertionParse := Option (DslParser × RequestCase × Bool)

def parseStatusAssertion : AssertionParse :=
  if requestCase.assertions.length ≥ maxCaseAssertions then
    some (parser.parserError "too many assertions for request case", requestCase, false)
  else
    let res := parser.consume .status "expected 'status'"
    if !res.2 then
      some (res.1, requestCase, false)
    else
      let res := res.1.consume .int "expected status code after 'status'"
      if !res.2 then
        some (res.1, requestCase, false)
      else do
        let str ← res.1.previousStr
        let requestCase ← requestCase.addAssertion ⟨.statusEq, .int (atoi str)⟩
        some (res.1, requestCase, true)

def parseBodyAssertion : AssertionParse :=
  if requestCase.assertions.length ≥ maxCaseAssertions then
    some (parser.parserError "too many assertions for request case", requestCase, false)
  else
    let res := parser.consume .body "expected 'body'"
    if !res.2 then
      some (res.1, requestCase, false)
    else
      let res := res.1.consume .contains "expected 'contains' after 'body'"
      if !res.2 then
        some (res.1, requestCase, false)
      else
        let res := res.1.consume .string "expected string after 'body contains'"
        if !res.2 then
          some (res.1, requestCase, false)
        else do
          let str ← res.1.previousStr
          let requestCase ← requestCase.addAssertion ⟨.bodyContains, .bytes (some str) (strlen str)⟩
          some (res.1, requestCase, true)

def parseHeaderAssertion : AssertionParse :=
  if requestCase.assertions.length ≥ maxCaseAssertions then
    some (parser.parserError "too many assertions for request case", requestCase, false)
  else
    let res := parser.consume .header "expected 'header'"
    if !res.2 then
      some (res.1, requestCase, false)
    else
      let res := res.1.consume .ident "expected header name after 'header'"
      if !res.2 then
        some (res.1, requestCase, false)
      else do
        let name ← res.1.previousStr
        if !(res.1.check .ident || res.1.check .string || res.1.check .int) then
          some (res.1.parserError "expected header value after header name", requestCase, false)
        else do
          let parser := res.1.advance
          let value ← parser.previousStr
          let requestCase ←
            requestCase.addAssertion ⟨.headerContains, .header ⟨some name, some value⟩⟩
          some (parser, requestCase, true)

def parseAssertion : AssertionParse :=
  if parser.check .status then
    parseStatusAssertion parser requestCase
  else if parser.check .body then
    parseBodyAssertion parser requestCase
  else if parser.check .header then
    parseHeaderAssertion parser requestCase
  else
    some (parser.parserError "expected assertion type: status, body, or header", requestCase, false)

end Assertions

def methodFromToken (type : DslTokenType) : Method :=
  match type with
  | .get => .get
  | .post => .post
  | .put => .put
  | .delete => .delete
  | .patch => .patch
  | _ => .get

def isMethodToken (type : DslTokenType) : Bool :=
  type = .get || type = .post || type = .put || type = .delete || type = .patch

section Statements

variable (parser : DslParser) (plan : RunPlan)

abbrev StatementParse := Option (DslParser × RunPlan × Bool)

-- The end of every statement.
def finishStatement (message : String) : StatementParse :=
  if parser.check .newline then some (parser.advance, plan, true)
  else if parser.check .eof then some (parser, plan, true)
  else some (parser.parserError message, plan, false)

def parseBodyStmt : StatementParse :=
  match plan.cases.getLast? with
  | none => some (parser.parserError "BODY must appear after a request statement", plan, false)
  | some requestCase =>
    let res := parser.consume .bodyStmt "expected BODY"
    if !res.2 then
      some (res.1, plan, false)
    else
      let res := res.1.consume .bodyRaw "expected body value after BODY"
      if !res.2 then
        some (res.1, plan, false)
      else do
        let str ← res.1.previousStr
        let requestCase := { requestCase with body := some str, bodyLen := strlen str }
        finishStatement res.1 (plan.setLastCase requestCase) "expected newline after BODY statement"

def parseRequestStmt : StatementParse :=
  if plan.cases.length ≥ maxRequestCases then
    some (parser.parserError "too many request cases", plan, false)
  else
    match parser.current.map DslToken.type with
    | none => some (parser.parserError "expected HTTP method", plan, false)
    | some methodToken =>
      if !isMethodToken methodToken then
        some (parser.parserError "expected HTTP method", plan, false)
      else
        let res := parser.advance.consume .ident "expected URL after HTTP method"
        if !res.2 then
          some (res.1, plan, false)
        else do
          let str ← res.1.previousStr
          let plan ← plan.addCase {
            method := methodFromToken methodToken
            url := some str
            headers := none
            body := none
            bodyLen := 0
            assertions := []
            timeoutMs := if plan.defaultTimeoutMs > 0 then plan.defaultTimeoutMs else 5000
          }
          finishStatement res.1 plan "expected newline after request statement"

def parseExpectStmt : StatementParse :=
  match plan.cases.getLast? with
  | none =>
    some (parser.parserError "EXPECT statement must come after a request statement", plan, false)
  | some requestCase =>
    let res := parser.consume .expect "expected EXPECT"
    if !res.2 then
      some (res.1, plan, false)
    else if requestCase.assertions.length ≥ maxCaseAssertions then
      some (res.1.parserError "too many assertions for request case", plan, false)
    else do
      let res ← parseAssertion res.1 requestCase
      let plan := plan.setLastCase res.2.1
      if !res.2.2 then
        some (res.1, plan, false)
      else
        finishStatement res.1 plan "expected newline after EXPECT statement"

def parseStatement : StatementParse :=
  if parser.check .newline then
    some (parser.advance, plan, true)
  else if parser.check .get || parser.check .post || parser.check .put || parser.check .delete ||
      parser.check .patch then
    parseRequestStmt parser plan
  else if parser.check .bodyStmt then
    parseBodyStmt parser plan
  else if parser.check .expect then
    parseExpectStmt parser plan
  else
    some (parser.parserError "expected request statement or EXPECT statement", plan, false)

end Statements

end HttpRuntime
