import HttpRuntime.Core.PlanMemory
import HttpRuntime.Dsl.Memory.Lexer
import HttpRuntime.Dsl.Parser.Progress

/-!
This module contains the parser of the DSL on a heap: what `dsl_parser.c` copies, what it frees when it
goes on to the next token, and how it gives everything back when it fails.
-/

open Lib

namespace HttpRuntime
namespace OnHeap

/-- `block` is the parser itself. -/
structure DslParser where
  block : Nat
  lexer : Boxed DslLexer
  current : Option DslToken
  previous : Option DslToken
  error : Option DslParseError
  hadError : Bool

namespace DslParser

def check (parser : DslParser) (type : DslTokenType) : Bool :=
  match parser.current with
  | none => false
  | some token => token.type = type

def freeToken (token : Option DslToken) : HeapProg Unit :=
  match token with
  | none => pure ()
  | some token => dslFreeToken token

-- `parser->current.str ? parser->current.str : "lexer error"`
def lexerMessage (str : Ptr Bytes) : HeapProg Bytes :=
  match str with
  | none => pure (ascii "lexer error")
  | some _ => Heap.read str

-- What `advance` does with the token that it got.
def noteError (parser : DslParser) (token : DslToken) : HeapProg DslParser :=
  if token.type = .error then
    match parser.error with
    | none => pure { parser with hadError := true }
    | some _ => do
      let message ← lexerMessage token.str
      pure { parser with hadError := true, error := some (.write message token.line token.column) }
  else
    pure parser

def advance (parser : DslParser) : HeapProg DslParser := do
  freeToken parser.previous
  let res ← dslLexerNextToken parser.lexer.val
  noteError
    { parser with
      lexer := ⟨parser.lexer.block, res.2⟩
      current := some res.1
      previous := parser.current
    }
    res.1

def parserError (parser : DslParser) (message : String) : DslParser :=
  if parser.hadError then
    parser
  else
    let line := (parser.current.map DslToken.line).getD 0
    let column := (parser.current.map DslToken.column).getD 0
    { parser with
      hadError := true
      error := parser.error.map (fun _ => .write (ascii message) line column)
    }

def consume (parser : DslParser) (type : DslTokenType) (message : String)
    : HeapProg (DslParser × Bool) :=
  if parser.check type then do
    let parser ← parser.advance
    pure (parser, true)
  else
    pure (parser.parserError message, false)

def previousStr (parser : DslParser) : Ptr Bytes := parser.previous.bind DslToken.str

end DslParser

def strdup (s : Ptr Bytes) : HeapProg (Ptr Bytes) := do
  let text ← Heap.read s
  Heap.new text

def dslCreateLexer (input : Bytes) : HeapProg (Ptr DslLexer) := Heap.new (HttpRuntime.dslCreateLexer input)

def dslParserCreate (text : Bytes) (error : Option DslParseError) : HeapProg (Option DslParser) := do
  let block ← Heap.alloc
  match block with
  | none => pure none
  | some block =>
    let lexer ← dslCreateLexer text
    match lexer with
    | none =>
      Heap.free (some block)
      pure none
    | some lexer =>
      let parser : DslParser := {
        block := block
        lexer := lexer
        current := none
        previous := none
        error := error.map (fun _ => ⟨[], 0, 0⟩)
        hadError := false
      }
      let parser ← parser.advance
      pure (some parser)

def dslParserDestroy (parser : DslParser) : HeapProg Unit := do
  DslParser.freeToken parser.current
  DslParser.freeToken parser.previous
  Heap.free (some parser.lexer.block)
  Heap.free (some parser.block)

-- The write to the next free place of `assertions`.
def RequestCase.addAssertion (requestCase : RequestCase) (as : Assertion) : HeapProg RequestCase :=
  if requestCase.assertions.length < maxCaseAssertions then
    pure { requestCase with assertions := requestCase.assertions ++ [as] }
  else
    failure

-- The write to the next free place of `cases`.
def RunPlan.addCase (plan : RunPlan) (requestCase : RequestCase) : HeapProg RunPlan :=
  if plan.cases.length < maxRequestCases then
    pure { plan with cases := plan.cases ++ [requestCase] }
  else
    failure

-- What is written to `plan->cases[plan->case_count - 1]`.
def RunPlan.setLastCase (plan : RunPlan) (requestCase : RequestCase) : RunPlan :=
  { plan with cases := plan.cases.dropLast ++ [requestCase] }

section Assertions

variable (parser : DslParser) (requestCase : RequestCase)

abbrev AssertionParse := HeapProg (DslParser × RequestCase × Bool)

def parseStatusAssertion : AssertionParse :=
  if requestCase.assertions.length ≥ maxCaseAssertions then
    pure (parser.parserError "too many assertions for request case", requestCase, false)
  else do
    let res ← parser.consume .status "expected 'status'"
    if !res.2 then
      pure (res.1, requestCase, false)
    else
      let res ← res.1.consume .int "expected status code after 'status'"
      if !res.2 then
        pure (res.1, requestCase, false)
      else
        let str ← Heap.read res.1.previousStr
        let requestCase ← requestCase.addAssertion (.statusEq (atoi str))
        pure (res.1, requestCase, true)

-- The assertion counts before its copy is checked.
def parseBodyAssertion : AssertionParse :=
  if requestCase.assertions.length ≥ maxCaseAssertions then
    pure (parser.parserError "too many assertions for request case", requestCase, false)
  else do
    let res ← parser.consume .body "expected 'body'"
    if !res.2 then
      pure (res.1, requestCase, false)
    else
      let res ← res.1.consume .contains "expected 'contains' after 'body'"
      if !res.2 then
        pure (res.1, requestCase, false)
      else
        let res ← res.1.consume .string "expected string after 'body contains'"
        if !res.2 then
          pure (res.1, requestCase, false)
        else
          let data ← strdup res.1.previousStr
          let str ← Heap.read res.1.previousStr
          let requestCase ← requestCase.addAssertion (.bodyContains data (strlen str))
          match data with
          | none =>
            pure (res.1.parserError "out of memory while copying body assertion", requestCase, false)
          | some _ => pure (res.1, requestCase, true)

def parseHeaderAssertion : AssertionParse :=
  if requestCase.assertions.length ≥ maxCaseAssertions then
    pure (parser.parserError "too many assertions for request case", requestCase, false)
  else do
    let res ← parser.consume .header "expected 'header'"
    if !res.2 then
      pure (res.1, requestCase, false)
    else
      let res ← res.1.consume .ident "expected header name after 'header'"
      if !res.2 then
        pure (res.1, requestCase, false)
      else
        let headerName ← strdup res.1.previousStr
        match headerName with
        | none =>
          pure (res.1.parserError "out of memory while copying header name", requestCase, false)
        | some name =>
          if !(res.1.check .ident || res.1.check .string || res.1.check .int) then
            Heap.delete (some name)
            pure (res.1.parserError "expected header value after header name", requestCase, false)
          else
            let parser ← res.1.advance
            let headerValue ← strdup parser.previousStr
            match headerValue with
            | none =>
              Heap.delete (some name)
              pure (parser.parserError "out of memory while copying header value", requestCase, false)
            | some value =>
              let requestCase ← requestCase.addAssertion (.headerContains (some name) (some value))
              pure (parser, requestCase, true)

def parseAssertion : AssertionParse :=
  if parser.check .status then
    parseStatusAssertion parser requestCase
  else if parser.check .body then
    parseBodyAssertion parser requestCase
  else if parser.check .header then
    parseHeaderAssertion parser requestCase
  else
    pure (parser.parserError "expected assertion type: status, body, or header", requestCase, false)

end Assertions

section Statements

variable (parser : DslParser) (plan : RunPlan)

abbrev StatementParse := HeapProg (DslParser × RunPlan × Bool)

-- The end of every statement.
def finishStatement (message : String) : StatementParse :=
  if parser.check .newline then do
    let parser ← parser.advance
    pure (parser, plan, true)
  else if parser.check .eof then
    pure (parser, plan, true)
  else
    pure (parser.parserError message, plan, false)

def parseBodyStmt : StatementParse :=
  match plan.cases.getLast? with
  | none => pure (parser.parserError "BODY must appear after a request statement", plan, false)
  | some requestCase => do
    let res ← parser.consume .bodyStmt "expected BODY"
    if !res.2 then
      pure (res.1, plan, false)
    else
      let res ← res.1.consume .bodyRaw "expected body value after BODY"
      if !res.2 then
        pure (res.1, plan, false)
      else
        Heap.delete requestCase.body
        let body ← strdup res.1.previousStr
        match body with
        | none =>
          let plan := plan.setLastCase { requestCase with body := none }
          pure (res.1.parserError "out of memory while copying request body", plan, false)
        | some text =>
          let requestCase := { requestCase with body := some text, bodyLen := strlen text.val }
          finishStatement res.1 (plan.setLastCase requestCase) "expected newline after BODY statement"

-- A case counts only after its URL is copied.
def parseRequestStmt : StatementParse :=
  if plan.cases.length ≥ maxRequestCases then
    pure (parser.parserError "too many request cases", plan, false)
  else
    match parser.current.map DslToken.type with
    | none => pure (parser.parserError "expected HTTP method", plan, false)
    | some methodToken =>
      if !isMethodToken methodToken then
        pure (parser.parserError "expected HTTP method", plan, false)
      else do
        let parser ← parser.advance
        let res ← parser.consume .ident "expected URL after HTTP method"
        if !res.2 then
          pure (res.1, plan, false)
        else
          let url ← strdup res.1.previousStr
          match url with
          | none => pure (res.1.parserError "out of memory while copying URL", plan, false)
          | some url =>
            let plan ← plan.addCase {
              method := methodFromToken methodToken
              url := some url
              headers := none
              body := none
              bodyLen := 0
              assertions := []
              timeoutMs := if plan.defaultTimeoutMs > 0 then plan.defaultTimeoutMs else 5000
            }
            finishStatement res.1 plan "expected newline after request statement"

def parseExpectStmt : StatementParse :=
  match plan.cases.getLast? with
  | none =>
    pure (parser.parserError "EXPECT statement must come after a request statement", plan, false)
  | some requestCase => do
    let res ← parser.consume .expect "expected EXPECT"
    if !res.2 then
      pure (res.1, plan, false)
    else if requestCase.assertions.length ≥ maxCaseAssertions then
      pure (res.1.parserError "too many assertions for request case", plan, false)
    else
      let res ← parseAssertion res.1 requestCase
      let plan := plan.setLastCase res.2.1
      if !res.2.2 then
        pure (res.1, plan, false)
      else
        finishStatement res.1 plan "expected newline after EXPECT statement"

def parseStatement : StatementParse :=
  if parser.check .newline then do
    let parser ← parser.advance
    pure (parser, plan, true)
  else if parser.check .get || parser.check .post || parser.check .put || parser.check .delete ||
      parser.check .patch then
    parseRequestStmt parser plan
  else if parser.check .bodyStmt then
    parseBodyStmt parser plan
  else if parser.check .expect then
    parseExpectStmt parser plan
  else
    pure (parser.parserError "expected request statement or EXPECT statement", plan, false)

end Statements

/-- The loop of the parser. It leaves the heap if it does not end within `fuel` rounds. -/
def parseProgram (fuel : Nat) (parser : DslParser) (plan : RunPlan) : StatementParse :=
  match fuel with
  | 0 => failure
  | fuel + 1 =>
    if parser.check .eof then
      pure (parser, plan, !parser.hadError)
    else if parser.hadError then
      pure (parser, plan, false)
    else do
      let res ← parseStatement parser plan
      if !res.2.2 then
        pure (res.1, res.2.1, false)
      else
        parseProgram fuel res.1 res.2.1

-- A lexer gives two tokens for a byte at most, the second of them the raw body behind a `BODY`.
def parserFuel (source : Bytes) : Nat := 2 * strlen source + 3

/-- The result with the plan and the error that the caller finds. -/
def dslParseRunPlan (source : Bytes) (error : Option DslParseError)
    : HeapProg (DslParseResult × RunPlan × Option DslParseError) := do
  let plan := initRunPlan
  let parser ← dslParserCreate source error
  match parser with
  | none => pure (.error, plan, error.map (fun _ => .write (ascii "parser creation failed") 0 0))
  | some parser =>
    let res ← parseProgram (parserFuel source) parser plan
    if !res.2.2 || res.1.hadError then
      dslParserDestroy res.1
      let plan ← freeRunPlan res.2.1
      pure (.error, plan, res.1.error)
    else
      dslParserDestroy res.1
      pure (.ok, res.2.1, res.1.error)

end OnHeap
end HttpRuntime
