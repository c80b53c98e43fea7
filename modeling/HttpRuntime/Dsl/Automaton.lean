import HttpRuntime.Dsl.Parser.Basic
import HttpRuntime.Lib.Automaton

/-!
This module contains the programs of the DSL as the language of an automaton with two counters, and
what is to be said about the token at which it stops.
-/

open Lib Lib.Automaton

namespace HttpRuntime

inductive StatementKind where
  | request
  | body
  | expect
  deriving DecidableEq, Repr

/-- What comes next in a line. -/
inductive Place where
  | line
  | url
  | raw
  | assertion
  | code
  | contains
  | text
  | name
  | value
  | lineEnd (kind : StatementKind)
  | finished
  deriving DecidableEq, Repr

/-- `assertions` counts the expectations of the last case. -/
structure Config where
  place : Place
  cases : Nat
  assertions : Nat
  deriving DecidableEq, Repr

namespace Config

def start : Config where
  place := .line
  cases := 0
  assertions := 0

def goto (c : Config) (place : Place) : Config := { c with place := place }

@[simp]
theorem goto_goto (c : Config) (place place' : Place) : (c.goto place).goto place' = c.goto place' := rfl

def want (c : Config) (type wanted : DslTokenType) (place : Place) : Option Config :=
  if type = wanted then some (c.goto place) else none

def nextStatement (c : Config) (type : DslTokenType) : Option Config :=
  if isMethodToken type then
    if c.cases < maxRequestCases then some ⟨.url, c.cases + 1, 0⟩ else none
  else if type = .bodyStmt then
    if c.cases = 0 then none else some (c.goto .raw)
  else if type = .expect then
    if c.cases = 0 ∨ c.assertions ≥ maxCaseAssertions then none
    else some ⟨.assertion, c.cases, c.assertions + 1⟩
  else
    none

def next (c : Config) (type : DslTokenType) : Option Config :=
  match c.place with
  | .line =>
    if type = .newline then some c
    else if type = .eof then some (c.goto .finished)
    else c.nextStatement type
  | .url => c.want type .ident (.lineEnd .request)
  | .raw => c.want type .bodyRaw (.lineEnd .body)
  | .assertion =>
    if type = .status then some (c.goto .code)
    else if type = .body then some (c.goto .contains)
    else if type = .header then some (c.goto .name)
    else none
  | .code => c.want type .int (.lineEnd .expect)
  | .contains => c.want type .contains .text
  | .text => c.want type .string (.lineEnd .expect)
  | .name => c.want type .ident .value
  | .value =>
    if type = .ident || type = .string || type = .int then some (c.goto (.lineEnd .expect)) else none
  | .lineEnd _ =>
    if type = .newline then some (c.goto .line)
    else if type = .eof then some (c.goto .finished)
    else none
  | .finished => none

def read (c : Config) (t : DslToken) : Option Config := c.next t.type

-- There is no room for the expectation that begins here.
def full (c : Config) (type : DslTokenType) : Bool :=
  c.place = .line && type = .expect && c.cases ≠ 0

def complaint (c : Config) (type : DslTokenType) : String :=
  match c.place with
  | .line =>
    if isMethodToken type then "too many request cases"
    else if type = .bodyStmt then "BODY must appear after a request statement"
    else if type = .expect then
      if c.cases = 0 then "EXPECT statement must come after a request statement"
      else "too many assertions for request case"
    else "expected request statement or EXPECT statement"
  | .url => "expected URL after HTTP method"
  | .raw => "expected body value after BODY"
  | .assertion => "expected assertion type: status, body, or header"
  | .code => "expected status code after 'status'"
  | .contains => "expected 'contains' after 'body'"
  | .text => "expected string after 'body contains'"
  | .name => "expected header name after 'header'"
  | .value => "expected header value after header name"
  | .lineEnd .request => "expected newline after request statement"
  | .lineEnd .body => "expected newline after BODY statement"
  | .lineEnd .expect => "expected newline after EXPECT statement"
  | .finished => "parse error"

-- An expectation without room is noticed at the token behind its first word.
def blamed (c : Config) (t : DslToken) (after : List DslToken) : DslToken :=
  if c.full t.type then after.headD t else t

/-- The error of a program whose first wrong token is `t`. What the lexer says comes first. -/
def diagnose (c : Config) (t : DslToken) (after : List DslToken) : DslParseError :=
  let token := c.blamed t after
  let message :=
    if token.type = .error then token.str.getD (ascii "lexer error") else ascii (c.complaint t.type)
  .write message token.line token.column

end Config

end HttpRuntime
