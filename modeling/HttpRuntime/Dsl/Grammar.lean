import HttpRuntime.Core.RunPlan
import HttpRuntime.Dsl.Lexer.Tokens
import HttpRuntime.Lib.Sections

/-!
This module contains the grammar of the DSL over the tokens of the lexer, and what a program says:
the cases of a plan, each with the statements up to the next request.
-/

open Lib Lib.Sections

namespace HttpRuntime

namespace Grammar

structure RequestLine where
  method : Method
  url : Bytes

inductive Expect where
  | status (digits : Bytes)
  | bodyContains (text : Bytes)
  | header (name value : Bytes)

inductive Clause where
  | body (text : Bytes)
  | expect (e : Expect)

abbrev Statement := RequestLine ⊕ Clause

def Clause.expect? (clause : Clause) : Option Expect :=
  match clause with
  | .body _ => none
  | .expect e => some e

def Clause.body? (clause : Clause) : Option Bytes :=
  match clause with
  | .body text => some text
  | .expect _ => none

inductive MethodWord : DslTokenType → Method → Prop where
  | get : MethodWord .get .get
  | post : MethodWord .post .post
  | put : MethodWord .put .put
  | delete : MethodWord .delete .delete
  | patch : MethodWord .patch .patch

inductive ValueWord : DslTokenType → Prop where
  | ident : ValueWord .ident
  | string : ValueWord .string
  | int : ValueWord .int

/-- An expectation in front of the tokens, behind the word `EXPECT`. -/
inductive Asserts : List DslToken → Expect → List DslToken → Prop where
  | status {t v : DslToken} {digits : Bytes} {rest : List DslToken} (ht : t.type = .status)
      (hv : v.type = .int) (hdigits : v.str = some digits)
    : Asserts (t :: v :: rest) (.status digits) rest
  | bodyContains {t u v : DslToken} {text : Bytes} {rest : List DslToken} (ht : t.type = .body)
      (hu : u.type = .contains) (hv : v.type = .string) (htext : v.str = some text)
    : Asserts (t :: u :: v :: rest) (.bodyContains text) rest
  | header {t u v : DslToken} {name value : Bytes} {rest : List DslToken} (ht : t.type = .header)
      (hu : u.type = .ident) (hname : u.str = some name) (hv : ValueWord v.type)
      (hvalue : v.str = some value)
    : Asserts (t :: u :: v :: rest) (.header name value) rest

/-- A statement in front of the tokens, and the tokens behind it. -/
inductive Spells : List DslToken → Statement → List DslToken → Prop where
  | request {t u : DslToken} {method : Method} {url : Bytes} {rest : List DslToken}
      (ht : MethodWord t.type method) (hu : u.type = .ident) (hurl : u.str = some url)
    : Spells (t :: u :: rest) (.inl ⟨method, url⟩) rest
  | body {t u : DslToken} {text : Bytes} {rest : List DslToken} (ht : t.type = .bodyStmt)
      (hu : u.type = .bodyRaw) (htext : u.str = some text)
    : Spells (t :: u :: rest) (.inr (.body text)) rest
  | expect {t : DslToken} {ts : List DslToken} {e : Expect} {rest : List DslToken}
      (ht : t.type = .expect) (he : Asserts ts e rest)
    : Spells (t :: ts) (.inr (.expect e)) rest

/-- The end of a statement: a newline, or the end of the source, which stays where it is. -/
inductive Ends : List DslToken → List DslToken → Prop where
  | newline {t : DslToken} {rest : List DslToken} (ht : t.type = .newline) : Ends (t :: rest) rest
  | eof {t : DslToken} (ht : t.type = .eof) : Ends [t] [t]

inductive Program : List DslToken → List Statement → Prop where
  | eof {t : DslToken} (ht : t.type = .eof) : Program [t] []
  | blank {t : DslToken} {ts : List DslToken} {stmts : List Statement} (ht : t.type = .newline)
      (hrest : Program ts stmts)
    : Program (t :: ts) stmts
  | statement {ts rest ts' : List DslToken} {stmt : Statement} {stmts : List Statement}
      (hstmt : Spells ts stmt rest) (hend : Ends rest ts') (hrest : Program ts' stmts)
    : Program ts (stmt :: stmts)

def expects (clauses : List Clause) : List Expect := clauses.filterMap Clause.expect?

def lastBody (clauses : List Clause) : Option Bytes := (clauses.filterMap Clause.body?).getLast?

/-- A status literal that does not fit in an `int` says nothing about the number. -/
inductive Means : Expect → Assertion → Prop where
  | status {digits : Bytes} {n : Int} (hfit : digitsValue digits < 2 ^ 31 → n = digitsValue digits)
    : Means (.status digits) ⟨.statusEq, .int n⟩
  | bodyContains {text : Bytes}
    : Means (.bodyContains text) ⟨.bodyContains, .bytes (some text) text.length⟩
  | header {name value : Bytes}
    : Means (.header name value) ⟨.headerContains, .header ⟨some name, some value⟩⟩

structure CaseOf (sec : RequestLine × List Clause) (requestCase : RequestCase) : Prop where
  method : requestCase.method = sec.1.method
  url : requestCase.url = some sec.1.url
  headers : requestCase.headers = none
  body : requestCase.body = lastBody sec.2
  bodyLen : requestCase.bodyLen = ((lastBody sec.2).map List.length).getD 0
  timeoutMs : requestCase.timeoutMs = 5000
  assertions : List.Forall₂ Means (expects sec.2) requestCase.assertions

structure Fits (stmts : List Statement) : Prop where
  leading : leading stmts = []
  cases : (sections stmts).length ≤ maxRequestCases
  assertions : ∀ sec ∈ sections stmts, (expects sec.2).length ≤ maxCaseAssertions

section Unambiguous

variable {ts rest rest' : List DslToken}

theorem MethodWord.unique {type : DslTokenType} {m m' : Method} (h : MethodWord type m)
    (h' : MethodWord type m') : m = m' := by
  cases h <;> cases h' <;> rfl

theorem Asserts.unique {e e' : Expect} (h : Asserts ts e rest)
    (h' : Asserts ts e' rest') : e = e' ∧ rest = rest' := by
  cases h with
  | status ht hv hdigits =>
    cases h' with
    | status _ _ hdigits' => grind
    | bodyContains ht' => grind
    | header ht' => grind
  | bodyContains ht hu hv htext =>
    cases h' with
    | status ht' => grind
    | bodyContains _ _ _ htext' => grind
    | header ht' => grind
  | header ht hu hname hv hvalue =>
    cases h' with
    | status ht' => grind
    | bodyContains ht' => grind
    | header _ _ hname' _ hvalue' => grind

theorem MethodWord.ne {type : DslTokenType} {m : Method} (h : MethodWord type m)
    : type ≠ .bodyStmt ∧ type ≠ .expect ∧ type ≠ .newline ∧ type ≠ .eof ∧ type ≠ .error := by
  cases h <;> decide

theorem Spells.unique {stmt stmt' : Statement} (h : Spells ts stmt rest)
    (h' : Spells ts stmt' rest') : stmt = stmt' ∧ rest = rest' := by
  cases h with
  | request ht hu hurl =>
    have hne := ht.ne
    cases h' with
    | request ht' _ hurl' =>
      have := ht.unique ht'
      grind
    | body ht' => exact absurd ht' hne.1
    | expect ht' => exact absurd ht' hne.2.1
  | body ht hu htext =>
    cases h' with
    | request ht' => exact absurd ht ht'.ne.1
    | body _ _ htext' => grind
    | expect ht' => grind
  | expect ht he =>
    cases h' with
    | request ht' => exact absurd ht ht'.ne.2.1
    | body ht' => grind
    | expect _ he' =>
      have := he.unique he'
      grind

theorem Ends.unique (h : Ends ts rest) (h' : Ends ts rest') : rest = rest' := by
  cases h with
  | newline ht =>
    cases h' with
    | newline => rfl
    | eof ht' => grind
  | eof ht =>
    cases h' with
    | newline ht' => grind
    | eof => rfl

theorem Spells.head_ne {t : DslToken} {stmt : Statement} (h : Spells (t :: ts) stmt rest)
    : t.type ≠ .newline ∧ t.type ≠ .eof := by
  cases h with
  | request ht => exact ⟨ht.ne.2.2.1, ht.ne.2.2.2.1⟩
  | body ht => exact ⟨by grind, by grind⟩
  | expect ht => exact ⟨by grind, by grind⟩

theorem Asserts.suffix {e : Expect} (h : Asserts ts e rest) : rest <:+ ts := by
  cases h with
  | @status t v _ rest => exact List.suffix_append [t, v] rest
  | @bodyContains t u v _ rest => exact List.suffix_append [t, u, v] rest
  | @header t u v _ _ rest => exact List.suffix_append [t, u, v] rest

theorem Spells.suffix {stmt : Statement} (h : Spells ts stmt rest) : rest <:+ ts := by
  cases h with
  | @request t u _ _ rest => exact List.suffix_append [t, u] rest
  | @body t u _ rest => exact List.suffix_append [t, u] rest
  | expect ht he => exact he.suffix.trans (List.suffix_cons _ _)

theorem Ends.suffix (h : Ends ts rest) : rest <:+ ts := by
  cases h with
  | newline ht => exact List.suffix_cons _ _
  | eof ht => exact List.suffix_refl _

end Unambiguous

end Grammar

end HttpRuntime
