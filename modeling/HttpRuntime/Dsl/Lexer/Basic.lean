import HttpRuntime.Core.Models
import HttpRuntime.Lib.CType

/-!
This module contains the lexer of the DSL, `dsl_token.h` and `dsl_lexer.c`, when every allocation
succeeds.
-/

open Lib

namespace HttpRuntime

inductive DslTokenType where
  | eof
  | error
  | newline
  | get
  | post
  | put
  | delete
  | patch
  | bodyStmt
  | expect
  | status
  | header
  | body
  | contains
  | int
  | string
  | ident
  | bodyRaw
  deriving DecidableEq, Repr

structure DslToken where
  type : DslTokenType
  str : Option Bytes
  line : Nat
  column : Nat
  deriving DecidableEq, Repr

/-- `input` is what the pointer leads to, of which the first `len` bytes are the source. -/
structure DslLexer where
  input : Bytes
  len : Nat
  pos : Nat
  line : Nat
  column : Nat
  readBodyRawNext : Bool
  len_eq : len = strlen input
  pos_le : pos ≤ len

def dslStrndup (s : Bytes) (n : Nat) : Bytes := s.take n

def dslCreateLexer (input : Bytes) : DslLexer where
  input := input
  len := strlen input
  pos := 0
  line := 1
  column := 1
  readBodyRawNext := false
  len_eq := rfl
  pos_le := Nat.zero_le _

namespace DslLexer

def peek (lexer : DslLexer) : UInt8 :=
  if lexer.pos ≥ lexer.len then 0 else lexer.input.getD lexer.pos 0

theorem pos_lt_of_peek_ne_zero {lexer : DslLexer} (h : lexer.peek ≠ 0) : lexer.pos < lexer.len := by
  unfold peek at h
  split at h
  . exact absurd rfl h
  . omega

def advance (lexer : DslLexer) : DslLexer :=
  if h : lexer.peek = 0 then
    lexer
  else
    { lexer with
      pos := lexer.pos + 1
      line := if lexer.peek = 10 then lexer.line + 1 else lexer.line
      column := if lexer.peek = 10 then 1 else lexer.column + 1
      pos_le := pos_lt_of_peek_ne_zero h
    }

@[simp]
theorem advance_len (lexer : DslLexer) : lexer.advance.len = lexer.len := by
  unfold advance
  split <;> rfl

theorem advance_pos {lexer : DslLexer} (h : lexer.peek ≠ 0) : lexer.advance.pos = lexer.pos + 1 := by
  unfold advance
  rw [dif_neg h]

theorem pos_le_advance (lexer : DslLexer) : lexer.pos ≤ lexer.advance.pos := by
  by_cases h : lexer.peek = 0
  . unfold advance
    rw [dif_pos h]
  . rw [advance_pos h]
    omega

/-- The loops of the scanners. None of them goes on at the end of the source. -/
def advanceWhile (p : UInt8 → Bool) (hp : p 0 = false) (lexer : DslLexer) : DslLexer :=
  if _h : p lexer.peek = true then advanceWhile p hp lexer.advance else lexer
termination_by lexer.len - lexer.pos
decreasing_by
  have hpeek : lexer.peek ≠ 0 := by
    intro heq
    rw [heq, hp] at _h
    cases _h
  have := pos_lt_of_peek_ne_zero hpeek
  rw [advance_len, advance_pos hpeek]
  omega

variable {p : UInt8 → Bool} {hp : p 0 = false}

@[simp]
theorem advanceWhile_len (lexer : DslLexer) : (lexer.advanceWhile p hp).len = lexer.len := by
  fun_induction advanceWhile p hp lexer with
  | case1 lexer h ih => rw [ih, advance_len]
  | case2 => rfl

theorem pos_le_advanceWhile (p : UInt8 → Bool) (hp : p 0 = false) (lexer : DslLexer)
    : lexer.pos ≤ (lexer.advanceWhile p hp).pos := by
  fun_induction advanceWhile p hp lexer with
  | case1 lexer h ih =>
    have := pos_le_advance lexer
    omega
  | case2 => exact Nat.le_refl _

theorem pos_lt_advanceWhile (hp : p 0 = false) {lexer : DslLexer} (h : p lexer.peek = true)
    : lexer.pos < (lexer.advanceWhile p hp).pos := by
  have hpeek : lexer.peek ≠ 0 := by
    intro heq
    rw [heq, hp] at h
    cases h
  have := pos_le_advanceWhile p hp lexer.advance
  rw [advance_pos hpeek] at this
  rw [advanceWhile, dif_pos h]
  omega

def skipSpacesAndTabs (lexer : DslLexer) : DslLexer :=
  lexer.advanceWhile (fun c => c == 32 || c == 9 || c == 13) rfl

end DslLexer

def isIdentStart (c : UInt8) : Bool :=
  isalpha c || c == 95 || c == 45 || c == 58 || c == 47 || c == 46

def isIdentChar (c : UInt8) : Bool :=
  isalnum c || c == 95 || c == 45 || c == 58 || c == 47 || c == 46 || c == 63 || c == 38 ||
    c == 61 || c == 37 || c == 35

def keywordType (word : Bytes) : DslTokenType :=
  if word = ascii "GET" then .get
  else if word = ascii "POST" then .post
  else if word = ascii "PUT" then .put
  else if word = ascii "DELETE" then .delete
  else if word = ascii "PATCH" then .patch
  else if word = ascii "EXPECT" then .expect
  else if word = ascii "status" then .status
  else if word = ascii "header" then .header
  else if word = ascii "body" then .body
  else if word = ascii "contains" then .contains
  else if word = ascii "BODY" then .bodyStmt
  else .ident

namespace DslLexer

def scanNumber (lexer : DslLexer) : DslToken × DslLexer :=
  let next := lexer.advanceWhile isdigit (by decide)
  let num := dslStrndup (lexer.input.drop lexer.pos) (next.pos - lexer.pos)
  (⟨.int, some num, lexer.line, lexer.column⟩, next)

def scanIdentifier (lexer : DslLexer) : DslToken × DslLexer :=
  let next := lexer.advanceWhile isIdentChar (by decide)
  let word := dslStrndup (lexer.input.drop lexer.pos) (next.pos - lexer.pos)
  let type := keywordType word
  let next := if type = .bodyStmt then { next with readBodyRawNext := true } else next
  (⟨type, some word, lexer.line, lexer.column⟩, next)

def scanString (lexer : DslLexer) : DslToken × DslLexer :=
  let opened := lexer.advance
  let next := opened.advanceWhile (fun c => c != 34 && c != 0 && c != 10) rfl
  if next.peek ≠ 34 then
    (⟨.error, some (ascii "unterminated string"), lexer.line, lexer.column⟩, next)
  else
    let str := dslStrndup (lexer.input.drop opened.pos) (next.pos - opened.pos)
    (⟨.string, some str, lexer.line, lexer.column⟩, next.advance)

-- The text ends before the spaces and tabs at the end of the line.
def scanBodyRaw (lexer : DslLexer) : DslToken × DslLexer :=
  let start := lexer.advanceWhile (fun c => c == 32 || c == 9) rfl
  let next := start.advanceWhile (fun c => c != 0 && c != 10 && c != 13) rfl
  let text := dslStrndup (lexer.input.drop start.pos) (next.pos - start.pos)
  let raw := (text.reverse.dropWhile (fun c => c == 32 || c == 9)).reverse
  (⟨.bodyRaw, some raw, lexer.line, start.column⟩, next)

-- The loop over a comment.
def skipComment (lexer : DslLexer) : DslLexer :=
  lexer.advanceWhile (fun c => c != 0 && c != 10) rfl

theorem skipComment_lt (lexer : DslLexer) (h : lexer.skipSpacesAndTabs.peek = 35)
    : lexer.skipSpacesAndTabs.skipComment.len - lexer.skipSpacesAndTabs.skipComment.pos <
        lexer.len - lexer.pos := by
  have hskip : lexer.pos ≤ lexer.skipSpacesAndTabs.pos := pos_le_advanceWhile _ _ lexer
  have hcomment : lexer.skipSpacesAndTabs.pos < lexer.skipSpacesAndTabs.skipComment.pos := by
    apply pos_lt_advanceWhile
    rw [h]
    decide
  have hlen : lexer.skipSpacesAndTabs.skipComment.len = lexer.len := by
    unfold skipComment skipSpacesAndTabs
    rw [advanceWhile_len, advanceWhile_len]
  have := lexer.skipSpacesAndTabs.skipComment.pos_le
  omega

end DslLexer

/-- After a comment the search goes on with the newline behind it. -/
def dslLexerNextToken (lexer : DslLexer) : DslToken × DslLexer :=
  let start := lexer.skipSpacesAndTabs
  let c := start.peek
  if start.readBodyRawNext then
    { start with readBodyRawNext := false }.scanBodyRaw
  else if c = 0 then
    (⟨.eof, none, start.line, start.column⟩, start)
  else if c = 10 then
    (⟨.newline, some (ascii "\\n"), start.line, start.column⟩, start.advance)
  else if c = 34 then
    start.scanString
  else if isdigit c then
    start.scanNumber
  else if isIdentStart c then
    start.scanIdentifier
  else if _hc : c = 35 then
    dslLexerNextToken start.skipComment
  else
    let msg := ascii "unexpected character '" ++ [c] ++ ascii "'"
    (⟨.error, some msg, start.line, start.column⟩, start.advance)
termination_by lexer.len - lexer.pos
decreasing_by exact lexer.skipComment_lt _hc

end HttpRuntime
