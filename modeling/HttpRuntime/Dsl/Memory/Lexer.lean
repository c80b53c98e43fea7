import HttpRuntime.Dsl.Lexer.Tokens
import HttpRuntime.Lib.Heap
import Mathlib.Data.List.DropRight

/-!
This module contains the lexer of the DSL on a heap, where the copy of a text may be refused, and why
its tokens stand for those of `Dsl.Lexer.Basic` until it gives up.
-/

open Lib

namespace HttpRuntime
namespace OnHeap

/-- Only the end, a newline and an error may come without a text. -/
structure DslToken where
  type : DslTokenType
  str : Ptr Bytes
  line : Nat
  column : Nat
  str_ne : type ≠ .eof → type ≠ .newline → type ≠ .error → str ≠ none

-- A token with a text.
def makeToken (type : DslTokenType) (str : Boxed Bytes) (line column : Nat) : DslToken :=
  ⟨type, some str, line, column, fun _ _ _ => Option.some_ne_none str⟩

def dslStrndup (s : Bytes) (n : Nat) : HeapProg (Ptr Bytes) := Heap.new (s.take n)

def makeErrorToken (message : Bytes) (line column : Nat) : HeapProg DslToken := do
  let str ← dslStrndup message (strlen message)
  pure ⟨.error, str, line, column, fun _ _ herror => absurd rfl herror⟩

section Scan

-- No loop of the lexer goes on at the end of the source.

theorem isdigit_zero : isdigit 0 = false := by decide

theorem isIdentChar_zero : isIdentChar 0 = false := by decide

theorem inQuotes_zero : (fun c : UInt8 => c != 34 && c != 0 && c != 10) 0 = false := by decide

theorem isSpace_zero : (fun c : UInt8 => c == 32 || c == 9) 0 = false := by decide

theorem inBody_zero : (fun c : UInt8 => c != 0 && c != 10 && c != 13) 0 = false := by decide

variable (lexer : DslLexer)

def scanNumber : HeapProg (DslToken × DslLexer) := do
  let next := lexer.advanceWhile isdigit isdigit_zero
  let num ← dslStrndup (lexer.input.drop lexer.pos) (next.pos - lexer.pos)
  match num with
  | none =>
    let token ← makeErrorToken (ascii "out of memory") lexer.line lexer.column
    pure (token, next)
  | some num => pure (makeToken .int num lexer.line lexer.column, next)

def scanIdentifier : HeapProg (DslToken × DslLexer) := do
  let next := lexer.advanceWhile isIdentChar isIdentChar_zero
  let word ← dslStrndup (lexer.input.drop lexer.pos) (next.pos - lexer.pos)
  match word with
  | none =>
    let token ← makeErrorToken (ascii "out of memory") lexer.line lexer.column
    pure (token, next)
  | some word =>
    let type := keywordType word.val
    let next := if type = .bodyStmt then { next with readBodyRawNext := true } else next
    pure (makeToken type word lexer.line lexer.column, next)

def scanString : HeapProg (DslToken × DslLexer) := do
  let opened := lexer.advance
  let next := opened.advanceWhile (fun c => c != 34 && c != 0 && c != 10) inQuotes_zero
  if next.peek ≠ 34 then
    let token ← makeErrorToken (ascii "unterminated string") lexer.line lexer.column
    pure (token, next)
  else
    let str ← dslStrndup (lexer.input.drop opened.pos) (next.pos - opened.pos)
    match str with
    | none =>
      let token ← makeErrorToken (ascii "out of memory") lexer.line lexer.column
      pure (token, next.advance)
    | some str => pure (makeToken .string str lexer.line lexer.column, next.advance)

def scanBodyRaw : HeapProg (DslToken × DslLexer) := do
  let start := lexer.advanceWhile (fun c => c == 32 || c == 9) isSpace_zero
  let next := start.advanceWhile (fun c => c != 0 && c != 10 && c != 13) inBody_zero
  let text := (lexer.input.drop start.pos).take (next.pos - start.pos)
  let raw ← dslStrndup text (text.rdropWhile (fun c => c == 32 || c == 9)).length
  match raw with
  | none =>
    let token ← makeErrorToken (ascii "out of memory") lexer.line start.column
    pure (token, next)
  | some raw => pure (makeToken .bodyRaw raw lexer.line start.column, next)

end Scan

/-- The copy of a newline is not checked. -/
def dslLexerNextToken (lexer : DslLexer) : HeapProg (DslToken × DslLexer) :=
  let start := lexer.skipSpacesAndTabs
  let c := start.peek
  if start.readBodyRawNext then
    scanBodyRaw { start with readBodyRawNext := false }
  else if c = 0 then
    pure (⟨.eof, none, start.line, start.column, fun heof => absurd rfl heof⟩, start)
  else if c = 10 then do
    let str ← dslStrndup (ascii "\\n") 2
    pure (⟨.newline, str, start.line, start.column, fun _ hnewline => absurd rfl hnewline⟩, start.advance)
  else if c = 34 then
    scanString start
  else if isdigit c then
    scanNumber start
  else if isIdentStart c then
    scanIdentifier start
  else if _hc : c = 35 then
    dslLexerNextToken start.skipComment
  else do
    let msg := ascii "unexpected character '" ++ [c] ++ ascii "'"
    let token ← makeErrorToken msg start.line start.column
    pure (token, start.advance)
termination_by lexer.len - lexer.pos
decreasing_by exact lexer.skipComment_lt _hc

def dslFreeToken (token : DslToken) : HeapProg Unit := Heap.delete token.str

section Stands

def DslToken.blocks (token : DslToken) : Multiset Nat := token.str.blocks

/-- The token is the one that the lexer would make if it had all the memory. -/
structure DslToken.Stands (refuses : Nat → Bool) (token : DslToken) (token' : HttpRuntime.DslToken)
    : Prop where
  type : token.type = token'.type
  line : token.line = token'.line
  column : token.column = token'.column
  str : token.str.val = token'.str ∨ token.str = none ∧ ∃ k, refuses k = true

/-- What a scan may give: the token that it should give, or an error for the lack of memory. -/
def Scanned (refuses : Nat → Bool) (bs : Multiset Nat) (res' : HttpRuntime.DslToken × DslLexer)
    (res : DslToken × DslLexer) (bs' : Multiset Nat) : Prop :=
  bs' = res.1.blocks + bs ∧
    (res.1.Stands refuses res'.1 ∧ res.2 = res'.2 ∨ res.1.type = .error ∧ ∃ k, refuses k = true)

variable {refuses : Nat → Bool} {bs : Multiset Nat} {res' : HttpRuntime.DslToken × DslLexer}

theorem triple_dslStrndup (s : Bytes) (n : Nat) (bs : Multiset Nat)
    : Heap.Triple refuses bs (dslStrndup s n) fun p bs' =>
        bs' = p.blocks + bs ∧ (p.val = some (s.take n) ∨ p = none ∧ ∃ k, refuses k = true) :=
  Heap.triple_new _ bs

theorem triple_makeErrorToken {message : Bytes} (hmessage : 0 ∉ message) (line column : Nat)
    (next : DslLexer)
    : Heap.Triple refuses bs
        (do
          let token ← makeErrorToken message line column
          pure (token, next))
        (Scanned refuses bs (⟨.error, some message, line, column⟩, next)) := by
  unfold makeErrorToken
  rw [bind_assoc]
  apply (triple_dslStrndup _ _ bs).bind
  rintro p _ ⟨rfl, hp⟩
  rw [strlen_of_not_mem hmessage, List.take_length] at hp
  apply Heap.Triple.pure
  exact ⟨rfl, Or.inl ⟨⟨rfl, rfl, rfl, hp⟩, rfl⟩⟩

theorem triple_outOfMemory (hrefused : ∃ k, refuses k = true) (line column : Nat) (next : DslLexer)
    : Heap.Triple refuses bs
        (do
          let token ← makeErrorToken (ascii "out of memory") line column
          pure (token, next))
        (Scanned refuses bs res') := by
  have hmessage : 0 ∉ ascii "out of memory" := by decide
  apply (triple_makeErrorToken hmessage line column next).mono
  rintro ⟨token, next'⟩ bs' ⟨hbs, htoken⟩
  refine ⟨hbs, Or.inr ⟨?_, hrefused⟩⟩
  cases htoken with
  | inl hstands => exact hstands.1.type
  | inr herror => exact herror.1

/-- The end of every scan that copies a text. -/
theorem triple_copied {s : Bytes} {n : Nat} {err : HeapProg (DslToken × DslLexer)}
    {ok : Boxed Bytes → HeapProg (DslToken × DslLexer)}
    (herr : (∃ k, refuses k = true) → Heap.Triple refuses bs err (Scanned refuses bs res'))
    (hok : ∀ b, Heap.Triple refuses ({b} + bs) (ok ⟨b, s.take n⟩) (Scanned refuses bs res'))
    : Heap.Triple refuses bs
        (do
          let p ← dslStrndup s n
          match p with
          | none => err
          | some x => ok x)
        (Scanned refuses bs res') := by
  apply (triple_dslStrndup s n bs).bind
  rintro p _ ⟨rfl, hp⟩
  cases p with
  | none =>
    cases hp with
    | inl hval => cases hval
    | inr hnone => exact (herr hnone.2).congr (zero_add bs)
  | some x =>
    cases hp with
    | inl hval =>
      obtain ⟨b, val⟩ := x
      cases hval
      exact hok b
    | inr hnone => cases hnone.1

theorem triple_scanNumber (lexer : DslLexer)
    : Heap.Triple refuses bs (scanNumber lexer) (Scanned refuses bs lexer.scanNumber) := by
  unfold scanNumber DslLexer.scanNumber
  apply triple_copied
  . intro hrefused
    exact triple_outOfMemory hrefused _ _ _
  . intro b
    apply Heap.Triple.pure
    exact ⟨rfl, Or.inl ⟨⟨rfl, rfl, rfl, Or.inl rfl⟩, rfl⟩⟩

theorem triple_scanIdentifier (lexer : DslLexer)
    : Heap.Triple refuses bs (scanIdentifier lexer) (Scanned refuses bs lexer.scanIdentifier) := by
  unfold scanIdentifier DslLexer.scanIdentifier
  apply triple_copied
  . intro hrefused
    exact triple_outOfMemory hrefused _ _ _
  . intro b
    apply Heap.Triple.pure
    exact ⟨rfl, Or.inl ⟨⟨rfl, rfl, rfl, Or.inl rfl⟩, rfl⟩⟩

theorem triple_scanString (lexer : DslLexer)
    : Heap.Triple refuses bs (scanString lexer) (Scanned refuses bs lexer.scanString) := by
  unfold scanString DslLexer.scanString
  dsimp only
  split
  . exact triple_makeErrorToken (by decide) _ _ _
  . apply triple_copied
    . intro hrefused
      exact triple_outOfMemory hrefused _ _ _
    . intro b
      apply Heap.Triple.pure
      exact ⟨rfl, Or.inl ⟨⟨rfl, rfl, rfl, Or.inl rfl⟩, rfl⟩⟩

theorem triple_scanBodyRaw (lexer : DslLexer)
    : Heap.Triple refuses bs (scanBodyRaw lexer) (Scanned refuses bs lexer.scanBodyRaw) := by
  unfold scanBodyRaw DslLexer.scanBodyRaw
  apply triple_copied
  . intro hrefused
    exact triple_outOfMemory hrefused _ _ _
  . intro b
    apply Heap.Triple.pure
    refine ⟨rfl, Or.inl ⟨⟨rfl, rfl, rfl, Or.inl ?_⟩, rfl⟩⟩
    have htrimmed (text : Bytes)
        : text.take (text.rdropWhile (fun c => c == 32 || c == 9)).length =
            text.rdropWhile (fun c => c == 32 || c == 9) :=
      (List.prefix_iff_eq_take.mp (List.rdropWhile_prefix _ text)).symm
    unfold makeToken
    rw [Ptr.val_some, htrimmed]
    rfl

theorem triple_dslLexerNextToken (lexer : DslLexer)
    : Heap.Triple refuses bs (dslLexerNextToken lexer)
        (Scanned refuses bs (HttpRuntime.dslLexerNextToken lexer)) := by
  fun_induction HttpRuntime.dslLexerNextToken lexer with
  | case1 lexer start hraw =>
    rw [dslLexerNextToken, if_pos hraw]
    exact triple_scanBodyRaw _
  | case2 lexer start c hraw heof =>
    rw [dslLexerNextToken, if_neg hraw, if_pos heof]
    apply Heap.Triple.pure
    exact ⟨(zero_add bs).symm, Or.inl ⟨⟨rfl, rfl, rfl, Or.inl rfl⟩, rfl⟩⟩
  | case3 lexer start c hraw heof hnewline =>
    rw [dslLexerNextToken, if_neg hraw, if_neg heof, if_pos hnewline]
    apply (triple_dslStrndup _ _ bs).bind
    rintro p _ ⟨rfl, hp⟩
    apply Heap.Triple.pure
    exact ⟨rfl, Or.inl ⟨⟨rfl, rfl, rfl, hp⟩, rfl⟩⟩
  | case4 lexer start c hraw heof hnewline hquote =>
    rw [dslLexerNextToken, if_neg hraw, if_neg heof, if_neg hnewline, if_pos hquote]
    exact triple_scanString _
  | case5 lexer start c hraw heof hnewline hquote hdigit =>
    rw [dslLexerNextToken, if_neg hraw, if_neg heof, if_neg hnewline, if_neg hquote, if_pos hdigit]
    exact triple_scanNumber _
  | case6 lexer start c hraw heof hnewline hquote hdigit hident =>
    rw [dslLexerNextToken, if_neg hraw, if_neg heof, if_neg hnewline, if_neg hquote, if_neg hdigit,
      if_pos hident]
    exact triple_scanIdentifier _
  | case7 lexer start c hraw heof hnewline hquote hdigit hident hcomment ih =>
    rw [dslLexerNextToken, if_neg hraw, if_neg heof, if_neg hnewline, if_neg hquote, if_neg hdigit,
      if_neg hident, dif_pos hcomment]
    exact ih
  | case8 lexer start c hraw heof hnewline hquote hdigit hident hcomment msg =>
    rw [dslLexerNextToken, if_neg hraw, if_neg heof, if_neg hnewline, if_neg hquote, if_neg hdigit,
      if_neg hident, dif_neg hcomment]
    have hstart : 0 ∉ ascii "unexpected character '" := by decide
    have hend : 0 ∉ ascii "'" := by decide
    apply triple_makeErrorToken
    rw [List.mem_append, List.mem_append, List.mem_singleton]
    rintro ((hmem | hmem) | hmem)
    . exact hstart hmem
    . exact heof hmem.symm
    . exact hend hmem

end Stands

end OnHeap
end HttpRuntime
