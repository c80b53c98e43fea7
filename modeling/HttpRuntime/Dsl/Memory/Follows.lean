import HttpRuntime.Dsl.Memory.Parser
import Mathlib.Data.Option.Basic
import Mathlib.Tactic.Abel

/-!
This module contains what it means that a part of the parser on a heap does what this part of the parser
of `Dsl.Parser.Basic` does. It owns the blocks of its tokens and of its result at every moment, and it
keeps to the other parser unless an allocation is refused. Then it has an error that it never loses.
-/

open Lib

namespace HttpRuntime
namespace OnHeap

namespace DslParser

def tokenBlocks (token : Option DslToken) : Multiset Nat :=
  match token with
  | none => 0
  | some token => token.blocks

def blocks (parser : DslParser) : Multiset Nat :=
  {parser.block} + {parser.lexer.block} + tokenBlocks parser.current + tokenBlocks parser.previous

/-- A parser for which an allocation was refused, and which will fail. -/
def Lost (refuses : Nat → Bool) (parser : DslParser) : Prop :=
  parser.hadError = true ∧ ∃ k, refuses k = true

structure Follows (refuses : Nat → Bool) (parser : DslParser) (parser' : HttpRuntime.DslParser)
    : Prop where
  lexer : parser.lexer.val = parser'.lexer
  current : Option.Rel (DslToken.Stands refuses) parser.current parser'.current
  previous : Option.Rel (DslToken.Stands refuses) parser.previous parser'.previous
  error : parser.error = parser'.error ∨ ∃ k, refuses k = true
  hadError : parser.hadError = parser'.hadError

variable {refuses : Nat → Bool} {bs : Multiset Nat} {parser : DslParser} {parser' : HttpRuntime.DslParser}

theorem Follows.check (h : parser.Follows refuses parser') (type : DslTokenType)
    : parser.check type = parser'.check type := by
  unfold DslParser.check HttpRuntime.DslParser.check
  have hcurrent := h.current
  generalize parser.current = token at hcurrent ⊢
  generalize parser'.current = token' at hcurrent ⊢
  cases hcurrent with
  | none => rfl
  | some hstands =>
    dsimp only
    rw [hstands.type]

theorem Follows.currentType (h : parser.Follows refuses parser')
    : parser.current.map DslToken.type = parser'.current.map HttpRuntime.DslToken.type := by
  have hcurrent := h.current
  generalize parser.current = token at hcurrent ⊢
  generalize parser'.current = token' at hcurrent ⊢
  cases hcurrent with
  | none => rfl
  | some hstands =>
    rw [Option.map_some, Option.map_some, hstands.type]

theorem Follows.previousStr (h : parser.Follows refuses parser') {s : Bytes}
    (hs : parser.previousStr.val = some s) : parser'.previousStr = some s := by
  unfold DslParser.previousStr at hs
  unfold HttpRuntime.DslParser.previousStr
  have hprevious := h.previous
  generalize parser.previous = token at hprevious hs
  generalize parser'.previous = token' at hprevious ⊢
  cases hprevious with
  | none => cases hs
  | some hstands =>
    rw [Option.bind_some] at hs ⊢
    cases hstands.str with
    | inl hval => rw [← hval, hs]
    | inr hnone =>
      rw [hnone.1] at hs
      cases hs

theorem triple_freeToken (token : Option DslToken)
    : Heap.Triple refuses (tokenBlocks token + bs) (freeToken token) fun _ bs' => bs' = bs := by
  cases token with
  | none =>
    apply Heap.Triple.pure
    exact zero_add bs
  | some token => exact Heap.triple_delete token.str bs

theorem triple_lexerMessage {str : Ptr Bytes} (hlive : str.blocks ≤ bs)
    : Heap.Triple refuses bs (lexerMessage str) fun message bs' =>
        message = str.val.getD (ascii "lexer error") ∧ bs' = bs := by
  cases str with
  | none =>
    apply Heap.Triple.pure
    exact ⟨rfl, rfl⟩
  | some x => exact Heap.triple_read rfl hlive

theorem triple_noteError {token : DslToken} (hlive : token.blocks ≤ bs)
    : Heap.Triple refuses bs (parser.noteError token) fun parser' bs' =>
        bs' = bs ∧
          parser' = if token.type = .error then
            { parser with
              hadError := true
              error := parser.error.map fun _ =>
                .write (token.str.val.getD (ascii "lexer error")) token.line token.column
            }
          else
            parser := by
  unfold noteError
  split
  . split
    . next hnone =>
      apply Heap.Triple.pure
      rw [hnone]
      exact ⟨rfl, rfl⟩
    . next error hsome =>
      apply (triple_lexerMessage hlive).bind
      rintro _ _ ⟨rfl, rfl⟩
      apply Heap.Triple.pure
      rw [hsome]
      exact ⟨rfl, rfl⟩
  . apply Heap.Triple.pure
    exact ⟨rfl, rfl⟩

theorem Follows.advanced (h : parser.Follows refuses parser') {res : DslToken × DslLexer}
    (hstands : res.1.Stands refuses (HttpRuntime.dslLexerNextToken parser'.lexer).1)
    (hlexer : res.2 = (HttpRuntime.dslLexerNextToken parser'.lexer).2)
    : Follows refuses
        (if res.1.type = .error then
          { parser with
            lexer := ⟨parser.lexer.block, res.2⟩
            current := some res.1
            previous := parser.current
            hadError := true
            error := parser.error.map fun _ =>
              .write (res.1.str.val.getD (ascii "lexer error")) res.1.line res.1.column
          }
        else
          { parser with
            lexer := ⟨parser.lexer.block, res.2⟩
            current := some res.1
            previous := parser.current
          })
        parser'.advance := by
  unfold HttpRuntime.DslParser.advance
  dsimp only
  rw [← hstands.type]
  split
  . next herror => exact {
      lexer := hlexer
      current := .some hstands
      previous := h.current
      error := by
        cases h.error with
        | inr hrefused => exact Or.inr hrefused
        | inl herror =>
          cases hstands.str with
          | inr hnone => exact Or.inr hnone.2
          | inl hstr =>
            left
            dsimp only
            rw [herror, hstr, hstands.line, hstands.column]
      hadError := rfl
    }
  . exact {
      lexer := hlexer
      current := .some hstands
      previous := h.current
      error := h.error
      hadError := h.hadError
    }

theorem triple_advance (parser : DslParser) (bs : Multiset Nat)
    : Heap.Triple refuses (parser.blocks + bs) parser.advance fun next bs' =>
        bs' = next.blocks + bs ∧ (parser.Lost refuses → next.Lost refuses) ∧
          next.previous = parser.current ∧
          ∀ parser', parser.Follows refuses parser' →
            next.Lost refuses ∨ next.Follows refuses parser'.advance := by
  unfold DslParser.advance
  have hsplit : parser.blocks + bs = tokenBlocks parser.previous +
      (tokenBlocks parser.current + ({parser.block} + {parser.lexer.block} + bs)) := by
    unfold blocks
    abel
  rw [hsplit]
  apply (triple_freeToken parser.previous).bind
  rintro _ _ rfl
  apply (triple_dslLexerNextToken parser.lexer.val).bind
  rintro res _ ⟨rfl, hscanned⟩
  apply (triple_noteError (Multiset.le_add_right _ _)).mono
  rintro next _ ⟨rfl, hnext⟩
  refine ⟨?_, ?_, ?_, ?_⟩
  . rw [hnext]
    split
    all_goals
      unfold blocks tokenBlocks
      dsimp only
      abel
  . intro hlost
    rw [hnext]
    split
    . exact ⟨rfl, hlost.2⟩
    . exact hlost
  . rw [hnext]
    split <;> rfl
  . intro parser' h
    rw [h.lexer] at hscanned
    cases hscanned with
    | inl hstands =>
      right
      rw [hnext]
      exact h.advanced hstands.1 hstands.2
    | inr herror =>
      left
      rw [hnext, if_pos herror.1]
      exact ⟨rfl, herror.2⟩

theorem blocks_parserError (parser : DslParser) (message : String)
    : (parser.parserError message).blocks = parser.blocks := by
  unfold parserError
  split <;> rfl

theorem hadError_parserError (parser : DslParser) (message : String)
    : (parser.parserError message).hadError = true := by
  unfold parserError
  split
  . assumption
  . rfl

theorem Follows.parserError (h : parser.Follows refuses parser') (message : String)
    : (parser.parserError message).Follows refuses (parser'.parserError message) := by
  have hplace
      : parser.current.map DslToken.line = parser'.current.map HttpRuntime.DslToken.line ∧
          parser.current.map DslToken.column = parser'.current.map HttpRuntime.DslToken.column := by
    have hcurrent := h.current
    generalize parser.current = token at hcurrent ⊢
    generalize parser'.current = token' at hcurrent ⊢
    cases hcurrent with
    | none => exact ⟨rfl, rfl⟩
    | some hstands => exact ⟨congrArg some hstands.line, congrArg some hstands.column⟩
  unfold DslParser.parserError HttpRuntime.DslParser.parserError
  rw [h.hadError]
  split
  . exact h
  . exact {
      lexer := h.lexer
      current := h.current
      previous := h.previous
      error := by
        cases h.error with
        | inr hrefused => exact Or.inr hrefused
        | inl herror =>
          left
          dsimp only
          rw [herror, hplace.1, hplace.2]
      hadError := rfl
    }

end DslParser
end OnHeap
end HttpRuntime
