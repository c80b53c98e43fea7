import HttpRuntime.Dsl.Memory.Lexer
import HttpRuntime.Lib.Vec
import Mathlib.Tactic.Abel

/-!
This module contains the array of all tokens on a heap, whose block may have to grow while the lexer
goes on.
-/

open Lib

namespace HttpRuntime
namespace OnHeap

def DslToken.isFinal (token : DslToken) : Bool := token.type = .eof || token.type = .error

-- The loop of `dsl_free_tokens` over the `count` tokens from `i` on.
def freeTokensFrom (array : Vec DslToken) (i count : Nat) : HeapProg Unit :=
  match count with
  | 0 => pure ()
  | count + 1 => do
    let token ← array.get i
    dslFreeToken token
    freeTokensFrom array (i + 1) count

def dslFreeTokens (tokens : Option (Vec DslToken)) (count : Nat) : HeapProg Unit :=
  match tokens with
  | none => pure ()
  | some array => do
    freeTokensFrom array 0 count
    Heap.free (some array.block)

/-- The loop of `dsl_lexer_get_tokens`. Without fuel it fails. -/
def getTokens (fuel : Nat) (lexer : DslLexer) (array : Vec DslToken)
    : HeapProg (Option (Vec DslToken) × DslLexer) :=
  match fuel with
  | 0 => failure
  | fuel + 1 => do
    let grown ← array.grow
    match grown with
    | none => do
      dslFreeTokens (some array) array.items.length
      pure (none, lexer)
    | some array => do
      let (token, next) ← dslLexerNextToken lexer
      let array ← array.push token
      if token.isFinal then
        pure (some array, next)
      else
        getTokens fuel next array

-- The array of the `malloc` that `dsl_lexer_get_tokens` starts with.
def emptyTokens (block : Nat) : Vec DslToken := ⟨block, 16, [], Nat.zero_le 16, Nat.succ_pos 15⟩

/-- `outCount` is what `out_count` points to, and `none` a null pointer. -/
def dslLexerGetTokens (lexer : DslLexer) (outCount : Option Nat)
    : HeapProg (Option (Vec DslToken) × Option Nat × DslLexer) := do
  let block ← Heap.alloc
  match block with
  | none => pure (none, outCount, lexer)
  | some block => do
    let (tokens, next) ← getTokens (lexer.fuel + 1) lexer (emptyTokens block)
    match tokens with
    | none => pure (none, outCount, next)
    | some array => pure (some array, outCount.map (fun _ => array.items.length), next)

section StandFor

/-- The last token and no other ends the list. -/
def EndsOnce (tokens : List DslToken) : Prop :=
  ∃ n, tokens.map DslToken.isFinal = List.replicate n false ++ [true]

theorem endsOnce_singleton {token : DslToken} (hfinal : token.isFinal = true) : EndsOnce [token] := by
  refine ⟨0, ?_⟩
  rw [List.map_singleton, hfinal]
  rfl

theorem EndsOnce.cons {token : DslToken} {tokens : List DslToken} (h : EndsOnce tokens)
    (hfinal : token.isFinal = false) : EndsOnce (token :: tokens) := by
  obtain ⟨n, hn⟩ := h
  refine ⟨n + 1, ?_⟩
  rw [List.map_cons, hn, hfinal]
  rfl

/-- The tokens are those of the other lexer, up to an error for the lack of memory. -/
inductive StandFor (refuses : Nat → Bool) : List DslToken → List HttpRuntime.DslToken → Prop where
  | nil : StandFor refuses [] []
  | cons {token : DslToken} {token' : HttpRuntime.DslToken} {tokens : List DslToken}
      {tokens' : List HttpRuntime.DslToken} (hstands : token.Stands refuses token')
      (h : StandFor refuses tokens tokens') : StandFor refuses (token :: tokens) (token' :: tokens')
  | lost {token : DslToken} {tokens' : List HttpRuntime.DslToken} (herror : token.type = .error)
      (hrefused : ∃ k, refuses k = true) : StandFor refuses [token] tokens'

variable {refuses : Nat → Bool}

theorem DslToken.Stands.isFinal_eq {token : DslToken} {token' : HttpRuntime.DslToken}
    (h : token.Stands refuses token') : token.isFinal = token'.isFinal := by
  unfold DslToken.isFinal HttpRuntime.DslToken.isFinal
  rw [h.type]

def DslToken.erase (token : DslToken) : HttpRuntime.DslToken where
  type := token.type
  str := token.str.val
  line := token.line
  column := token.column

theorem StandFor.erase_eq {tokens : List DslToken} {tokens' : List HttpRuntime.DslToken}
    (h : StandFor refuses tokens tokens') (hnever : ∀ n, refuses n = false)
    : tokens.map DslToken.erase = tokens' := by
  have hnone : ¬ ∃ k, refuses k = true := by
    rintro ⟨k, hk⟩
    rw [hnever k] at hk
    cases hk
  induction h with
  | nil => rfl
  | @cons token token' tokens tokens' hstands _ ih =>
    have htoken : token.erase = token' := by
      obtain ⟨htype, hline, hcolumn, hstr⟩ := hstands
      have hval := hstr.resolve_right (fun h => hnone h.2)
      unfold DslToken.erase
      rw [htype, hline, hcolumn, hval]
    rw [List.map_cons, htoken, ih]
  | lost _ hrefused => exact absurd hrefused hnone

variable {token : DslToken} {next lexer : DslLexer}
  (h : token.Stands refuses (HttpRuntime.dslLexerNextToken lexer).1 ∧
      next = (HttpRuntime.dslLexerNextToken lexer).2 ∨
    token.type = .error ∧ ∃ k, refuses k = true)
include h

theorem standFor_final (hfinal : token.isFinal = true)
    : StandFor refuses [token] (HttpRuntime.dslLexerGetTokens lexer) := by
  cases h with
  | inl h =>
    rw [dslLexerGetTokens_eq, ← h.1.isFinal_eq, if_pos hfinal]
    exact .cons h.1 .nil
  | inr h => exact .lost h.1 h.2

-- An error for the lack of memory would end the loop.
theorem stands_of_not_final (hfinal : token.isFinal = false)
    : token.Stands refuses (HttpRuntime.dslLexerNextToken lexer).1 ∧
        next = (HttpRuntime.dslLexerNextToken lexer).2 := by
  cases h with
  | inl h => exact h
  | inr h =>
    unfold DslToken.isFinal at hfinal
    rw [h.1] at hfinal
    cases hfinal

end StandFor

section Collect

variable {refuses : Nat → Bool} {bs : Multiset Nat}

def textBlocks (tokens : List DslToken) : Multiset Nat := (tokens.map DslToken.blocks).sum

def arrayBlocks (array : Vec DslToken) : Multiset Nat := {array.block} + textBlocks array.items

theorem textBlocks_cons (token : DslToken) (tokens : List DslToken)
    : textBlocks (token :: tokens) = token.blocks + textBlocks tokens := by
  unfold textBlocks
  rw [List.map_cons, List.sum_cons]

theorem textBlocks_concat (tokens : List DslToken) (token : DslToken)
    : textBlocks (tokens ++ [token]) = textBlocks tokens + token.blocks := by
  unfold textBlocks
  rw [List.map_append, List.sum_append, List.map_singleton, List.sum_singleton]

theorem triple_freeTokensFrom (array : Vec DslToken) {i count : Nat}
    (hcount : i + count = array.items.length) (bs : Multiset Nat)
    : Heap.Triple refuses ({array.block} + textBlocks (array.items.drop i) + bs)
        (freeTokensFrom array i count) fun _ bs' => bs' = {array.block} + bs := by
  induction count generalizing i with
  | zero =>
    have hdrop : array.items.drop i = [] := List.drop_eq_nil_of_le (Nat.le_of_eq hcount.symm)
    rw [hdrop]
    apply Heap.Triple.pure
    exact congrArg (· + bs) (add_zero _)
  | succ count ih =>
    have hi : i < array.items.length := by omega
    have hsplit : {array.block} + textBlocks (array.items.drop i) + bs =
        array.items[i].blocks + ({array.block} + textBlocks (array.items.drop (i + 1)) + bs) := by
      rw [List.drop_eq_getElem_cons hi, textBlocks_cons]
      abel
    have hlive : array.block ∈ {array.block} + textBlocks (array.items.drop i) + bs := by
      rw [add_assoc]
      exact Multiset.mem_add.mpr (Or.inl (Multiset.mem_singleton_self _))
    apply (Vec.triple_get hi hlive).bind
    rintro _ _ ⟨rfl, rfl⟩
    rw [hsplit]
    apply (Heap.triple_delete array.items[i].str _).bind
    rintro _ _ rfl
    exact ih (by omega)

theorem triple_dslFreeTokens (array : Vec DslToken) (bs : Multiset Nat)
    : Heap.Triple refuses (arrayBlocks array + bs) (dslFreeTokens (some array) array.items.length)
        fun _ bs' => bs' = bs := by
  apply (triple_freeTokensFrom array (Nat.zero_add _) bs).bind
  rintro _ _ rfl
  exact Heap.triple_free array.block bs

-- The text of the token goes over to the array.
theorem triple_pushToken {array : Vec DslToken} (hroom : array.items.length < array.capacity)
    (token : DslToken) (bs : Multiset Nat)
    : Heap.Triple refuses (token.blocks + (arrayBlocks array + bs)) (array.push token) fun pushed bs' =>
        bs' = arrayBlocks pushed + bs ∧ pushed.items = array.items ++ [token] ∧
          pushed.capacity = array.capacity := by
  have hlive : array.block ∈ token.blocks + (arrayBlocks array + bs) := by
    unfold arrayBlocks
    simp
  apply (Vec.triple_push hroom hlive token).mono
  rintro pushed _ ⟨rfl, hblock, hpushed, hcapacity⟩
  refine ⟨?_, hpushed, hcapacity⟩
  unfold arrayBlocks
  rw [hblock, hpushed, textBlocks_concat]
  abel

theorem triple_growTokens (array : Vec DslToken) (bs : Multiset Nat)
    : Heap.Triple refuses (arrayBlocks array + bs) array.grow fun grown bs' =>
        (grown = none ∧ bs' = arrayBlocks array + bs ∧ ∃ k, refuses k = true) ∨
          ∃ array', grown = some array' ∧ bs' = arrayBlocks array' + bs ∧ array'.items = array.items ∧
            array'.items.length < array'.capacity ∧
            array'.capacity ≤ max array.capacity (2 * array.items.length) := by
  unfold arrayBlocks
  rw [add_assoc]
  apply (array.triple_grow _).mono
  intro grown bs' h
  cases h with
  | inl hnone => exact Or.inl hnone
  | inr hsome =>
    obtain ⟨array', rfl, rfl, hitems, hroom, hcapacity⟩ := hsome
    refine Or.inr ⟨array', rfl, ?_, hitems, ?_, hcapacity⟩
    . rw [hitems, add_assoc]
    . rw [hitems]
      exact hroom

/-- What the loop comes to when it starts with `array`. -/
def Gotten (refuses : Nat → Bool) (bs : Multiset Nat) (lexer : DslLexer) (array : Vec DslToken)
    (res : Option (Vec DslToken) × DslLexer) (bs' : Multiset Nat) : Prop :=
  match res.1 with
  | none => bs' = bs ∧ ∃ k, refuses k = true
  | some array' =>
    bs' = arrayBlocks array' + bs ∧ array'.capacity ≤ max array.capacity (2 * array'.items.length) ∧
      ∃ tokens, array'.items = array.items ++ tokens ∧ EndsOnce tokens ∧
        StandFor refuses tokens (HttpRuntime.dslLexerGetTokens lexer)

-- One more token in front of those that the rest of the loop gets.
theorem Gotten.cons {lexer next : DslLexer} {array pushed : Vec DslToken} {token : DslToken}
    {res : Option (Vec DslToken) × DslLexer} {bs' : Multiset Nat} (h : Gotten refuses bs next pushed res bs')
    (hpushed : pushed.items = array.items ++ [token])
    (hcapacity : pushed.capacity ≤ max array.capacity (2 * pushed.items.length))
    (hscanned : token.Stands refuses (HttpRuntime.dslLexerNextToken lexer).1 ∧
      next = (HttpRuntime.dslLexerNextToken lexer).2)
    (hfinal : token.isFinal = false) : Gotten refuses bs lexer array res bs' := by
  obtain ⟨hstands, rfl⟩ := hscanned
  obtain ⟨got, last⟩ := res
  cases got with
  | none => exact h
  | some array' =>
    obtain ⟨rfl, hcap, tokens, htail, hends, hstand⟩ := h
    have hlength : array'.items.length = pushed.items.length + tokens.length := by
      rw [htail, List.length_append]
    refine ⟨rfl, by omega, token :: tokens, ?_, hends.cons hfinal, ?_⟩
    . rw [htail, hpushed, List.append_assoc, List.singleton_append]
    . rw [dslLexerGetTokens_eq, ← hstands.isFinal_eq, hfinal]
      exact .cons hstands hstand

theorem triple_getTokens {fuel : Nat} {lexer : DslLexer} (array : Vec DslToken) (hfuel : lexer.fuel < fuel)
    (bs : Multiset Nat)
    : Heap.Triple refuses (arrayBlocks array + bs) (getTokens fuel lexer array)
        (Gotten refuses bs lexer array) := by
  induction fuel generalizing lexer array with
  | zero => cases hfuel
  | succ fuel ih =>
    unfold getTokens
    apply (triple_growTokens array bs).bind
    intro grown bs' hgrown
    cases hgrown with
    | inl hnone =>
      obtain ⟨rfl, rfl, hrefused⟩ := hnone
      apply (triple_dslFreeTokens array bs).bind
      rintro _ _ rfl
      apply Heap.Triple.pure
      exact ⟨rfl, hrefused⟩
    | inr hsome =>
      obtain ⟨grown, rfl, rfl, hitems, hroom, hcapacity⟩ := hsome
      apply (triple_dslLexerNextToken lexer).bind
      rintro ⟨token, next⟩ _ ⟨rfl, hscanned⟩
      dsimp only at hscanned ⊢
      apply (triple_pushToken hroom token bs).bind
      rintro pushed _ ⟨rfl, hpushed, hsame⟩
      rw [hitems] at hpushed
      have hcapacity' : pushed.capacity ≤ max array.capacity (2 * pushed.items.length) := by
        rw [hsame, hpushed, List.length_append]
        omega
      split
      . next hfinal =>
        apply Heap.Triple.pure
        refine ⟨rfl, hcapacity', [token], hpushed, endsOnce_singleton hfinal, ?_⟩
        exact standFor_final hscanned hfinal
      . next hfinal =>
        rw [Bool.not_eq_true] at hfinal
        have hstands := stands_of_not_final hscanned hfinal
        have hless : next.fuel < lexer.fuel := by
          rw [hstands.2]
          apply fuel_dslLexerNextToken_lt
          rw [← hstands.1.isFinal_eq, hfinal]
        apply (ih pushed (by omega)).mono
        intro res bs' h
        exact h.cons hpushed hcapacity' hstands hfinal

/-- What `dsl_lexer_get_tokens` comes to: nothing that is new, or all the tokens. -/
def Collected (refuses : Nat → Bool) (bs : Multiset Nat) (lexer : DslLexer) (outCount : Option Nat)
    (tokens : Option (Vec DslToken)) (outCount' : Option Nat) (bs' : Multiset Nat) : Prop :=
  match tokens with
  | none => bs' = bs ∧ outCount' = outCount ∧ ∃ k, refuses k = true
  | some array =>
    bs' = arrayBlocks array + bs ∧ outCount' = outCount.map (fun _ => array.items.length) ∧
      array.capacity ≤ max 16 (2 * array.items.length) ∧ EndsOnce array.items ∧
        StandFor refuses array.items (HttpRuntime.dslLexerGetTokens lexer)

theorem triple_dslLexerGetTokens (lexer : DslLexer) (outCount : Option Nat) (bs : Multiset Nat)
    : Heap.Triple refuses bs (dslLexerGetTokens lexer outCount) fun res bs' =>
        Collected refuses bs lexer outCount res.1 res.2.1 bs' := by
  unfold dslLexerGetTokens
  apply (Heap.triple_alloc bs).bind
  intro block bs' hblock
  cases hblock with
  | inl hnone =>
    obtain ⟨rfl, rfl, hrefused⟩ := hnone
    apply Heap.Triple.pure
    exact ⟨rfl, rfl, hrefused⟩
  | inr hsome =>
    obtain ⟨block, rfl, rfl⟩ := hsome
    have hempty : arrayBlocks (emptyTokens block) = {block} := add_zero _
    rw [← hempty]
    apply (triple_getTokens (emptyTokens block) (Nat.lt_succ_self lexer.fuel) bs).bind
    rintro ⟨tokens, next⟩ bs' h
    cases tokens with
    | none =>
      apply Heap.Triple.pure
      exact ⟨h.1, rfl, h.2⟩
    | some array =>
      obtain ⟨rfl, hcapacity, tokens, htokens, hends, hstand⟩ := h
      obtain rfl : array.items = tokens := htokens
      apply Heap.Triple.pure
      exact ⟨rfl, rfl, hcapacity, hends, hstand⟩

end Collect

/--
Whatever allocations are refused, `dsl_lexer_get_tokens` writes no token behind the end of its block and
frees no block twice, although the block may have grown. When it fails, it leaves nothing behind.
Otherwise the last token alone tells where the array ends, and the blocks that are new are those that
`dsl_free_tokens` gives back.
-/
theorem dslLexerGetTokens_gives_back (lexer : DslLexer) (outCount : Option Nat) (h : Heap)
    : ∃ tokens outCount' next h',
        dslLexerGetTokens lexer outCount h = some ((tokens, outCount', next), h') ∧
          Collected h.refuses h.live lexer outCount tokens outCount' h'.live ∧
          ((∀ n, h.refuses n = false) →
            ∃ array, tokens = some array ∧
              array.items.map DslToken.erase = HttpRuntime.dslLexerGetTokens lexer) ∧
          ∃ h'',
            dslFreeTokens tokens (tokens.elim 0 fun array => array.items.length) h' = some ((), h'') ∧
              h''.live = h.live := by
  obtain ⟨⟨tokens, outCount', next⟩, h', hrun, hrefuses, hres⟩ :=
    triple_dslLexerGetTokens lexer outCount h.live h rfl rfl
  refine ⟨tokens, outCount', next, h', hrun, hres, ?_⟩
  cases tokens with
  | none =>
    obtain ⟨hlive, _, k, hrefused⟩ := hres
    refine ⟨?_, h', rfl, hlive⟩
    intro hnever
    rw [hnever k] at hrefused
    cases hrefused
  | some array =>
    obtain ⟨hlive, _, _, _, hstand⟩ := hres
    obtain ⟨_, h'', hfree, _, hlive'⟩ := triple_dslFreeTokens array h.live h' hrefuses hlive
    refine ⟨?_, h'', hfree, hlive'⟩
    intro hnever
    exact ⟨array, rfl, hstand.erase_eq hnever⟩

end OnHeap
end HttpRuntime
