import HttpRuntime.Lib.Heap

/-!
This module contains an array in a block of the heap that gets a block of the double size when it is
full.
-/

namespace Lib

/-- The block has room for `capacity` items, and what is behind `items` is not written yet. -/
structure Vec (α : Type) where
  block : Nat
  capacity : Nat
  items : List α
  fits : items.length ≤ capacity
  capacity_pos : 0 < capacity

namespace Vec

variable {α : Type}

/-- A full array gets more room. It stays as it is if there is none. -/
def grow (vec : Vec α) : HeapProg (Option (Vec α)) :=
  if vec.capacity ≤ vec.items.length then do
    let tmp ← Heap.realloc vec.block
    match tmp with
    | none => pure none
    | some block =>
      pure (some { vec with
        block := block
        capacity := vec.capacity * 2
        fits := Nat.le_trans vec.fits (Nat.le_mul_of_pos_right vec.capacity Nat.two_pos)
        capacity_pos := Nat.mul_pos vec.capacity_pos Nat.two_pos
      })
  else
    pure (some vec)

/-- A write behind the end of the block leaves the heap. -/
def push (vec : Vec α) (a : α) : HeapProg (Vec α) :=
  if hroom : vec.items.length < vec.capacity then do
    Heap.access vec.block
    pure { vec with
      items := vec.items ++ [a]
      fits := Nat.le_trans (Nat.le_of_eq List.length_append) hroom
    }
  else
    failure

/-- What is not written yet cannot be read. -/
def get (vec : Vec α) (i : Nat) : HeapProg α :=
  match vec.items[i]? with
  | none => failure
  | some a => do
    Heap.access vec.block
    pure a

variable {refuses : Nat → Bool} {bs : Multiset Nat}

theorem triple_grow (vec : Vec α) (bs : Multiset Nat)
    : Heap.Triple refuses ({vec.block} + bs) vec.grow fun grown bs' =>
        (grown = none ∧ bs' = {vec.block} + bs ∧ ∃ k, refuses k = true) ∨
          ∃ vec', grown = some vec' ∧ bs' = {vec'.block} + bs ∧ vec'.items = vec.items ∧
            vec.items.length < vec'.capacity ∧
            vec'.capacity ≤ max vec.capacity (2 * vec.items.length) := by
  unfold grow
  split
  . next hfull =>
    apply (Heap.triple_realloc vec.block bs).bind
    intro tmp bs' h
    cases h with
    | inl hnone =>
      obtain ⟨rfl, rfl, hrefused⟩ := hnone
      apply Heap.Triple.pure
      exact Or.inl ⟨rfl, rfl, hrefused⟩
    | inr hsome =>
      obtain ⟨block, rfl, rfl⟩ := hsome
      -- A full array is exactly full.
      have heq : vec.capacity = vec.items.length := Nat.le_antisymm hfull vec.fits
      have hpos := vec.capacity_pos
      apply Heap.Triple.pure
      refine Or.inr ⟨_, rfl, rfl, rfl, ?_, ?_⟩ <;> dsimp only <;> omega
  . next hroom =>
    apply Heap.Triple.pure
    exact Or.inr ⟨vec, rfl, rfl, rfl, Nat.lt_of_not_le hroom, Nat.le_max_left _ _⟩

theorem triple_push {vec : Vec α} (hroom : vec.items.length < vec.capacity) (hlive : vec.block ∈ bs)
    (a : α)
    : Heap.Triple refuses bs (vec.push a) fun vec' bs' =>
        bs' = bs ∧ vec'.block = vec.block ∧ vec'.items = vec.items ++ [a] ∧
          vec'.capacity = vec.capacity := by
  unfold push
  rw [dif_pos hroom]
  apply (Heap.triple_access hlive).bind
  rintro _ _ rfl
  apply Heap.Triple.pure
  exact ⟨rfl, rfl, rfl, rfl⟩

theorem triple_get {vec : Vec α} {i : Nat} (hi : i < vec.items.length) (hlive : vec.block ∈ bs)
    : Heap.Triple refuses bs (vec.get i) fun a bs' => a = vec.items[i] ∧ bs' = bs := by
  unfold get
  rw [List.getElem?_eq_getElem hi]
  apply (Heap.triple_access hlive).bind
  rintro _ _ rfl
  apply Heap.Triple.pure
  exact ⟨rfl, rfl⟩

end Vec
end Lib
