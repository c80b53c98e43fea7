import Mathlib.Algebra.BigOperators.Group.Multiset.Basic
import Mathlib.Data.Multiset.AddSub

/-!
This module contains programs on a heap of blocks, and triples about the blocks that are live. Every
allocation may be refused. A block that is handed out gets a number that no other block ever has, so
that what was freed cannot be mistaken for something else.

The result `none` of a program is a step that leaves the heap: a block that is freed twice, or one
that is read after it was freed.
-/

namespace Lib

/-- `refuses` tells which allocations fail, by their number. -/
structure Heap where
  refuses : Nat → Bool
  count : Nat
  live : Multiset Nat
  nodup : live.Nodup
  lt_count : ∀ b ∈ live, b < count

abbrev HeapProg (α : Type) := StateT Heap Option α

/-- Something in a block of its own. -/
structure Boxed (α : Type) where
  block : Nat
  val : α

/-- A pointer to something in a block of its own. -/
abbrev Ptr (α : Type) := Option (Boxed α)

namespace Ptr

variable {α : Type}

def blocks (p : Ptr α) : Multiset Nat :=
  match p with
  | none => 0
  | some x => {x.block}

def val (p : Ptr α) : Option α := p.map Boxed.val

@[simp]
theorem blocks_none : blocks (none : Ptr α) = 0 := rfl

@[simp]
theorem blocks_some (x : Boxed α) : blocks (some x) = {x.block} := rfl

@[simp]
theorem val_none : val (none : Ptr α) = none := rfl

@[simp]
theorem val_some (x : Boxed α) : val (some x) = some x.val := rfl

end Ptr

namespace Heap

def refuse (h : Heap) : Heap :=
  { h with
    count := h.count + 1
    lt_count := fun b hb => Nat.lt_succ_of_lt (h.lt_count b hb)
  }

def grant (h : Heap) : Heap :=
  { h with
    count := h.count + 1
    live := h.count ::ₘ h.live
    nodup := by
      rw [Multiset.nodup_cons]
      exact ⟨fun hmem => Nat.lt_irrefl _ (h.lt_count _ hmem), h.nodup⟩
    lt_count := by
      intro b hb
      rw [Multiset.mem_cons] at hb
      cases hb with
      | inl heq => omega
      | inr hmem => exact Nat.lt_succ_of_lt (h.lt_count b hmem)
  }

def release (h : Heap) (b : Nat) : Heap :=
  { h with
    live := h.live.erase b
    nodup := h.nodup.erase b
    lt_count := fun c hc => h.lt_count c (Multiset.mem_of_mem_erase hc)
  }

def alloc : HeapProg (Option Nat) := fun h =>
  if h.refuses h.count then some (none, h.refuse) else some (some h.count, h.grant)

/-- A null pointer is left alone. -/
def free (p : Option Nat) : HeapProg Unit := fun h =>
  match p with
  | none => some ((), h)
  | some b => if b ∈ h.live then some ((), h.release b) else none

def access (b : Nat) : HeapProg Unit := fun h =>
  if b ∈ h.live then some ((), h) else none

/-- A block that takes the place of another one. The other one stays if it is refused. -/
def realloc (b : Nat) : HeapProg (Option Nat) := do
  access b
  let p ← alloc
  match p with
  | none => pure none
  | some b' => do
    free (some b)
    pure (some b')

variable {α β : Type}

def new (a : α) : HeapProg (Ptr α) := do
  let b ← alloc
  pure (b.map (fun b => ⟨b, a⟩))

def delete (p : Ptr α) : HeapProg Unit := free (p.map Boxed.block)

/-- A null pointer cannot be read. -/
def read (p : Ptr α) : HeapProg α :=
  match p with
  | none => failure
  | some x => do
    access x.block
    pure x.val

/--
From every heap with the live blocks `bs`, the program gets to a result and to live blocks with `Q`.
-/
def Triple (refuses : Nat → Bool) (bs : Multiset Nat) (m : HeapProg α) (Q : α → Multiset Nat → Prop)
    : Prop :=
  ∀ h : Heap, h.refuses = refuses → h.live = bs →
    ∃ a h', m h = some (a, h') ∧ h'.refuses = refuses ∧ Q a h'.live

variable {refuses : Nat → Bool} {bs : Multiset Nat} {Q : α → Multiset Nat → Prop}

theorem Triple.pure {a : α} (h : Q a bs) : Triple refuses bs (pure a) Q := by
  rintro heap rfl rfl
  exact ⟨a, heap, rfl, rfl, h⟩

theorem Triple.bind {m : HeapProg α} {f : α → HeapProg β} {R : β → Multiset Nat → Prop}
    (hm : Triple refuses bs m Q) (hf : ∀ a bs', Q a bs' → Triple refuses bs' (f a) R)
    : Triple refuses bs (m >>= f) R := by
  intro heap hrefuses hlive
  obtain ⟨a, heap', hrun, hrefuses', hQ⟩ := hm heap hrefuses hlive
  obtain ⟨b, heap'', hrun', hrefuses'', hR⟩ := hf a heap'.live hQ heap' hrefuses' rfl
  refine ⟨b, heap'', ?_, hrefuses'', hR⟩
  change (m heap).bind (fun res => f res.1 res.2) = some (b, heap'')
  rw [hrun]
  exact hrun'

theorem Triple.mono {m : HeapProg α} {R : α → Multiset Nat → Prop} (hm : Triple refuses bs m Q)
    (hQ : ∀ a bs', Q a bs' → R a bs') : Triple refuses bs m R := by
  intro heap hrefuses hlive
  obtain ⟨a, heap', hrun, hrefuses', h⟩ := hm heap hrefuses hlive
  exact ⟨a, heap', hrun, hrefuses', hQ _ _ h⟩

theorem Triple.congr {m : HeapProg α} {bs' : Multiset Nat} (hm : Triple refuses bs m Q) (hbs : bs' = bs)
    : Triple refuses bs' m Q := by
  rw [hbs]
  exact hm

theorem triple_alloc (bs : Multiset Nat)
    : Triple refuses bs alloc fun p bs' =>
        (p = none ∧ bs' = bs ∧ ∃ k, refuses k = true) ∨ ∃ b, p = some b ∧ bs' = {b} + bs := by
  rintro heap rfl rfl
  unfold alloc
  split
  . next hrefused => exact ⟨none, heap.refuse, rfl, rfl, Or.inl ⟨rfl, rfl, _, hrefused⟩⟩
  . exact ⟨some heap.count, heap.grant, rfl, rfl, Or.inr ⟨_, rfl, (Multiset.singleton_add _ _).symm⟩⟩

theorem triple_free (b : Nat) (bs : Multiset Nat)
    : Triple refuses ({b} + bs) (free (some b)) fun _ bs' => bs' = bs := by
  rintro heap rfl hlive
  have hmem : b ∈ heap.live := by
    rw [hlive]
    simp
  refine ⟨(), heap.release b, ?_, rfl, ?_⟩
  . unfold free
    dsimp only
    rw [if_pos hmem]
  . unfold release
    dsimp only
    rw [hlive, Multiset.singleton_add, Multiset.erase_cons_head]

theorem triple_access {b : Nat} (hlive : b ∈ bs)
    : Triple refuses bs (access b) fun _ bs' => bs' = bs := by
  rintro heap rfl rfl
  refine ⟨(), heap, ?_, rfl, rfl⟩
  unfold access
  rw [if_pos hlive]

theorem triple_realloc (b : Nat) (bs : Multiset Nat)
    : Triple refuses ({b} + bs) (realloc b) fun p bs' =>
        (p = none ∧ bs' = {b} + bs ∧ ∃ k, refuses k = true) ∨ ∃ b', p = some b' ∧ bs' = {b'} + bs := by
  have hlive : b ∈ {b} + bs := Multiset.mem_add.mpr (Or.inl (Multiset.mem_singleton_self b))
  unfold realloc
  apply (triple_access hlive).bind
  rintro _ _ rfl
  apply (triple_alloc _).bind
  intro p bs' h
  cases h with
  | inl hnone =>
    obtain ⟨rfl, rfl, hrefused⟩ := hnone
    apply Triple.pure
    exact Or.inl ⟨rfl, rfl, hrefused⟩
  | inr hsome =>
    obtain ⟨b', rfl, rfl⟩ := hsome
    rw [add_left_comm]
    apply (triple_free b _).bind
    rintro _ _ rfl
    apply Triple.pure
    exact Or.inr ⟨b', rfl, rfl⟩

theorem triple_new (a : α) (bs : Multiset Nat)
    : Triple refuses bs (new a) fun p bs' =>
        bs' = p.blocks + bs ∧ (p.val = some a ∨ p = none ∧ ∃ k, refuses k = true) := by
  apply (triple_alloc bs).bind
  intro p bs' h
  apply Triple.pure
  cases h with
  | inl hnone =>
    obtain ⟨rfl, rfl, hrefused⟩ := hnone
    exact ⟨(zero_add _).symm, Or.inr ⟨rfl, hrefused⟩⟩
  | inr hsome =>
    obtain ⟨b, rfl, rfl⟩ := hsome
    exact ⟨rfl, Or.inl rfl⟩

theorem triple_delete (p : Ptr α) (bs : Multiset Nat)
    : Triple refuses (p.blocks + bs) (delete p) fun _ bs' => bs' = bs := by
  cases p with
  | none =>
    apply Triple.pure
    exact zero_add bs
  | some x => exact triple_free x.block bs

theorem triple_read {p : Ptr α} {a : α} (hp : p.val = some a) (hlive : p.blocks ≤ bs)
    : Triple refuses bs (read p) fun a' bs' => a' = a ∧ bs' = bs := by
  cases p with
  | none => cases hp
  | some x =>
    have hmem : x.block ∈ bs := Multiset.mem_of_le hlive (Multiset.mem_singleton_self _)
    apply (triple_access hmem).bind
    rintro _ _ rfl
    apply Triple.pure
    exact ⟨Option.some.inj hp, rfl⟩

/-- A loop over reads, which leave the live blocks alone. -/
theorem Triple.mapM {f : α → HeapProg β} {g : α → β} {as : List α}
    (h : ∀ a ∈ as, Triple refuses bs (f a) fun b bs' => b = g a ∧ bs' = bs)
    : Triple refuses bs (as.mapM f) fun xs bs' => xs = as.map g ∧ bs' = bs := by
  induction as with
  | nil =>
    rw [List.mapM_nil]
    apply Triple.pure
    exact ⟨rfl, rfl⟩
  | cons a as ih =>
    rw [List.forall_mem_cons] at h
    rw [List.mapM_cons]
    apply h.1.bind
    rintro _ _ ⟨rfl, rfl⟩
    apply (ih h.2).bind
    rintro _ _ ⟨rfl, rfl⟩
    apply Triple.pure
    exact ⟨rfl, rfl⟩

end Heap
end Lib
