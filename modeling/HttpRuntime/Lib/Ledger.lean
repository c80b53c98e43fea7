import Mathlib.Data.List.Count
import Mathlib.Data.List.Nodup

/-!
This module contains ledgers of things that are acquired and released, as two lists that only grow.
A ledger is balanced when what was acquired and not yet released has an owner, and limited when no
thing can still be acquired more often than its credit allows.
-/

namespace Lib

structure Ledger (α : Type) where
  acquired : List α
  released : List α

namespace Ledger

variable {α : Type}

def empty : Ledger α := ⟨[], []⟩

def book (l : Ledger α) (acquired released : List α) : Ledger α where
  acquired := l.acquired ++ acquired
  released := l.released ++ released

variable [DecidableEq α]

/-- What was acquired and not released. -/
def held (l : Ledger α) : List α := l.acquired.diff l.released

def Balanced (l : Ledger α) (owned : List α) : Prop :=
  ∀ x, l.acquired.count x = l.released.count x + owned.count x

def Limited (l : Ledger α) (credit : α → Nat) : Prop := ∀ x, l.acquired.count x + credit x ≤ 1

variable {l : Ledger α} {owned owned' acquired released : List α} {credit credit' : α → Nat}

theorem Balanced.empty : (empty : Ledger α).Balanced [] := fun _ => rfl

theorem Limited.empty (h : ∀ x, credit x ≤ 1) : (empty : Ledger α).Limited credit := by
  intro x
  have := h x
  simpa [Ledger.empty] using this

theorem Balanced.book (h : l.Balanced owned)
    (hstep : ∀ x, owned.count x + acquired.count x = owned'.count x + released.count x)
    : (l.book acquired released).Balanced owned' := by
  intro x
  have := h x
  have := hstep x
  unfold Ledger.book
  rw [List.count_append, List.count_append]
  omega

-- The owner changes, and nothing is acquired or released.
theorem Balanced.congr (h : l.Balanced owned) (hcount : ∀ x, owned.count x = owned'.count x)
    : l.Balanced owned' := by
  intro x
  rw [← hcount]
  exact h x

theorem Limited.book (h : l.Limited credit)
    (hstep : ∀ x, credit' x + acquired.count x ≤ credit x) (released : List α)
    : (l.book acquired released).Limited credit' := by
  intro x
  have := h x
  have := hstep x
  unfold Ledger.book
  rw [List.count_append]
  omega

theorem Limited.mono (h : l.Limited credit) (hle : ∀ x, credit' x ≤ credit x)
    : l.Limited credit' := by
  intro x
  have := h x
  have := hle x
  omega

theorem Balanced.held_perm (h : l.Balanced owned) : l.held.Perm owned := by
  rw [List.perm_iff_count]
  intro x
  have := h x
  unfold held
  rw [List.count_diff]
  omega

/-- What can be acquired once only is not released twice. -/
theorem Balanced.released_nodup (h : l.Balanced owned) (hlimited : l.Limited credit)
    : l.released.Nodup := by
  rw [List.nodup_iff_count_le_one]
  intro x
  have := h x
  have := hlimited x
  omega

theorem Balanced.owned_nodup (h : l.Balanced owned) (hlimited : l.Limited credit) : owned.Nodup := by
  rw [List.nodup_iff_count_le_one]
  intro x
  have := h x
  have := hlimited x
  omega

-- What can still be acquired has no owner yet.
theorem Balanced.not_mem (h : l.Balanced owned) (hlimited : l.Limited credit) {x : α}
    (hcredit : 0 < credit x) : x ∉ owned := by
  rw [← List.count_eq_zero]
  have := h x
  have := hlimited x
  omega

end Ledger

section Count

variable {α β : Type} [DecidableEq β] {x : β}

theorem count_flatMap_zipIdx_set {f f' : Nat → α → List β} {l : List α} {i k : Nat} {a b : α}
    (ha : l[i]? = some a) (hsame : ∀ j, j ≠ k + i → f' j = f j)
    : (((l.set i b).zipIdx k).flatMap (fun p => f' p.2 p.1)).count x + (f (k + i) a).count x =
        ((l.zipIdx k).flatMap (fun p => f p.2 p.1)).count x + (f' (k + i) b).count x := by
  induction l generalizing i k with
  | nil => simp at ha
  | cons c l ih =>
    cases i with
    | zero =>
      rw [List.getElem?_cons_zero, Option.some.injEq] at ha
      have hrest : (l.zipIdx (k + 1)).flatMap (fun p => f' p.2 p.1) =
          (l.zipIdx (k + 1)).flatMap (fun p => f p.2 p.1) := by
        apply List.flatMap_congr
        rintro ⟨c, j⟩ hmem
        have hle := List.le_snd_of_mem_zipIdx hmem
        dsimp only at hle ⊢
        rw [hsame j (by omega)]
      rw [List.set_cons_zero, List.zipIdx_cons, List.zipIdx_cons, List.flatMap_cons,
        List.flatMap_cons, List.count_append, List.count_append, hrest, ha]
      dsimp only [Nat.add_zero]
      omega
    | succ i =>
      rw [List.getElem?_cons_succ] at ha
      have hnext := @ih i (k + 1) ha (by intro j hj; exact hsame j (by omega))
      rw [show k + 1 + i = k + (i + 1) by omega] at hnext
      rw [List.set_cons_succ, List.zipIdx_cons, List.zipIdx_cons, List.flatMap_cons,
        List.flatMap_cons, List.count_append, List.count_append, hsame k (by omega)]
      dsimp only
      omega

theorem count_flatMap_set {f : α → List β} {l : List α} {i : Nat} {a : α} (ha : l[i]? = some a) (b : α)
    : ((l.set i b).flatMap f).count x + (f a).count x = (l.flatMap f).count x + (f b).count x := by
  have hset := @count_flatMap_zipIdx_set α β _ x (fun _ => f) (fun _ => f) l i 0 a b ha (fun _ _ => rfl)
  have hflat (l : List α) : l.flatMap f = l.zipIdx.flatMap (fun p => f p.1) := by
    rw [← List.flatMap_map Prod.fst f, List.zipIdx_map_fst]
  rw [hflat, hflat]
  exact hset

end Count

end Lib
