import Mathlib.Data.List.Basic
import Mathlib.Data.List.Nodup
import Mathlib.Logic.Function.Basic

/-!
This module contains singly linked chains in a store of cells: which addresses a pointer reaches,
and what an update of one cell does to the chains around it.
-/

namespace Lib

abbrev Store (Addr Cell : Type) := Addr → Option Cell

variable {Addr Cell : Type} [DecidableEq Addr]

namespace Store

def put (s : Store Addr Cell) (a : Addr) (c : Cell) : Store Addr Cell :=
  Function.update s a (some c)

def free (s : Store Addr Cell) (a : Addr) : Store Addr Cell :=
  Function.update s a none

@[simp]
theorem put_self (s : Store Addr Cell) (a : Addr) (c : Cell) : (s.put a c) a = some c := by
  simp [put]

@[simp]
theorem put_of_ne {a b : Addr} (s : Store Addr Cell) (c : Cell) (h : b ≠ a)
    : (s.put a c) b = s b := by
  simp [put, h]

@[simp]
theorem free_self (s : Store Addr Cell) (a : Addr) : (s.free a) a = none := by
  simp [free]

@[simp]
theorem free_of_ne {a b : Addr} (s : Store Addr Cell) (h : b ≠ a) : (s.free a) b = s b := by
  simp [free, h]

end Store

/--
`Chain link s p as q`: the pointer `p` leads through exactly the addresses `as`, in this order, to
the pointer `q`.
-/
def Chain (link : Cell → Option Addr) (s : Store Addr Cell)
    : Option Addr → List Addr → Option Addr → Prop
  | p, [], q => p = q
  | p, a :: as, q => p = some a ∧ ∃ c, s a = some c ∧ Chain link s (link c) as q

namespace Chain

variable {link : Cell → Option Addr} {s t : Store Addr Cell} {p q : Option Addr} {as bs : List Addr}

omit [DecidableEq Addr] in
theorem congr (h : Chain link s p as q) (hst : ∀ a ∈ as, t a = s a) : Chain link t p as q := by
  induction as generalizing p with
  | nil => exact h
  | cons a as ih =>
    rcases h with ⟨hp, c, hc, hrest⟩
    refine ⟨hp, c, ?_, ?_⟩
    . rw [hst a (by simp), hc]
    . apply ih hrest
      intro b hb
      apply hst
      simp [hb]

theorem put_of_not_mem {a : Addr} {c : Cell} (h : Chain link s p as q) (ha : a ∉ as)
    : Chain link (s.put a c) p as q := by
  apply h.congr
  intro b hb
  apply Store.put_of_ne
  rintro rfl
  exact ha hb

theorem free_of_not_mem {a : Addr} (h : Chain link s p as q) (ha : a ∉ as)
    : Chain link (s.free a) p as q := by
  apply h.congr
  intro b hb
  apply Store.free_of_ne
  rintro rfl
  exact ha hb

omit [DecidableEq Addr] in
theorem append_iff
    : Chain link s p (as ++ bs) q ↔ ∃ r, Chain link s p as r ∧ Chain link s r bs q := by
  induction as generalizing p with
  | nil => simp [Chain]
  | cons a as ih =>
    simp only [List.cons_append, Chain, ih]
    constructor
    . rintro ⟨hp, c, hc, r, h1, h2⟩
      exact ⟨r, ⟨hp, c, hc, h1⟩, h2⟩
    . rintro ⟨r, ⟨hp, c, hc, h1⟩, h2⟩
      exact ⟨hp, c, hc, r, h1, h2⟩

omit [DecidableEq Addr] in
theorem start_eq_none_iff (h : Chain link s p as none) : p = none ↔ as = [] := by
  cases as with
  | nil => simpa [Chain] using h
  | cons a as => simp [h.1]

theorem snoc {a b : Addr} {c d : Cell} (h : Chain link s p (as ++ [a]) none)
    (hnodup : (as ++ [a]).Nodup) (hb : b ∉ as ++ [a]) (hc : link c = some b) (hd : link d = none)
    : Chain link ((s.put b d).put a c) p (as ++ [a] ++ [b]) none := by
  rcases append_iff.mp h with ⟨r, hfront, hr, _⟩
  have ha : a ∉ as := by
    intro hmem
    exact (List.nodup_append.mp hnodup).2.2 a hmem a (by simp) rfl
  have hne : b ≠ a := by
    rintro rfl
    simp at hb
  have hbs : b ∉ as := by
    intro hmem
    simp [hmem] at hb
  rw [List.append_assoc]
  apply append_iff.mpr
  refine ⟨r, ?_, ?_⟩
  . exact (hfront.put_of_not_mem hbs).put_of_not_mem ha
  . refine ⟨hr, c, by simp, ?_⟩
    rw [hc]
    refine ⟨rfl, d, ?_, ?_⟩
    . rw [Store.put_of_ne _ _ hne, Store.put_self]
    . exact hd

end Chain
end Lib
