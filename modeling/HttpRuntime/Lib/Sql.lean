import Mathlib.Data.List.Basic
import Mathlib.Tactic.Common

/-!
This module contains the part of a relational store that does not depend on a schema: storage
values, the three valued comparison, and tables whose row ids are handed out in increasing order.
-/

namespace Lib
namespace Sql

inductive Value where
  | null
  | integer (n : Int)
  | real (bits : UInt64)
  | text (bytes : List UInt8)
  | blob (bytes : List UInt8)
  deriving DecidableEq, Repr

namespace Value

-- The bytes of a text or a blob.
def size (v : Value) : Nat :=
  match v with
  | .text bytes => bytes.length
  | .blob bytes => bytes.length
  | _ => 0

-- `a = b` in SQL. A comparison with NULL is unknown.
def eq3 (a b : Value) : Option Bool :=
  match a, b with
  | .null, _ => none
  | _, .null => none
  | a, b => some (decide (a = b))

-- A condition selects a row only when it is true, not when it is unknown.
def same (a b : Value) : Bool :=
  a.eq3 b == some true

theorem same_iff {a b : Value} : a.same b = true ↔ a = b ∧ a ≠ .null := by
  cases a <;> cases b <;> simp [same, eq3]

end Value

-- The condition `a₁ = b₁ AND a₂ = b₂ AND ...`, which is also when two keys of a UNIQUE constraint
-- collide.
def allSame : List Value → List Value → Bool
  | [], [] => true
  | a :: as, b :: bs => a.same b && allSame as bs
  | _, _ => false

theorem allSame_iff {as bs : List Value}
    : allSame as bs = true ↔ as = bs ∧ ∀ a ∈ as, a ≠ .null := by
  induction as generalizing bs with
  | nil => cases bs <;> simp [allSame]
  | cons a as ih =>
    cases bs with
    | nil => simp [allSame]
    | cons b bs =>
      simp only [allSame, Bool.and_eq_true, Value.same_iff, ih, List.cons.injEq, List.forall_mem_cons]
      constructor
      . intro h
        exact ⟨⟨h.1.1, h.2.1⟩, h.1.2, h.2.2⟩
      . intro h
        exact ⟨⟨h.1.1, h.2.1⟩, h.1.2, h.2.2⟩

theorem allSame_self {as : List Value} (h : ∀ a ∈ as, a ≠ .null) : allSame as as = true := by
  rw [allSame_iff]
  exact ⟨rfl, h⟩

theorem allSame_of_null_mem {as bs : List Value} (h : .null ∈ bs) : allSame as bs = false := by
  rw [Bool.eq_false_iff]
  intro hsame
  rw [allSame_iff] at hsame
  exact hsame.2 .null (hsame.1 ▸ h) rfl

/-- A table with an AUTOINCREMENT id. Its rows stand in the order of their ids. -/
@[ext]
structure Table (ρ : Type) where
  rows : List (Nat × ρ)
  seq : Nat
  increasing : rows.Pairwise (fun r r' => r.1 < r'.1)
  bounded : ∀ r ∈ rows, r.1 ≤ seq

namespace Table

variable {ρ : Type}

def empty : Table ρ := ⟨[], 0, by simp, by simp⟩

def insert (t : Table ρ) (r : ρ) : Table ρ where
  rows := t.rows ++ [(t.seq + 1, r)]
  seq := t.seq + 1
  increasing := by
    rw [List.pairwise_append]
    refine ⟨t.increasing, by simp, ?_⟩
    intro a ha b hb
    simp only [List.mem_singleton] at hb
    have := t.bounded a ha
    rw [hb]
    omega
  bounded := by
    intro a ha
    rw [List.mem_append, List.mem_singleton] at ha
    cases ha with
    | inl h =>
      have := t.bounded a h
      omega
    | inr h => simp [h]

-- An insertion that was given up after its id had been drawn.
def skip (t : Table ρ) : Table ρ where
  rows := t.rows
  seq := t.seq + 1
  increasing := t.increasing
  bounded := by
    intro a ha
    have := t.bounded a ha
    omega

-- `n` insertions that were given up.
def skips (t : Table ρ) (n : Nat) : Table ρ where
  rows := t.rows
  seq := t.seq + n
  increasing := t.increasing
  bounded := by
    intro a ha
    have := t.bounded a ha
    omega

def update (t : Table ρ) (p : Nat × ρ → Bool) (f : ρ → ρ) : Table ρ where
  rows := t.rows.map (fun r => if p r then (r.1, f r.2) else r)
  seq := t.seq
  increasing := by
    rw [List.pairwise_map]
    apply t.increasing.imp
    intro a b h
    split <;> split <;> exact h
  bounded := by
    intro a ha
    rcases List.mem_map.mp ha with ⟨b, hb, heq⟩
    have := t.bounded b hb
    rw [← heq]
    split <;> exact this

-- `DELETE` of every row. The ids go on from where they were.
def clear (t : Table ρ) : Table ρ where
  rows := []
  seq := t.seq
  increasing := by simp
  bounded := by simp

/-- `SELECT ... WHERE key = k LIMIT 1` -/
def lookup (t : Table ρ) (key : ρ → List Value) (k : List Value) : Option (Nat × ρ) :=
  t.rows.find? (fun r => allSame (key r.2) k)

/-- `INSERT OR IGNORE` under the constraint `UNIQUE(key)`. The flag tells whether a row was added. -/
def insertOrIgnore (t : Table ρ) (key : ρ → List Value) (r : ρ) : Table ρ × Bool :=
  match t.lookup key (key r) with
  | some _ => (t.skip, false)
  | none => (t.insert r, true)

-- What the UNIQUE constraint promises about a stored table.
def Unique (t : Table ρ) (key : ρ → List Value) : Prop :=
  t.rows.Pairwise (fun r r' => allSame (key r.2) (key r'.2) = false)

@[simp]
theorem rows_insert (t : Table ρ) (r : ρ) : (t.insert r).rows = t.rows ++ [(t.seq + 1, r)] := rfl

@[simp]
theorem rows_skip (t : Table ρ) : t.skip.rows = t.rows := rfl

@[simp]
theorem seq_skip (t : Table ρ) : t.skip.seq = t.seq + 1 := rfl

theorem eq_of_mem_of_id_eq {t : Table ρ} {r r' : Nat × ρ} (hr : r ∈ t.rows) (hr' : r' ∈ t.rows)
    (h : r.1 = r'.1) : r = r' := by
  have hinj : ∀ x ∈ t.rows, ∀ y ∈ t.rows, x.1 = y.1 → x = y := by
    apply List.Pairwise.forall_of_forall_of_flip
    . intro x _ _
      rfl
    . apply t.increasing.imp
      intro a b hlt heq
      omega
    . apply t.increasing.imp
      intro a b hlt heq
      omega
  exact hinj r hr r' hr' h

theorem find?_id {t : Table ρ} {row : Nat × ρ} (hrow : row ∈ t.rows) {p : Nat × ρ → Bool}
    (hp : p row = true) (hid : ∀ r, p r = true → r.1 = row.1) : t.rows.find? p = some row := by
  cases hfind : t.rows.find? p with
  | none =>
    rw [List.find?_eq_none] at hfind
    exact absurd hp (hfind row hrow)
  | some r =>
    have hr := List.mem_of_find?_eq_some hfind
    rw [eq_of_mem_of_id_eq hr hrow (hid r (List.find?_some hfind))]

/-- An update that makes its rows leave a selection takes exactly these rows out of it. -/
theorem filter_update {t : Table ρ} {p q : Nat × ρ → Bool} {f : ρ → ρ}
    (h : ∀ r : Nat × ρ, p (r.1, f r.2) = false)
    : (t.update q f).rows.filter p = (t.rows.filter p).filter (fun r => !q r) := by
  unfold update
  dsimp only
  induction t.rows with
  | nil => rfl
  | cons r rows ih =>
    rw [List.map_cons, List.filter_cons, List.filter_cons, ih]
    cases hq : q r with
    | true =>
      rw [if_pos rfl, h, if_neg Bool.false_ne_true]
      split
      . rw [List.filter_cons, hq]
        rfl
      . rfl
    | false =>
      rw [if_neg Bool.false_ne_true]
      split
      . rw [List.filter_cons, hq]
        rfl
      . rfl

theorem length_filter_id_ne {rows : List (Nat × ρ)} (h : rows.Pairwise (fun r r' => r.1 < r'.1))
    (id : Int)
    : (rows.filter (fun r => !decide ((r.1 : Int) = id))).length +
        (if rows.any (fun r => decide ((r.1 : Int) = id)) = true then 1 else 0) = rows.length := by
  induction rows with
  | nil => rfl
  | cons r rows ih =>
    rw [List.pairwise_cons] at h
    specialize ih h.2
    rw [List.filter_cons, List.any_cons, List.length_cons]
    cases hr : decide ((r.1 : Int) = id) with
    | true =>
      have hrest : rows.any (fun r => decide ((r.1 : Int) = id)) = false := by
        rw [List.any_eq_false]
        intro r' hr'
        have := h.1 r' hr'
        rw [decide_eq_true_iff] at hr ⊢
        omega
      rw [hrest, if_neg Bool.false_ne_true] at ih
      rw [Bool.true_or, if_pos rfl, Bool.not_true, if_neg Bool.false_ne_true]
      omega
    | false =>
      rw [Bool.false_or, Bool.not_false, if_pos rfl, List.length_cons]
      omega

section Lookup

variable {t : Table ρ} {key : ρ → List Value} {k : List Value} {r : ρ} {row : Nat × ρ}

theorem mem_of_lookup (h : t.lookup key k = some row) : row ∈ t.rows :=
  List.mem_of_find?_eq_some h

theorem key_of_lookup (h : t.lookup key k = some row) : key row.2 = k ∧ ∀ v ∈ k, v ≠ .null := by
  have hsame := List.find?_some h
  have hiff := allSame_iff.mp hsame
  exact ⟨hiff.1, hiff.1 ▸ hiff.2⟩

theorem lookup_id_eq_iff {k' : List Value} {row' : Nat × ρ} (h : t.lookup key k = some row)
    (h' : t.lookup key k' = some row') : row.1 = row'.1 ↔ k = k' := by
  constructor
  . intro hid
    rw [← (key_of_lookup h).1, ← (key_of_lookup h').1,
      eq_of_mem_of_id_eq (mem_of_lookup h) (mem_of_lookup h') hid]
  . intro hk
    rw [hk, h', Option.some.injEq] at h
    rw [h]

theorem lookup_of_null_mem (h : .null ∈ k) : t.lookup key k = none := by
  unfold lookup
  rw [List.find?_eq_none]
  intro row _
  rw [allSame_of_null_mem h]
  simp

theorem lookup_insert_of_none (h : t.lookup key k = none)
    : (t.insert r).lookup key k =
        if allSame (key r) k then some (t.seq + 1, r) else none := by
  unfold lookup at h ⊢
  rw [rows_insert, List.find?_append, h, Option.none_or]
  split
  . next heq => simp [heq]
  . next heq => simp [heq]

theorem lookup_insert_of_some (h : t.lookup key k = some row)
    : (t.insert r).lookup key k = some row := by
  unfold lookup at h ⊢
  rw [rows_insert, List.find?_append, h, Option.some_or]

@[simp]
theorem lookup_skip : t.skip.lookup key k = t.lookup key k := rfl

theorem lookup_insertOrIgnore_of_some (h : t.lookup key k = some row)
    : (t.insertOrIgnore key r).1.lookup key k = some row := by
  unfold insertOrIgnore
  split
  . exact h
  . exact lookup_insert_of_some h

theorem lookup_insertOrIgnore_self (hkey : ∀ v ∈ key r, v ≠ .null)
    : (t.insertOrIgnore key r).1.lookup key (key r) =
        some ((t.lookup key (key r)).getD (t.seq + 1, r)) := by
  unfold insertOrIgnore
  cases h : t.lookup key (key r) with
  | some row => simpa using h
  | none =>
    simp only [Option.getD_none]
    rw [lookup_insert_of_none h, allSame_self hkey]
    rfl

theorem insertOrIgnore_of_some (h : t.lookup key (key r) = some row)
    : t.insertOrIgnore key r = (t.skip, false) := by
  unfold insertOrIgnore
  rw [h]

theorem insertOrIgnore_of_none (h : t.lookup key (key r) = none)
    : t.insertOrIgnore key r = (t.insert r, true) := by
  unfold insertOrIgnore
  rw [h]

theorem mem_rows_insertOrIgnore (h : row ∈ (t.insertOrIgnore key r).1.rows)
    : row ∈ t.rows ∨ row = (t.seq + 1, r) := by
  unfold insertOrIgnore at h
  split at h
  . exact Or.inl h
  . rw [rows_insert, List.mem_append, List.mem_singleton] at h
    exact h

theorem mem_insertOrIgnore_of_mem (h : row ∈ t.rows) : row ∈ (t.insertOrIgnore key r).1.rows := by
  unfold insertOrIgnore
  split
  . exact h
  . rw [rows_insert, List.mem_append]
    exact Or.inl h

theorem seq_insertOrIgnore : (t.insertOrIgnore key r).1.seq = t.seq + 1 := by
  unfold insertOrIgnore
  split <;> rfl

theorem insertOrIgnore_added_iff : (t.insertOrIgnore key r).2 = true ↔ t.lookup key (key r) = none := by
  unfold insertOrIgnore
  split
  . next heq => simp [heq]
  . next heq => simp [heq]

theorem lookup_update {p : Nat × ρ → Bool} {f : ρ → ρ} (hf : ∀ r, key (f r) = key r)
    : (t.update p f).lookup key k =
        (t.lookup key k).map (fun r => if p r then (r.1, f r.2) else r) := by
  unfold lookup update
  dsimp only
  rw [List.find?_map]
  congr 2
  funext r
  simp only [Function.comp_apply]
  split
  . rw [hf]
  . rfl

theorem Unique.insertOrIgnore (h : t.Unique key) : (t.insertOrIgnore key r).1.Unique key := by
  unfold Table.insertOrIgnore
  split
  . exact h
  . next hnone =>
    unfold Unique
    rw [rows_insert, List.pairwise_append]
    refine ⟨h, by simp, ?_⟩
    intro a ha b hb
    simp only [List.mem_singleton] at hb
    unfold lookup at hnone
    rw [List.find?_eq_none] at hnone
    rw [hb]
    simpa using hnone a ha

theorem Unique.update {p : Nat × ρ → Bool} {f : ρ → ρ} (hf : ∀ r, key (f r) = key r)
    (h : t.Unique key) : (t.update p f).Unique key := by
  unfold Unique Table.update
  rw [List.pairwise_map]
  apply h.imp
  intro a b hab
  split <;> split <;> simpa [hf] using hab

theorem Unique.filter_eq (h : t.Unique key) (hlookup : t.lookup key k = some row)
    : t.rows.filter (fun r => allSame (key r.2) k) = [row] := by
  unfold lookup at hlookup
  unfold Unique at h
  generalize t.rows = rows at h hlookup
  induction rows with
  | nil => simp at hlookup
  | cons a rows ih =>
    rw [List.pairwise_cons] at h
    rw [List.find?_cons] at hlookup
    split at hlookup
    . next hsame =>
      cases hlookup
      rw [List.filter_cons, if_pos hsame, List.cons.injEq]
      refine ⟨rfl, ?_⟩
      rw [List.filter_eq_nil_iff]
      intro b hb hb'
      have hab := h.1 b hb
      have h1 := allSame_iff.mp hsame
      have h2 := allSame_iff.mp hb'
      rw [h1.1, ← h2.1, allSame_self h2.2] at hab
      cases hab
    . next hsame =>
      rw [List.filter_cons, if_neg (by simp [hsame])]
      exact ih h.2 hlookup

theorem Unique.eq_of_key_eq (h : t.Unique key) {row' : Nat × ρ} (hrow : row ∈ t.rows)
    (hrow' : row' ∈ t.rows) (hkey : key row.2 = key row'.2) (hnull : ∀ v ∈ key row.2, v ≠ .null)
    : row = row' := by
  have hinj : ∀ x ∈ t.rows, ∀ y ∈ t.rows, allSame (key x.2) (key y.2) = true → x = y := by
    apply List.Pairwise.forall_of_forall_of_flip
    . intro x _ _
      rfl
    . apply h.imp
      intro a b hab hsame
      rw [hab] at hsame
      cases hsame
    . apply h.imp
      intro a b hab hsame
      rw [allSame_iff] at hsame
      rw [← hsame.1, allSame_self hsame.2] at hab
      cases hab
  apply hinj row hrow row' hrow'
  rw [← hkey, allSame_self hnull]

-- What one `INSERT OR IGNORE` can do to a table.
inductive Grown (key : ρ → List Value) (t : Table ρ) : Table ρ → Prop where
  | same : Grown key t t
  | skip : Grown key t t.skip
  | insertOrIgnore (r : ρ) : Grown key t (t.insertOrIgnore key r).1

theorem Grown.of_or {t' : Table ρ} (h : t' = t.skip ∨ ∃ r, t' = (t.insertOrIgnore key r).1)
    : Grown key t t' := by
  rcases h with h | ⟨r, h⟩
  . rw [h]
    exact .skip
  . rw [h]
    exact .insertOrIgnore r

theorem Grown.unique {t' : Table ρ} (h : Grown key t t') (hunique : t.Unique key) : t'.Unique key := by
  cases h with
  | same => exact hunique
  | skip => exact hunique
  | insertOrIgnore r => exact hunique.insertOrIgnore

theorem Grown.mem {t' : Table ρ} (h : Grown key t t') (hrow : row ∈ t.rows) : row ∈ t'.rows := by
  cases h with
  | same => exact hrow
  | skip => exact hrow
  | insertOrIgnore r => exact mem_insertOrIgnore_of_mem hrow

theorem Grown.mem_or_lt {t' : Table ρ} (h : Grown key t t') (hrow : row ∈ t'.rows)
    : row ∈ t.rows ∨ t.seq < row.1 := by
  cases h with
  | same => exact Or.inl hrow
  | skip => exact Or.inl hrow
  | insertOrIgnore r =>
    cases mem_rows_insertOrIgnore hrow with
    | inl hrow => exact Or.inl hrow
    | inr hrow =>
      right
      rw [hrow]
      exact Nat.lt_succ_self _

theorem Grown.mem_or_lt_of {t₀ t' : Table ρ} (h : Grown key t t') (hseq : t₀.seq ≤ t.seq)
    (hrows : ∀ row ∈ t.rows, row ∈ t₀.rows ∨ t₀.seq < row.1)
    : ∀ row ∈ t'.rows, row ∈ t₀.rows ∨ t₀.seq < row.1 := by
  intro row hrow
  cases h.mem_or_lt hrow with
  | inl hold => exact hrows row hold
  | inr hnew => exact Or.inr (Nat.lt_of_le_of_lt hseq hnew)

theorem Grown.lookup {t' : Table ρ} (h : Grown key t t') (hlookup : t.lookup key k = some row)
    : t'.lookup key k = some row := by
  cases h with
  | same => exact hlookup
  | skip => exact hlookup
  | insertOrIgnore r => exact lookup_insertOrIgnore_of_some hlookup

theorem Grown.seq {t' : Table ρ} (h : Grown key t t') : t.seq ≤ t'.seq ∧ t'.seq ≤ t.seq + 1 := by
  cases h with
  | same => omega
  | skip =>
    rw [seq_skip]
    omega
  | insertOrIgnore r =>
    rw [seq_insertOrIgnore]
    omega

end Lookup

theorem update_of_forall_false {ρ : Type} {t : Table ρ} {p : Nat × ρ → Bool}
    (h : ∀ row ∈ t.rows, p row = false) (f : ρ → ρ) : t.update p f = t := by
  apply Table.ext
  . unfold update
    dsimp only
    nth_rewrite 2 [← List.map_id t.rows]
    apply List.map_congr_left
    intro row hrow
    simp [h row hrow]
  . rfl

section After

variable {ρ : Type} {t t' t'' : Table ρ}

/-- No id that `t` has drawn belongs to a row of `t'`, but for those of rows of `t`. -/
structure After (t t' : Table ρ) : Prop where
  seq : t.seq ≤ t'.seq
  rows : ∀ row ∈ t'.rows, row.1 ≤ t.seq → ∃ row' ∈ t.rows, row'.1 = row.1

theorem After.refl (t : Table ρ) : t.After t where
  seq := Nat.le_refl _
  rows := fun row hrow _ => ⟨row, hrow, rfl⟩

theorem After.trans (h : t.After t') (h' : t'.After t'') : t.After t'' where
  seq := Nat.le_trans h.seq h'.seq
  rows := by
    intro row hrow hle
    obtain ⟨row', hrow', hid⟩ := h'.rows row hrow (Nat.le_trans hle h.seq)
    rw [← hid] at hle ⊢
    exact h.rows row' hrow' hle

theorem after_skip (t : Table ρ) : t.After t.skip where
  seq := Nat.le_succ _
  rows := fun row hrow _ => ⟨row, hrow, rfl⟩

theorem after_insert (t : Table ρ) (r : ρ) : t.After (t.insert r) where
  seq := Nat.le_succ _
  rows := by
    intro row hrow hle
    rw [rows_insert, List.mem_append, List.mem_singleton] at hrow
    cases hrow with
    | inl hold => exact ⟨row, hold, rfl⟩
    | inr hnew =>
      rw [hnew] at hle
      exact absurd hle (Nat.not_succ_le_self _)

theorem after_insertOrIgnore (t : Table ρ) (key : ρ → List Value) (r : ρ)
    : t.After (t.insertOrIgnore key r).1 := by
  unfold insertOrIgnore
  split
  . exact after_skip t
  . exact after_insert t r

theorem after_update (t : Table ρ) (p : Nat × ρ → Bool) (f : ρ → ρ) : t.After (t.update p f) where
  seq := Nat.le_refl _
  rows := by
    intro row hrow _
    obtain ⟨old, hold, heq⟩ := List.mem_map.mp hrow
    refine ⟨old, hold, ?_⟩
    rw [← heq]
    split <;> rfl

theorem after_clear (t : Table ρ) : t.After t.clear where
  seq := Nat.le_refl _
  rows := fun _ hrow _ => absurd hrow List.not_mem_nil

theorem Grown.after {key : ρ → List Value} (h : Grown key t t') : t.After t' := by
  cases h with
  | same => exact After.refl t
  | skip => exact after_skip t
  | insertOrIgnore r => exact after_insertOrIgnore t key r

theorem After.lt_of_rows_nil (h : t.After t') (hnil : t.rows = []) {row : Nat × ρ} (hrow : row ∈ t'.rows)
    : t.seq < row.1 := by
  apply Nat.lt_of_not_le
  intro hle
  obtain ⟨row', hrow', _⟩ := h.rows row hrow hle
  rw [hnil] at hrow'
  cases hrow'

end After

end Table
end Sql
end Lib
