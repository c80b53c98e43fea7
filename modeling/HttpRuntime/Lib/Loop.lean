import Mathlib.Logic.Relation

/-!
This module contains loops. A round of a loop goes on with a new state, or it leaves with a result.
-/

namespace Lib.Loop

variable {σ ρ : Type}

/-- The result of a loop, if it takes no more than the given number of rounds. -/
def within (round : σ → σ ⊕ ρ) (rounds : Nat) (s : σ) : Option ρ :=
  match rounds with
  | 0 => none
  | rounds + 1 =>
    match round s with
    | .inl s' => within round rounds s'
    | .inr res => some res

-- The states in which the rounds of a loop begin.
def Reaches (round : σ → σ ⊕ ρ) : σ → σ → Prop := Relation.ReflTransGen (fun s s' => round s = .inl s')

variable {round : σ → σ ⊕ ρ} {s s' : σ} {res : ρ}

theorem within_goesOn (h : round s = .inl s') (rounds : Nat)
    : within round (rounds + 1) s = within round rounds s' := by
  conv => lhs; unfold within
  rw [h]

theorem within_leaves (h : round s = .inr res) (rounds : Nat)
    : within round (rounds + 1) s = some res := by
  unfold within
  rw [h]

theorem Reaches.of_invariant {Inv : σ → Prop} (h : Reaches round s s') (hs : Inv s)
    (hround : ∀ s s', Inv s → round s = .inl s' → Inv s') : Inv s' := by
  induction h with
  | refl => exact hs
  | tail _ hnext ih => exact hround _ _ ih hnext

/-- The result of a loop is that of a round which the loop comes to. -/
theorem reaches_of_within {rounds : Nat} (h : within round rounds s = some res)
    : ∃ s', Reaches round s s' ∧ round s' = .inr res := by
  induction rounds generalizing s with
  | zero => cases h
  | succ rounds ih =>
    cases hres : round s with
    | inl s' =>
      rw [within_goesOn hres] at h
      obtain ⟨s'', hreaches, hleaves⟩ := ih h
      exact ⟨s'', hreaches.head hres, hleaves⟩
    | inr res' =>
      rw [within_leaves hres] at h
      obtain rfl := Option.some.inj h
      exact ⟨s, .refl, hres⟩

/-- A measure that every round makes smaller bounds the number of rounds. -/
theorem within_of_measure {Inv : σ → Prop} (measure : σ → Nat) (hs : Inv s)
    (hround : ∀ s s', Inv s → round s = .inl s' → Inv s' ∧ measure s' < measure s) {rounds : Nat}
    (hrounds : measure s < rounds) : ∃ res, within round rounds s = some res := by
  induction rounds generalizing s with
  | zero => omega
  | succ rounds ih =>
    cases hres : round s with
    | inl s' =>
      obtain ⟨hs', hless⟩ := hround s s' hs hres
      rw [within_goesOn hres]
      apply ih hs'
      omega
    | inr res => exact ⟨res, within_leaves hres rounds⟩

/-- A function that unfolds as the loop does is what the loop computes. -/
theorem eq_of_within {f : σ → ρ} (hf : ∀ s, f s = (round s).elim f id) {rounds : Nat}
    (h : within round rounds s = some res) : res = f s := by
  induction rounds generalizing s with
  | zero => cases h
  | succ rounds ih =>
    rw [hf s]
    cases hres : round s with
    | inl s' =>
      rw [within_goesOn hres] at h
      exact ih h
    | inr res' =>
      rw [within_leaves hres] at h
      exact (Option.some.inj h).symm

end Lib.Loop
