import Mathlib.Order.WellFounded

/-!
This module contains runs of a system under a schedule, and why a run ends: there is a rank that no
allowed step raises, and in every state a thread whose next step lowers it. A schedule that is fair to
the threads leaves no state of the run without this step.
-/

namespace Lib.Fairness

variable {σ α τ β : Type}

/-- The state after the first `k` actions of a schedule. -/
def stateAt (step : σ → α → σ) (s : σ) (schedule : Nat → α) (k : Nat) : σ :=
  match k with
  | 0 => s
  | k + 1 => step (stateAt step s schedule k) (schedule k)

/-- The threads of a system get to act again and again. -/
def Fair (actor : α → Option τ) (threads : τ → Prop) (schedule : Nat → α) : Prop :=
  ∀ t, threads t → ∀ k, ∃ m, k ≤ m ∧ actor (schedule m) = some t

section Ranking

variable [Preorder β]

/--
`Helpful t s` tells that the next step of `t` lowers the rank of `s`. The steps of the others may
lower it too, but they do not keep `t` from doing so. Nothing is said of a step that is not allowed.
-/
structure Ranking (step : σ → α → σ) (actor : α → Option τ) (threads : τ → Prop)
    (Allowed : σ → α → Prop) (Inv Done : σ → Prop) (rank : σ → β) (Helpful : τ → σ → Prop) : Prop where
  inv : ∀ s a, Inv s → Inv (step s a)
  falls : ∀ s a, Allowed s a → Inv s → ¬ Done s → rank (step s a) ≤ rank s
  helps : ∀ s, Inv s → ¬ Done s → ∃ t, threads t ∧ Helpful t s
  stays : ∀ s a t, Allowed s a → Inv s → ¬ Done s → Helpful t s →
    rank (step s a) < rank s ∨ Helpful t (step s a)
  moves : ∀ s a t, Allowed s a → Inv s → ¬ Done s → Helpful t s → actor a = some t →
    rank (step s a) < rank s

variable {step : σ → α → σ} {actor : α → Option τ} {threads : τ → Prop} {Allowed : σ → α → Prop}
variable {Inv Done : σ → Prop}
variable {rank : σ → β} {Helpful : τ → σ → Prop} {s : σ} {schedule : Nat → α}

namespace Ranking

variable (h : Ranking step actor threads Allowed Inv Done rank Helpful)

include h

theorem inv_stateAt (hs : Inv s) (schedule : Nat → α) (k : Nat) : Inv (stateAt step s schedule k) := by
  induction k with
  | zero => exact hs
  | succ k ih => exact h.inv _ _ ih

variable (hallowed : ∀ k, Allowed (stateAt step s schedule k) (schedule k))

include hallowed

/-- As long as the rank stays as it is, a helpful thread stays helpful. -/
theorem helpful_stateAt (hs : Inv s) (hnever : ∀ k, ¬ Done (stateAt step s schedule k)) {t : τ} {k : Nat}
    (ht : Helpful t (stateAt step s schedule k)) (d : Nat)
    : (∃ j, rank (stateAt step s schedule j) < rank (stateAt step s schedule k)) ∨
        Helpful t (stateAt step s schedule (k + d)) ∧
          rank (stateAt step s schedule (k + d)) ≤ rank (stateAt step s schedule k) := by
  induction d with
  | zero => exact Or.inr ⟨ht, le_refl _⟩
  | succ d ih =>
    cases ih with
    | inl hless => exact Or.inl hless
    | inr hstays =>
      have ⟨ht', hle⟩ := hstays
      have hinv : Inv (stateAt step s schedule (k + d)) := h.inv_stateAt hs schedule (k + d)
      cases h.stays _ (schedule (k + d)) t (hallowed _) hinv (hnever _) ht' with
      | inl hless => exact Or.inl ⟨k + d + 1, lt_of_lt_of_le hless hle⟩
      | inr hnext => exact Or.inr ⟨hnext, le_trans (h.falls _ _ (hallowed _) hinv (hnever _)) hle⟩

theorem rank_falls (hfair : Fair actor threads schedule) (hs : Inv s)
    (hnever : ∀ k, ¬ Done (stateAt step s schedule k)) (k : Nat)
    : ∃ j, rank (stateAt step s schedule j) < rank (stateAt step s schedule k) := by
  obtain ⟨t, hthread, ht⟩ := h.helps _ (h.inv_stateAt hs schedule k) (hnever k)
  obtain ⟨m, hle, hactor⟩ := hfair t hthread k
  cases h.helpful_stateAt hallowed hs hnever ht (m - k) with
  | inl hless => exact hless
  | inr hstays =>
    rw [Nat.add_sub_cancel' hle] at hstays
    refine ⟨m + 1, ?_⟩
    apply lt_of_lt_of_le _ hstays.2
    exact h.moves _ _ t (hallowed m) (h.inv_stateAt hs schedule m) (hnever m) hstays.1 hactor

/-- A run under a fair schedule gets to its end. -/
theorem ends [WellFoundedLT β] (hfair : Fair actor threads schedule) (hs : Inv s)
    : ∃ k, Done (stateAt step s schedule k) := by
  by_contra hnone
  rw [not_exists] at hnone
  have hsmaller : ∀ b k, rank (stateAt step s schedule k) = b → False := by
    intro b
    induction b using WellFoundedLT.induction with
    | ind b ih =>
      intro k hb
      obtain ⟨j, hless⟩ := h.rank_falls hallowed hfair hs hnone k
      rw [hb] at hless
      exact ih _ hless j rfl
  exact hsmaller _ 0 rfl

end Ranking
end Ranking

section Bounded

variable {step : σ → α → σ} {Inv : σ → Prop} {rank : σ → Nat} {s : σ}

/-- When every step that changes the state lowers its rank, few actions of a run matter. -/
theorem bounded_of_rank (hinv : ∀ s a, Inv s → Inv (step s a))
    (hrank : ∀ s a, Inv s → step s a = s ∨ rank (step s a) < rank s) (hs : Inv s) (acts : List α)
    : ∃ acts' : List α,
        acts'.Sublist acts ∧ acts'.foldl step s = acts.foldl step s ∧ acts'.length ≤ rank s := by
  induction acts generalizing s with
  | nil => exact ⟨[], .slnil, rfl, Nat.zero_le _⟩
  | cons a acts ih =>
    obtain ⟨acts', hsub, hstate, hlength⟩ := ih (hinv s a hs)
    rw [List.foldl_cons]
    cases hrank s a hs with
    | inl hsame =>
      rw [hsame] at hstate hlength ⊢
      exact ⟨acts', hsub.cons a, hstate, hlength⟩
    | inr hless =>
      refine ⟨a :: acts', hsub.cons_cons a, hstate, ?_⟩
      rw [List.length_cons]
      omega

end Bounded

end Lib.Fairness
