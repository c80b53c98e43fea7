import Mathlib.Data.List.Basic
import Mathlib.Tactic.Common

/-!
This module contains logs of events that grow at their end, and the events of a log that must take
turns.
-/

namespace Lib.History

variable {ε : Type} (p q : ε → Prop)

def Open (log : List ε) : Prop :=
  ∃ before e after, log = before ++ e :: after ∧ p e ∧ ∀ r ∈ after, ¬ q r

-- Between any two `p` there is a `q`.
def Separated (log : List ε) : Prop :=
  ∀ before e between e' after,
    log = before ++ e :: (between ++ e' :: after) → p e → p e' → ∃ r ∈ between, q r

variable {p q} {log : List ε} {e : ε}

theorem not_open_nil : ¬ Open p q [] := by
  rintro ⟨before, e, after, h, _⟩
  simp at h

theorem open_concat : Open p q (log ++ [e]) ↔ p e ∨ (Open p q log ∧ ¬ q e) := by
  constructor
  . rintro ⟨before, e', after, heq, hp, hafter⟩
    cases List.eq_nil_or_concat after with
    | inl hnil =>
      rw [hnil] at heq
      have h := List.append_inj_right' heq rfl
      rw [List.singleton_inj] at h
      left
      rwa [h]
    | inr h =>
      rcases h with ⟨after', r, rfl⟩
      rw [List.concat_eq_append] at heq hafter
      have hsplit : log ++ [e] = (before ++ e' :: after') ++ [r] := by
        rw [heq, List.append_assoc, List.cons_append]
      have hlog := List.append_inj_left' hsplit rfl
      have hlast := List.append_inj_right' hsplit rfl
      rw [List.singleton_inj] at hlast
      rw [List.forall_mem_append, List.forall_mem_singleton] at hafter
      right
      rw [hlast]
      exact ⟨⟨before, e', after', hlog, hp, hafter.1⟩, hafter.2⟩
  . rintro (hp | ⟨⟨before, e', after, heq, hp, hafter⟩, hq⟩)
    . exact ⟨log, e, [], rfl, hp, by simp⟩
    . refine ⟨before, e', after ++ [e], ?_, hp, ?_⟩
      . rw [heq, List.append_assoc, List.cons_append]
      . rw [List.forall_mem_append, List.forall_mem_singleton]
        exact ⟨hafter, hq⟩

theorem separated_nil : Separated p q [] := by
  intro before e between e' after h
  simp at h

/-- A log stays separated when a `p` is only added while none is open. -/
theorem Separated.concat (h : Separated p q log) (he : p e → ¬ Open p q log)
    : Separated p q (log ++ [e]) := by
  intro before a between b after heq ha hb
  cases List.eq_nil_or_concat after with
  | inl hnil =>
    have hsplit : log ++ [e] = (before ++ a :: between) ++ [b] := by
      rw [heq, hnil, List.append_assoc, List.cons_append]
    have hlog := List.append_inj_left' hsplit rfl
    have hlast := List.append_inj_right' hsplit rfl
    rw [List.singleton_inj] at hlast
    rw [← hlast] at hb
    by_contra hnone
    apply he hb
    refine ⟨before, a, between, hlog, ha, ?_⟩
    intro r hr hq
    exact hnone ⟨r, hr, hq⟩
  | inr hconcat =>
    rcases hconcat with ⟨after', r, rfl⟩
    rw [List.concat_eq_append] at heq
    have hsplit : log ++ [e] = (before ++ a :: (between ++ b :: after')) ++ [r] := by
      rw [heq]
      simp
    exact h before a between b after' (List.append_inj_left' hsplit rfl) ha hb

end Lib.History
