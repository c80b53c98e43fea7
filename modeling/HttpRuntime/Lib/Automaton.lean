import Mathlib.Data.List.Basic

/-!
This module contains partial deterministic automata: an automaton reads a word as long as it has a
next state, and a word that it cannot read has a first letter at which it stops.
-/

namespace Lib.Automaton

variable {σ α : Type}

def run (next : σ → α → Option σ) (q : σ) (word : List α) : Option σ := word.foldlM next q

/-- The automaton reads `before`, and then it cannot read `a`. -/
structure StopsAt (next : σ → α → Option σ) (q : σ) (before : List α) (a : α) (q' : σ) : Prop where
  reads : run next q before = some q'
  stops : next q' a = none

variable {next : σ → α → Option σ} {q q' : σ} {word before : List α} {a : α}

theorem run_cons (next : σ → α → Option σ) (q : σ) (a : α) (word : List α)
    : run next q (a :: word) = (next q a).bind (fun q' => run next q' word) := by
  unfold run
  rw [List.foldlM_cons]
  rfl

theorem run_append (next : σ → α → Option σ) (q : σ) (word word' : List α)
    : run next q (word ++ word') = (run next q word).bind (fun q' => run next q' word') := by
  unfold run
  rw [List.foldlM_append]
  rfl

theorem run_concat (h : run next q word = some q') (a : α) : run next q (word ++ [a]) = next q' a := by
  rw [run_append, h, Option.bind_some, run_cons]
  cases next q' a <;> rfl

theorem run_of_prefix (hbefore : before <+: word) (h : run next q word = some q')
    : ∃ q'', run next q before = some q'' := by
  obtain ⟨rest, rfl⟩ := hbefore
  rw [run_append, Option.bind_eq_some_iff] at h
  obtain ⟨q'', hq, _⟩ := h
  exact ⟨q'', hq⟩

theorem StopsAt.run_eq_none (h : StopsAt next q before a q') (hword : before ++ [a] <+: word)
    : run next q word = none := by
  obtain ⟨rest, rfl⟩ := hword
  rw [run_append, run_concat h.reads, h.stops, Option.bind_none]

theorem StopsAt.length_le {before' after after' : List α} {a' : α} {q₂ : σ}
    (h' : StopsAt next q before' a' q₂) (h : run next q before = some q')
    (heq : before ++ after = before' ++ a' :: after') : before.length ≤ before'.length := by
  by_contra hlt
  have hshort : before' ++ [a'] <+: before := by
    apply List.prefix_of_prefix_length_le _ (List.prefix_append before after)
    . rw [List.length_append, List.length_singleton]
      omega
    . rw [heq, List.append_cons before' a' after']
      exact List.prefix_append _ _
  have hnone := h'.run_eq_none hshort
  rw [h] at hnone
  cases hnone

/-- There is only one letter of a word at which the automaton stops. -/
theorem StopsAt.unique {before' after after' : List α} {a' : α} {q₂ : σ}
    (h : StopsAt next q before a q') (h' : StopsAt next q before' a' q₂)
    (heq : before ++ a :: after = before' ++ a' :: after')
    : before = before' ∧ a = a' ∧ after = after' := by
  have hle := h'.length_le h.reads heq
  have hge := h.length_le h'.reads heq.symm
  obtain ⟨hbefore, hrest⟩ := List.append_inj heq (Nat.le_antisymm hle hge)
  rw [List.cons.injEq] at hrest
  exact ⟨hbefore, hrest.1, hrest.2⟩

end Lib.Automaton
