import Mathlib.Data.List.DropRight
import Mathlib.Data.List.TakeWhile

/-!
This module contains the scans of a buffer by an index, in the way a C program moves a pointer. A
scan that reads outside of the buffer has no result, so a result says that every read was inside.
-/

namespace Lib

variable {α : Type}

/-- `while (p(buffer[i])) i++;` -/
def scanWhile (p : α → Bool) (buffer : List α) (i : Nat) : Option Nat :=
  if h : i < buffer.length then
    if p buffer[i] then scanWhile p buffer (i + 1) else some i
  else
    none
termination_by buffer.length - i

/-- `while (i < stop && p(buffer[i])) i++;` -/
def scanUpTo (p : α → Bool) (buffer : List α) (i stop : Nat) : Option Nat :=
  if i < stop then
    if h : i < buffer.length then
      if p buffer[i] then scanUpTo p buffer (i + 1) stop else some i
    else
      none
  else
    some i
termination_by stop - i

/-- `while (stop > start && p(buffer[stop - 1])) stop--;` -/
def scanBack (p : α → Bool) (buffer : List α) (start stop : Nat) : Option Nat :=
  if start < stop then
    if h : stop - 1 < buffer.length then
      if p buffer[stop - 1] then scanBack p buffer start (stop - 1) else some stop
    else
      none
  else
    some stop
termination_by stop - start

def readSlice (buffer : List α) (i n : Nat) : Option (List α) :=
  if i + n ≤ buffer.length then some ((buffer.drop i).take n) else none

variable {p : α → Bool} {buffer : List α}

theorem le_of_scanWhile {i j : Nat} (h : scanWhile p buffer i = some j) : i ≤ j := by
  fun_induction scanWhile p buffer i with
  | case1 i _ _ ih =>
    have := ih h
    omega
  | case2 i =>
    cases h
    omega
  | case3 => cases h

theorem takeWhile_append_stop {c : α} (hc : p c = false) (run after : List α)
    : (run ++ c :: after).takeWhile p = run.takeWhile p := by
  induction run with
  | nil => exact List.takeWhile_cons_of_neg (by simp [hc])
  | cons d run ih =>
    rw [List.cons_append, List.takeWhile_cons, List.takeWhile_cons, ih]

theorem scanWhile_append {rest : List α} (hstop : ∃ c ∈ rest, p c = false) (before : List α)
    : scanWhile p (before ++ rest) before.length =
        some (before.length + (rest.takeWhile p).length) := by
  induction rest generalizing before with
  | nil =>
    obtain ⟨c, hc, _⟩ := hstop
    cases hc
  | cons d rest ih =>
    rw [scanWhile, dif_pos (by simp)]
    simp only [List.getElem_append_right (Nat.le_refl _), Nat.sub_self, List.getElem_cons_zero]
    split
    . next hd =>
      have hstop' : ∃ c ∈ rest, p c = false := by
        obtain ⟨c, hc, hpc⟩ := hstop
        refine ⟨c, ?_, hpc⟩
        apply List.mem_of_ne_of_mem _ hc
        rintro rfl
        rw [hd] at hpc
        cases hpc
      have hnext := ih hstop' (before ++ [d])
      rw [List.append_assoc, List.singleton_append, List.length_append, List.length_singleton]
        at hnext
      rw [hnext, List.takeWhile_cons_of_pos hd, List.length_cons]
      congr 1
      omega
    . next hd =>
      rw [List.takeWhile_cons_of_neg hd]
      rfl

theorem scanUpTo_append (run before after : List α)
    : scanUpTo p (before ++ (run ++ after)) before.length (before.length + run.length) =
        some (before.length + (run.takeWhile p).length) := by
  induction run generalizing before with
  | nil =>
    rw [scanUpTo, if_neg (by simp)]
    rfl
  | cons d run ih =>
    have hnext := ih (before ++ [d])
    rw [List.append_assoc, List.singleton_append, List.length_append, List.length_singleton] at hnext
    rw [scanUpTo, if_pos (by simp), dif_pos (by simp)]
    simp only [List.cons_append, List.getElem_append_right (Nat.le_refl _), Nat.sub_self,
      List.getElem_cons_zero]
    split
    . next hd =>
      rw [List.takeWhile_cons_of_pos hd, List.length_cons, List.length_cons, Nat.add_comm run.length,
        ← Nat.add_assoc, hnext]
      congr 1
      omega
    . next hd =>
      rw [List.takeWhile_cons_of_neg hd]
      rfl

theorem scanBack_append (run before after : List α)
    : scanBack p (before ++ (run ++ after)) before.length (before.length + run.length) =
        some (before.length + (run.rdropWhile p).length) := by
  induction run using List.reverseRecOn generalizing after with
  | nil =>
    rw [scanBack, if_neg (by simp)]
    rfl
  | append_singleton run d ih =>
    have hnext := ih (d :: after)
    have hlast : before.length + (run ++ [d]).length - 1 = before.length + run.length := by
      rw [List.length_append, List.length_singleton]
      omega
    rw [scanBack, if_pos (by simp), dif_pos (by simp)]
    simp only [hlast, List.append_assoc, List.singleton_append]
    rw [List.getElem_append_right (by omega), List.getElem_append_right (by omega)]
    simp only [Nat.add_sub_cancel_left, Nat.sub_self, List.getElem_cons_zero]
    split
    . next hd => rw [List.rdropWhile_concat_pos _ _ _ hd, hnext]
    . next hd => rw [List.rdropWhile_concat_neg _ _ _ hd]

theorem readSlice_append (run before after : List α)
    : readSlice (before ++ (run ++ after)) before.length run.length = some run := by
  unfold readSlice
  rw [if_pos (by simp), List.drop_left, List.take_left]

end Lib
