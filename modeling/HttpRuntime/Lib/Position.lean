import Mathlib.Data.List.DropRight

/-!
This module contains lines and columns of the positions in a text, both counted from 1, and the
stretches of a text that a tokenizer cuts out of it.
-/

namespace Lib

variable {α : Type}

/-- The elements from `start` on up to `stop`. -/
structure Span where
  start : Nat
  stop : Nat
  start_le : start ≤ stop

def slice (text : List α) (start stop : Nat) : List α := (text.drop start).take (stop - start)

def Span.slice (span : Span) (text : List α) : List α := Lib.slice text span.start span.stop

def Span.Covers (span : Span) (i : Nat) : Prop := span.start ≤ i ∧ i < span.stop

section Slice

variable {text : List α} {i j k : Nat} {c : α}

theorem slice_eq_take (text : List α) (i n : Nat) : slice text i (i + n) = (text.drop i).take n := by
  unfold slice
  rw [Nat.add_sub_cancel_left]

theorem slice_append_slice (hij : i ≤ j) (hjk : j ≤ k)
    : slice text i j ++ slice text j k = slice text i k := by
  obtain ⟨m, rfl⟩ := Nat.exists_eq_add_of_le hij
  obtain ⟨n, rfl⟩ := Nat.exists_eq_add_of_le hjk
  rw [Nat.add_assoc, slice_eq_take, slice_eq_take, ← Nat.add_assoc, slice_eq_take, List.take_add,
    List.drop_drop]

theorem slice_succ (h : text[i]? = some c) : slice text i (i + 1) = [c] := by
  rcases List.getElem?_eq_some_iff.mp h with ⟨hi, rfl⟩
  rw [slice_eq_take, List.drop_eq_getElem_cons hi]
  rfl

theorem slice_cons (h : text[i]? = some c) (hij : i < j)
    : slice text i j = c :: slice text (i + 1) j := by
  rw [← slice_append_slice (Nat.le_succ i) hij, slice_succ h]
  rfl

end Slice

section Lines

variable [DecidableEq α] (newline : α) (text : List α)

def lineAt (pos : Nat) : Nat := 1 + (text.take pos).count newline

-- The elements between the last newline before the position and the position.
def lineBefore (pos : Nat) : List α := (text.take pos).rtakeWhile (fun c => c ≠ newline)

def columnAt (pos : Nat) : Nat := 1 + (lineBefore newline text pos).length

variable {newline text} {pos : Nat} {c : α}

omit [DecidableEq α] in
theorem take_succ_eq (h : text[pos]? = some c) : text.take (pos + 1) = text.take pos ++ [c] := by
  rw [List.take_add_one, h]
  rfl

theorem lineAt_newline (h : text[pos]? = some newline)
    : lineAt newline text (pos + 1) = lineAt newline text pos + 1 := by
  unfold lineAt
  rw [take_succ_eq h, List.count_append, List.count_singleton_self]
  omega

theorem lineAt_of_ne (h : text[pos]? = some c) (hc : c ≠ newline)
    : lineAt newline text (pos + 1) = lineAt newline text pos := by
  unfold lineAt
  rw [take_succ_eq h, List.count_append, List.count_singleton, if_neg (by simpa using hc)]
  omega

theorem columnAt_newline (h : text[pos]? = some newline) : columnAt newline text (pos + 1) = 1 := by
  unfold columnAt lineBefore
  rw [take_succ_eq h, List.rtakeWhile_concat_neg _ _ _ (by simp)]
  rfl

theorem columnAt_of_ne (h : text[pos]? = some c) (hc : c ≠ newline)
    : columnAt newline text (pos + 1) = columnAt newline text pos + 1 := by
  unfold columnAt lineBefore
  rw [take_succ_eq h, List.rtakeWhile_concat_pos _ _ _ (by simpa using hc), List.length_append,
    List.length_singleton]
  omega

end Lines

end Lib
