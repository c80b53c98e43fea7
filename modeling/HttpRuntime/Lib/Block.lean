import Mathlib.Data.List.Basic
import Mathlib.Data.List.TakeWhile

/-!
This module contains blocks of memory as a program gets them from the allocator: `realloc` keeps the
cells that both sizes have and leaves the others without a value, and a write has to lie in the block.
-/

namespace Lib

/-- The cells of a block. A cell that nothing was written to has no value. -/
abbrev Block (α : Type) := List (Option α)

namespace Block

variable {α : Type}

-- The null pointer leads to no cell.
def cells (block : Option (Block α)) : Block α := block.getD []

def realloc (block : Option (Block α)) (capacity : Nat) : Block α :=
  (cells block).take capacity ++ List.replicate (capacity - (cells block).length) none

/-- The values are written from the offset on. A write outside of the block has no result. -/
def write (block : Option (Block α)) (offset : Nat) (values : List α) : Option (Option (Block α)) :=
  if values = [] then
    some block
  else if offset + values.length ≤ (cells block).length then
    some (some ((cells block).take offset ++ values.map some ++
      (cells block).drop (offset + values.length)))
  else
    none

/-- A block of this capacity, whose first cells hold the data. -/
structure Holds (block : Option (Block α)) (capacity : Nat) (data : List α) : Prop where
  length : (cells block).length = capacity
  data : (cells block).take data.length = data.map some

variable {block : Option (Block α)} {capacity : Nat} {data values : List α}

theorem holds_none : Holds (none : Option (Block α)) 0 [] where
  length := rfl
  data := rfl

theorem Holds.length_le (h : Holds block capacity data) : data.length ≤ capacity := by
  have hlength := congrArg List.length h.data
  rw [List.length_take, List.length_map, h.length] at hlength
  omega

theorem Holds.of_append (h : Holds block capacity (data ++ values)) : Holds block capacity data := by
  refine ⟨h.length, ?_⟩
  have htake := congrArg (List.take data.length) h.data
  rw [List.take_take, List.length_append, Nat.min_eq_left (Nat.le_add_right _ _), List.map_append] at htake
  rw [htake, List.take_left' (List.length_map _)]

theorem Holds.getElem (h : Holds block capacity data) (i : Nat) (hi : i < data.length)
    : (cells block)[i]? = some (some data[i]) := by
  have hget := congrArg (fun l => l[i]?) h.data
  rw [List.getElem?_take_of_lt hi, List.getElem?_map, List.getElem?_eq_getElem hi] at hget
  exact hget

theorem Holds.realloc {capacity' : Nat} (h : Holds block capacity data) (hgrows : capacity ≤ capacity')
    : Holds (some (realloc block capacity')) capacity' data := by
  have hlength := h.length
  have hdata := h.length_le
  have htake : (cells block).take capacity' = cells block := List.take_of_length_le (by omega)
  constructor
  . unfold Block.realloc cells at *
    rw [Option.getD_some, htake, List.length_append, List.length_replicate]
    omega
  . rw [← h.data]
    unfold Block.realloc cells at *
    rw [Option.getD_some, htake, List.take_append_of_le_length (by omega)]

/-- What is written behind the data is held behind it. -/
theorem Holds.write (h : Holds block capacity data) (hroom : data.length + values.length ≤ capacity)
    : ∃ block', write block data.length values = some block' ∧ Holds block' capacity (data ++ values) ∧
        (block' = none ↔ block = none) := by
  unfold Block.write
  by_cases hnil : values = []
  . rw [if_pos hnil, hnil, List.append_nil]
    exact ⟨block, rfl, h, Iff.rfl⟩
  . have hlength := h.length
    have hpos := List.length_pos_of_ne_nil hnil
    have hsome : block ≠ none := by
      intro hnone
      rw [hnone] at hlength
      change 0 = capacity at hlength
      omega
    rw [if_neg hnil, if_pos (by omega)]
    refine ⟨_, rfl, ⟨?_, ?_⟩, by simp [hsome]⟩
    . unfold cells at *
      simp only [Option.getD_some, List.length_append, List.length_take, List.length_map, List.length_drop]
      omega
    . have hlen : ((cells block).take data.length ++ values.map some).length = (data ++ values).length := by
        simp only [List.length_append, List.length_take, List.length_map]
        omega
      change List.take _ ((cells block).take data.length ++ values.map some ++ _) = _
      rw [List.take_left' hlen, h.data, List.map_append]

end Block

end Lib
