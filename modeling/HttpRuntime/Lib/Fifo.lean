import Mathlib.Data.List.Basic

/-!
This module contains first-in first-out queues that can be closed: a closed queue accepts nothing
but still hands out what it holds.
-/

namespace Lib

structure Fifo (α : Type) where
  items : List α
  closed : Bool
  deriving DecidableEq, Repr

namespace Fifo

variable {α : Type}

def empty : Fifo α := ⟨[], false⟩

def push (q : Fifo α) (x : α) : Fifo α × Bool :=
  if q.closed then
    (q, false)
  else
    ({ q with items := q.items ++ [x] }, true)

/-- What a consumer sees: an item, the end of a closed queue, or a queue it has to wait for. -/
inductive Pop (α : Type) where
  | item (x : α)
  | closed
  | wait
  deriving DecidableEq, Repr

def pop (q : Fifo α) : Fifo α × Pop α :=
  match q.items with
  | x :: xs => ({ q with items := xs }, .item x)
  | [] => (q, if q.closed then .closed else .wait)

def close (q : Fifo α) : Fifo α :=
  { q with closed := true }

@[simp]
theorem close_items (q : Fifo α) : q.close.items = q.items := rfl

@[simp]
theorem close_closed (q : Fifo α) : q.close.closed = true := rfl

theorem push_of_open {q : Fifo α} {x : α} (h : q.closed = false)
    : q.push x = ({ q with items := q.items ++ [x] }, true) := by
  simp [push, h]

theorem push_of_closed {q : Fifo α} {x : α} (h : q.closed = true) : q.push x = (q, false) := by
  simp [push, h]

@[simp]
theorem push_closed (q : Fifo α) (x : α) : (q.push x).1.closed = q.closed := by
  unfold push
  split <;> rfl

@[simp]
theorem pop_closed (q : Fifo α) : q.pop.1.closed = q.closed := by
  unfold pop
  split <;> rfl

theorem pop_of_cons {q : Fifo α} {x : α} {xs : List α} (h : q.items = x :: xs)
    : q.pop = ({ q with items := xs }, .item x) := by
  simp [pop, h]

theorem pop_of_nil {q : Fifo α} (h : q.items = [])
    : q.pop = (q, if q.closed then .closed else .wait) := by
  simp [pop, h]

section Map

variable {β : Type} (f : α → β)

def map (q : Fifo α) : Fifo β := ⟨q.items.map f, q.closed⟩

def Pop.map (p : Pop α) : Pop β :=
  match p with
  | .item x => .item (f x)
  | .closed => .closed
  | .wait => .wait

theorem push_map (q : Fifo α) (x : α) : (q.map f).push (f x) = ((q.push x).1.map f, (q.push x).2) := by
  unfold push
  cases hclosed : q.closed with
  | true => simp [map, hclosed]
  | false => simp [map, hclosed]

theorem pop_map (q : Fifo α) : (q.map f).pop = (q.pop.1.map f, q.pop.2.map f) := by
  unfold pop
  cases hitems : q.items with
  | nil =>
    simp only [map, hitems, List.map_nil]
    split <;> rfl
  | cons x xs =>
    simp only [map, hitems, List.map_cons]
    rfl

end Map

end Fifo
end Lib
