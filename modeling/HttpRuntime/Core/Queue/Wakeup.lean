import HttpRuntime.Core.Queue.Lemmas
import Mathlib.Logic.Relation

/-!
This module contains the threads around one queue: who sleeps in `pthread_cond_wait`, who was woken
and is on the way back to the lock, and the proof that no wake-up is lost.
-/

open Lib

namespace HttpRuntime

abbrev Tid := Nat

structure Monitor (α : Type) where
  mem : QueueMem α
  blocked : List Tid
  woken : List Tid

variable {α : Type}

namespace Monitor

def init : Monitor α := { mem := createQueue, blocked := [], woken := [] }

-- `pthread_cond_signal`: one sleeping thread of the system's choice, nobody if nobody sleeps.
inductive Signal : List Tid → List Tid → List Tid → List Tid → Prop where
  | nobody (woken : List Tid) : Signal [] woken [] woken
  | one {blocked woken : List Tid} {t : Tid} (h : t ∈ blocked)
    : Signal blocked woken (blocked.erase t) (t :: woken)

/--
One critical section. A woken thread tests the loop condition of `queue_pop` again like any other
consumer. `size++` past the largest `int` has no defined meaning, so there is no such step.
-/
inductive Step : Monitor α → Monitor α → Prop where
  | pushAccepted {s : Monitor α} {mem : QueueMem α} {blocked woken : List Tid}
    (data : Option α) (alloc : Option Addr)
    (hpush : queuePush s.mem data alloc = some (mem, queueSuccess))
    (hsize : s.mem.queue.size + 1 < 2 ^ 31)
    (hsignal : Signal s.blocked s.woken blocked woken)
    : Step s { mem := mem, blocked := blocked, woken := woken }
  | pushRejected {s : Monitor α} {mem : QueueMem α} (data : Option α) (alloc : Option Addr)
    (hpush : queuePush s.mem data alloc = some (mem, queueError))
    : Step s { s with mem := mem }
  | popWait {s : Monitor α} {mem : QueueMem α} (t : Tid)
    (hfresh : t ∉ s.blocked ∧ t ∉ s.woken)
    (hpop : queuePop s.mem = some (mem, .wait))
    : Step s { s with mem := mem, blocked := t :: s.blocked }
  | popDone {s : Monitor α} {mem : QueueMem α} {data : Option α} (t : Tid)
    (hfresh : t ∉ s.blocked ∧ t ∉ s.woken)
    (hpop : queuePop s.mem = some (mem, .done data))
    : Step s { s with mem := mem }
  | wokenWait {s : Monitor α} {mem : QueueMem α} (t : Tid) (hwoken : t ∈ s.woken)
    (hpop : queuePop s.mem = some (mem, .wait))
    : Step s { mem := mem, blocked := t :: s.blocked, woken := s.woken.erase t }
  | wokenDone {s : Monitor α} {mem : QueueMem α} {data : Option α} (t : Tid)
    (hwoken : t ∈ s.woken)
    (hpop : queuePop s.mem = some (mem, .done data))
    : Step s { s with mem := mem, woken := s.woken.erase t }
  | spurious {s : Monitor α} (t : Tid) (hblocked : t ∈ s.blocked)
    : Step s { s with blocked := s.blocked.erase t, woken := t :: s.woken }
  | shutdown {s : Monitor α}
    : Step s { mem := queueShutdown s.mem, blocked := [], woken := s.blocked ++ s.woken }

def Reachable (s : Monitor α) : Prop := Relation.ReflTransGen Step init s

/--
While somebody sleeps, the queue is open and every queued item has a woken consumer on its way.
-/
def Inv (s : Monitor α) : Prop :=
  ∃ q : Fifo α,
    s.mem.Represents q ∧
    q.items.length < 2 ^ 31 ∧
    (s.blocked ≠ [] → q.closed = false ∧ q.items.length ≤ s.woken.length)

end Monitor

theorem pushSpec_eq_success {q : Fifo α} {data : Option α} {qn : Option Addr}
    (h : (pushSpec q data qn).2 = queueSuccess)
    : q.closed = false ∧ ∃ x, (pushSpec q data qn).1 = { q with items := q.items ++ [x] } := by
  unfold pushSpec at h ⊢
  split at h
  . next x _ =>
    cases hclosed : q.closed with
    | true => simp [Fifo.push_of_closed hclosed, queueSuccess, queueError] at h
    | false => exact ⟨rfl, x, by simp [Fifo.push_of_open hclosed, hclosed]⟩
  . simp [queueSuccess, queueError] at h

theorem pushSpec_eq_error {q : Fifo α} {data : Option α} {qn : Option Addr}
    (h : (pushSpec q data qn).2 = queueError) : (pushSpec q data qn).1 = q := by
  unfold pushSpec at h ⊢
  split at h
  . cases hclosed : q.closed with
    | true => simp [Fifo.push_of_closed hclosed]
    | false => simp [Fifo.push_of_open hclosed, queueSuccess, queueError] at h
  . rfl

theorem represents_of_push_success {m m' : QueueMem α} {q : Fifo α} {data : Option α}
    {alloc : Option Addr} (h : m.Represents q)
    (hpush : queuePush m data alloc = some (m', queueSuccess)) (hsize : m.queue.size + 1 < 2 ^ 31)
    : q.closed = false ∧ q.items.length + 1 < 2 ^ 31 ∧
        ∃ x, m'.Represents { q with items := q.items ++ [x] } := by
  rcases queuePush_refines h data alloc with ⟨m'', heq, hrep⟩
  rw [hpush, Option.some.injEq, Prod.mk.injEq] at heq
  rcases pushSpec_eq_success heq.2.symm with ⟨hopen, x, hspec⟩
  have hlength : q.items.length + 1 < 2 ^ 31 := by
    rcases h with ⟨_, addrs, hrepr⟩
    have := hrepr.size
    have := hrepr.length_eq
    omega
  rw [hspec, ← heq.1] at hrep
  exact ⟨hopen, hlength, x, hrep (by simpa using hlength)⟩

theorem represents_of_push_error {m m' : QueueMem α} {q : Fifo α} {data : Option α}
    {alloc : Option Addr} (h : m.Represents q) (hlength : q.items.length < 2 ^ 31)
    (hpush : queuePush m data alloc = some (m', queueError)) : m'.Represents q := by
  rcases queuePush_refines h data alloc with ⟨m'', heq, hrep⟩
  rw [hpush, Option.some.injEq, Prod.mk.injEq] at heq
  rw [pushSpec_eq_error heq.2.symm, ← heq.1] at hrep
  exact hrep hlength

theorem represents_of_pop_wait {m m' : QueueMem α} {q : Fifo α} (h : m.Represents q)
    (hlength : q.items.length < 2 ^ 31) (hpop : queuePop m = some (m', .wait))
    : q.items = [] ∧ q.closed = false ∧ m'.Represents q := by
  rcases queuePop_refines h hlength with ⟨m'', heq, hrep⟩
  rw [hpop, Option.some.injEq, Prod.mk.injEq] at heq
  cases hitems : q.items with
  | cons x xs => simp [Fifo.pop_of_cons hitems, popSpec] at heq
  | nil =>
    cases hclosed : q.closed with
    | true => simp [Fifo.pop_of_nil hitems, hclosed, popSpec] at heq
    | false =>
      rw [Fifo.pop_of_nil hitems, ← heq.1] at hrep
      exact ⟨rfl, rfl, hrep⟩

theorem represents_of_pop_done {m m' : QueueMem α} {q : Fifo α} {data : Option α}
    (h : m.Represents q) (hlength : q.items.length < 2 ^ 31)
    (hpop : queuePop m = some (m', .done data))
    : (q.items = [] ∧ q.closed = true ∧ m'.Represents q) ∨
        ∃ x xs, q.items = x :: xs ∧ m'.Represents { q with items := xs } := by
  rcases queuePop_refines h hlength with ⟨m'', heq, hrep⟩
  rw [hpop, Option.some.injEq, Prod.mk.injEq] at heq
  cases hitems : q.items with
  | cons x xs =>
    rw [Fifo.pop_of_cons hitems, ← heq.1] at hrep
    exact Or.inr ⟨x, xs, rfl, hrep⟩
  | nil =>
    cases hclosed : q.closed with
    | true =>
      rw [Fifo.pop_of_nil hitems, ← heq.1] at hrep
      exact Or.inl ⟨rfl, rfl, hrep⟩
    | false => simp [Fifo.pop_of_nil hitems, hclosed, popSpec] at heq

namespace Monitor

theorem inv_init : (init : Monitor α).Inv := by
  refine ⟨Fifo.empty, createQueue_represents, by simp [Fifo.empty], ?_⟩
  intro hblocked
  simp [init] at hblocked

/-- A signal wakes somebody as long as there is somebody left to sleep. -/
theorem Signal.woken_length {blocked woken blocked' woken' : List Tid}
    (h : Signal blocked woken blocked' woken') (hblocked : blocked' ≠ [])
    : blocked ≠ [] ∧ woken'.length = woken.length + 1 := by
  cases h with
  | nobody => exact absurd rfl hblocked
  | one hmem => exact ⟨List.ne_nil_of_mem hmem, by simp⟩

theorem inv_step {s s' : Monitor α} (hinv : s.Inv) (hstep : Step s s') : s'.Inv := by
  rcases hinv with ⟨q, hrep, hlength, hblocked⟩
  cases hstep with
  | pushAccepted data alloc hpush hsize hsignal =>
    rcases represents_of_push_success hrep hpush hsize with ⟨hopen, hlength', x, hrep'⟩
    refine ⟨_, hrep', by simpa using hlength', ?_⟩
    intro hne
    have ⟨hne', hwoken⟩ := hsignal.woken_length hne
    have := (hblocked hne').2
    refine ⟨hopen, ?_⟩
    rw [List.length_append, List.length_singleton, hwoken]
    omega
  | pushRejected data alloc hpush =>
    exact ⟨q, represents_of_push_error hrep hlength hpush, hlength, hblocked⟩
  | popWait t hfresh hpop =>
    rcases represents_of_pop_wait hrep hlength hpop with ⟨hitems, hopen, hrep'⟩
    refine ⟨q, hrep', hlength, ?_⟩
    intro _
    exact ⟨hopen, by simp [hitems]⟩
  | popDone t hfresh hpop =>
    cases represents_of_pop_done hrep hlength hpop with
    | inl h =>
      exact ⟨q, h.2.2, hlength, hblocked⟩
    | inr h =>
      rcases h with ⟨x, xs, hitems, hrep'⟩
      rw [hitems, List.length_cons] at hlength hblocked
      refine ⟨_, hrep', by dsimp; omega, ?_⟩
      intro hne
      have := hblocked hne
      exact ⟨this.1, by dsimp; omega⟩
  | wokenWait t hwoken hpop =>
    rcases represents_of_pop_wait hrep hlength hpop with ⟨hitems, hopen, hrep'⟩
    refine ⟨q, hrep', hlength, ?_⟩
    intro _
    exact ⟨hopen, by simp [hitems]⟩
  | wokenDone t hwoken hpop =>
    cases represents_of_pop_done hrep hlength hpop with
    | inl h =>
      refine ⟨q, h.2.2, hlength, ?_⟩
      intro hne
      have := (hblocked hne).1
      rw [h.2.1] at this
      cases this
    | inr h =>
      -- the item leaves together with the consumer that was on its way to it
      rcases h with ⟨x, xs, hitems, hrep'⟩
      rw [hitems, List.length_cons] at hlength hblocked
      refine ⟨_, hrep', by dsimp; omega, ?_⟩
      intro hne
      have := hblocked hne
      refine ⟨this.1, ?_⟩
      have := List.length_erase_of_mem hwoken
      dsimp
      omega
  | spurious t ht =>
    refine ⟨q, hrep, hlength, ?_⟩
    intro _
    have := hblocked (List.ne_nil_of_mem ht)
    exact ⟨this.1, by simp; omega⟩
  | shutdown =>
    refine ⟨q.close, queueShutdown_refines hrep, hlength, ?_⟩
    intro hne
    exact absurd rfl hne

theorem Reachable.inv {s : Monitor α} (h : s.Reachable) : s.Inv := by
  induction h with
  | refl => exact inv_init
  | tail _ hstep ih => exact inv_step ih hstep

/--
In no reachable state does a consumer sleep on a queue that has something for it while nobody is on
the way to the lock.
-/
theorem no_lost_wakeup (s : Monitor α) (h : s.Reachable)
    : ¬ ((s.mem.queue.head ≠ none ∨ s.mem.queue.isShutdown = true) ∧
          s.blocked ≠ [] ∧ s.woken = []) := by
  rintro ⟨hready, hsleeping, hnobody⟩
  rcases h.inv with ⟨q, ⟨hshut, addrs, hrepr⟩, _, hblocked⟩
  have ⟨hopen, hlength⟩ := hblocked hsleeping
  rw [hnobody, List.length_nil, Nat.le_zero, List.length_eq_zero_iff] at hlength
  cases hready with
  | inl hhead =>
    apply hhead
    rw [hrepr.head_eq_none_iff, ← hrepr.items_eq_nil_iff, hlength]
  | inr hshutdown =>
    rw [hshut, hopen] at hshutdown
    cases hshutdown

section Examples

def oneItem : QueueMem Nat where
  nodes := createQueue.nodes.put 1 { data := 7, next := none }
  queue := { head := some 1, tail := some 1, size := 1, isShutdown := false }

def noItem : QueueMem Nat where
  nodes := oneItem.nodes.free 1
  queue := { head := none, tail := none, size := 0, isShutdown := false }

-- The consumers 4 and 3 sleep, a push wakes 3, the consumer 5 takes the item before it, and 3 sleeps again.
theorem reachable_stolen : ({ mem := noItem, blocked := [3, 4], woken := [] } : Monitor Nat).Reachable := by
  have hsleep : Step (init : Monitor Nat) { init with blocked := [4] } :=
    .popWait 4 (by simp [init]) rfl
  have hsleep' : Step { (init : Monitor Nat) with blocked := [4] } { init with blocked := [3, 4] } :=
    .popWait 3 (by simp [init]) rfl
  have hpush : Step { (init : Monitor Nat) with blocked := [3, 4] }
      { mem := oneItem, blocked := [3, 4].erase 3, woken := [3] } :=
    .pushAccepted (some 7) (some 1) rfl (by decide) (.one (by decide))
  have hsteal : Step { mem := oneItem, blocked := [3, 4].erase 3, woken := [3] }
      { mem := noItem, blocked := [4], woken := [3] } :=
    .popDone 5 (by decide) rfl
  have hagain : Step { mem := noItem, blocked := [4], woken := [3] }
      { mem := noItem, blocked := [3, 4], woken := [] } :=
    .wokenWait 3 (by decide) rfl
  exact ((((Relation.ReflTransGen.single hsleep).tail hsleep').tail hpush).tail hsteal).tail hagain

theorem no_lost_wakeup_stolen
    : ¬ ((noItem.queue.head ≠ none ∨ noItem.queue.isShutdown = true) ∧
          [3, 4] ≠ ([] : List Tid) ∧ ([] : List Tid) = []) :=
  no_lost_wakeup { mem := noItem, blocked := [3, 4], woken := [] } reachable_stolen

end Examples

end Monitor
end HttpRuntime
