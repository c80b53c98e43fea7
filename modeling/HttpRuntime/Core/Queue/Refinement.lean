import HttpRuntime.Core.Queue.Lemmas
import Mathlib.Data.List.Basic

/-!
This module contains the refinement theorem of the queue over whole runs: any sequence of critical
sections, issued by any threads in any order.
-/

open Lib

namespace HttpRuntime

variable {α : Type}

-- `head`, `tail` and `size` agree about emptiness, and the nodes form one list without sharing.
structure QueueMem.WellFormed (m : QueueMem α) : Prop where
  head_iff_tail : m.queue.head = none ↔ m.queue.tail = none
  tail_iff_size : m.queue.tail = none ↔ m.queue.size = 0
  nodes : ∃ addrs : List Addr,
    Chain QueueNode.next m.nodes m.queue.head addrs none ∧
    addrs.Nodup ∧
    m.queue.tail = addrs.getLast? ∧
    m.queue.size = addrs.length ∧
    ∀ a, m.nodes a ≠ none ↔ a ∈ addrs

theorem QueueMem.Represents.wellFormed {m : QueueMem α} {q : Fifo α} (h : m.Represents q)
    : m.WellFormed := by
  rcases h with ⟨_, addrs, hrepr⟩
  constructor
  . rw [hrepr.head_eq_none_iff, hrepr.tail_eq_none_iff]
  . rw [hrepr.tail_eq_none_iff, hrepr.size_eq_zero_iff]
  . exact ⟨addrs, hrepr.chain, hrepr.nodup, hrepr.tail, hrepr.size, hrepr.allocated⟩

def stepSpec (q : Fifo α) (m : QueueMem α) (act : QueueAction α) : Fifo α × QueueReply α :=
  match act with
  | .push data alloc =>
    let res := pushSpec q data (malloc m.nodes alloc)
    (res.1, .push res.2)
  | .pop => (q.pop.1, .pop (popSpec q.pop.2))
  | .shutdown => (q.close, .shutdown)

theorem queueStep_refines {m : QueueMem α} {q : Fifo α} (h : m.Represents q)
    (hbound : q.items.length < 2 ^ 31) (act : QueueAction α)
    : ∃ m',
        queueStep m act = some (m', (stepSpec q m act).2) ∧
        ((stepSpec q m act).1.items.length < 2 ^ 31 → m'.Represents (stepSpec q m act).1) := by
  cases act with
  | push data alloc =>
    rcases queuePush_refines h data alloc with ⟨m', hpush, hrep⟩
    exact ⟨m', by simp [queueStep, hpush, stepSpec], hrep⟩
  | pop =>
    rcases queuePop_refines h hbound with ⟨m', hpop, hrep⟩
    exact ⟨m', by simp [queueStep, hpop, stepSpec], fun _ => hrep⟩
  | shutdown => exact ⟨queueShutdown m, rfl, fun _ => queueShutdown_refines h⟩

/--
A push is accepted exactly when it has data and the queue is open. A pop waits at an empty queue that is
open, gets a null pointer from an empty one that is shut down, and an element from every other.
-/
def QueueEvent.Lawful (e : QueueEvent α) : Prop :=
  match e.act, e.reply with
  | .push data alloc, .push rc =>
    malloc e.before.nodes alloc ≠ none →
      (rc = queueSuccess ↔ data ≠ none ∧ e.before.queue.isShutdown = false)
  | .pop, .pop .wait => e.before.queue.isShutdown = false ∧ e.before.queue.head = none
  | .pop, .pop (.done none) => e.before.queue.isShutdown = true ∧ e.before.queue.head = none
  | .pop, .pop (.done (some _)) => e.before.queue.head ≠ none
  | .shutdown, .shutdown => True
  | _, _ => False

theorem stepSpec_lawful {m : QueueMem α} {q : Fifo α} (h : m.Represents q) (act : QueueAction α)
    : (QueueEvent.mk m act (stepSpec q m act).2).Lawful := by
  rcases h with ⟨hshut, addrs, hrepr⟩
  cases act with
  | push data alloc =>
    intro hmalloc
    rcases Option.ne_none_iff_exists'.mp hmalloc with ⟨qn, hqn⟩
    dsimp at hqn ⊢
    rw [hqn, hshut]
    cases data with
    | none => simp [pushSpec, queueSuccess, queueError]
    | some x =>
      cases hclosed : q.closed with
      | true => simp [pushSpec, Fifo.push_of_closed hclosed, queueSuccess, queueError]
      | false => simp [pushSpec, Fifo.push_of_open hclosed]
  | pop =>
    cases hitems : q.items with
    | nil =>
      have hhead : m.queue.head = none := by
        rw [hrepr.head_eq_none_iff, ← hrepr.items_eq_nil_iff, hitems]
      cases hclosed : q.closed with
      | true =>
        simp only [QueueEvent.Lawful, stepSpec, Fifo.pop_of_nil hitems, hclosed, if_true, popSpec]
        exact ⟨by rw [hshut, hclosed], hhead⟩
      | false =>
        simp only [QueueEvent.Lawful, stepSpec, Fifo.pop_of_nil hitems, hclosed, Bool.false_eq_true, if_false,
          popSpec]
        exact ⟨by rw [hshut, hclosed], hhead⟩
    | cons x xs =>
      have hhead : m.queue.head ≠ none := by
        rw [Ne, hrepr.head_eq_none_iff, ← hrepr.items_eq_nil_iff, hitems]
        exact List.cons_ne_nil x xs
      simpa only [QueueEvent.Lawful, stepSpec, Fifo.pop_of_cons hitems, popSpec] using hhead
  | shutdown => trivial

-- One critical section adds what it accepted and removes what it popped, nothing else.
theorem stepSpec_items (m : QueueMem α) (q : Fifo α) (act : QueueAction α)
    : let e := QueueEvent.mk m act (stepSpec q m act).2
      q.items ++ e.accepted.toList = e.popped.toList ++ (stepSpec q m act).1.items := by
  cases act with
  | push data alloc =>
    cases data with
    | none => simp [stepSpec, pushSpec, QueueEvent.accepted, QueueEvent.popped]
    | some x =>
      cases hmalloc : malloc m.nodes alloc with
      | none =>
        simp [stepSpec, pushSpec, hmalloc, QueueEvent.accepted, QueueEvent.popped, queueSuccess,
          queueError]
      | some qn =>
        cases hclosed : q.closed with
        | true =>
          simp [stepSpec, pushSpec, hmalloc, Fifo.push_of_closed hclosed, QueueEvent.accepted,
            QueueEvent.popped, queueSuccess, queueError]
        | false =>
          simp [stepSpec, pushSpec, hmalloc, Fifo.push_of_open hclosed, QueueEvent.accepted,
            QueueEvent.popped]
  | pop =>
    cases hitems : q.items with
    | nil =>
      cases hclosed : q.closed with
      | true =>
        simp [stepSpec, Fifo.pop_of_nil hitems, hitems, hclosed, popSpec, QueueEvent.accepted,
          QueueEvent.popped]
      | false =>
        simp [stepSpec, Fifo.pop_of_nil hitems, hitems, hclosed, popSpec, QueueEvent.accepted,
          QueueEvent.popped]
    | cons x xs =>
      simp [stepSpec, Fifo.pop_of_cons hitems, popSpec, QueueEvent.accepted, QueueEvent.popped]
  | shutdown => simp [stepSpec, QueueEvent.accepted, QueueEvent.popped]

theorem acceptedPushes_cons (e : QueueEvent α) (events : List (QueueEvent α))
    : acceptedPushes (e :: events) = e.accepted.toList ++ acceptedPushes events := by
  unfold acceptedPushes
  cases h : e.accepted <;> simp [h]

theorem poppedValues_cons (e : QueueEvent α) (events : List (QueueEvent α))
    : poppedValues (e :: events) = e.popped.toList ++ poppedValues events := by
  unfold poppedValues
  cases h : e.popped <;> simp [h]

theorem queueRun_cons {m m' m'' : QueueMem α} {act : QueueAction α} {acts : List (QueueAction α)}
    {reply : QueueReply α} {events : List (QueueEvent α)} (hstep : queueStep m act = some (m', reply))
    (hrun : queueRun m' acts = some (m'', events))
    : queueRun m (act :: acts) = some (m'', ⟨m, act, reply⟩ :: events) := by
  simp [queueRun, hstep, hrun]

-- Fewer than 2^31 elements are queued after each of the critical sections.
def QueueBounded (m : QueueMem α) (queued : Nat) (acts : List (QueueAction α)) : Prop :=
  ∀ pre m' events,
    pre <+: acts →
    queueRun m pre = some (m', events) →
    queued + (acceptedPushes events).length < 2 ^ 31 + (poppedValues events).length

theorem QueueBounded.start {m : QueueMem α} {queued : Nat} {acts : List (QueueAction α)}
    (h : QueueBounded m queued acts) : queued < 2 ^ 31 := by
  simpa [acceptedPushes, poppedValues] using h [] m [] (by simp) rfl

theorem QueueBounded.tail {m m' : QueueMem α} {queued queued' : Nat} {act : QueueAction α}
    {acts : List (QueueAction α)} {reply : QueueReply α} (h : QueueBounded m queued (act :: acts))
    (hstep : queueStep m act = some (m', reply))
    (hqueued :
      queued + (QueueEvent.mk m act reply).accepted.toList.length
        =
      (QueueEvent.mk m act reply).popped.toList.length + queued')
    : QueueBounded m' queued' acts := by
  intro pre m'' events hpre hrun
  have := h (act :: pre) m'' _ (by simpa using hpre) (queueRun_cons hstep hrun)
  rw [acceptedPushes_cons, poppedValues_cons, List.length_append, List.length_append] at this
  omega

theorem queueRun_length {m m' : QueueMem α} {acts : List (QueueAction α)}
    {events : List (QueueEvent α)} (hrun : queueRun m acts = some (m', events))
    : events.length = acts.length := by
  induction acts generalizing m events with
  | nil =>
    simp only [queueRun, Option.some.injEq, Prod.mk.injEq] at hrun
    simp [← hrun.2]
  | cons act acts ih =>
    simp only [queueRun, Option.bind_eq_bind, Option.bind_eq_some_iff] at hrun
    rcases hrun with ⟨⟨m1, reply⟩, _, ⟨m2, rest⟩, hrest, heq⟩
    simp only [Option.some.injEq, Prod.mk.injEq] at heq
    rw [heq.1] at hrest
    rw [← heq.2, List.length_cons, List.length_cons, ih hrest]

theorem QueueBounded.of_length {m : QueueMem α} {queued : Nat} {acts : List (QueueAction α)}
    (h : queued + acts.length < 2 ^ 31) : QueueBounded m queued acts := by
  intro pre m' events hpre hrun
  have haccepted : (acceptedPushes events).length ≤ events.length := List.length_filterMap_le _ _
  have := queueRun_length hrun
  have := hpre.length_le
  omega

theorem stepSpec_closed (q : Fifo α) (m : QueueMem α) (act : QueueAction α)
    : (stepSpec q m act).1.closed = (q.closed || act.isShutdown) := by
  cases act with
  | push data alloc =>
    simp only [stepSpec, pushSpec, QueueAction.isShutdown, Bool.or_false]
    split
    . simp
    . rfl
  | pop => simp [stepSpec, QueueAction.isShutdown]
  | shutdown => simp [stepSpec, QueueAction.isShutdown]

/--
The abstract queue goes along with a run: before each critical section it is the one that the list
represents, and each reply is its own.
-/
def FollowsSpec (q : Fifo α) (events : List (QueueEvent α)) (q' : Fifo α) : Prop :=
  match events with
  | [] => q = q'
  | e :: events =>
    e.before.Represents q ∧ e.reply = (stepSpec q e.before e.act).2 ∧
      FollowsSpec (stepSpec q e.before e.act).1 events q'

theorem queueRun_refines {m : QueueMem α} {q : Fifo α} (acts : List (QueueAction α))
    (h : m.Represents q) (hbound : QueueBounded m q.items.length acts)
    : ∃ m' events q',
        queueRun m acts = some (m', events) ∧
        m'.Represents q' ∧
        FollowsSpec q events q' ∧
        q.items ++ acceptedPushes events = poppedValues events ++ q'.items ∧
        q'.closed = (q.closed || acts.any QueueAction.isShutdown) ∧
        ∀ e ∈ events, e.Lawful := by
  induction acts generalizing m q with
  | nil => exact ⟨m, [], q, rfl, h, rfl, by simp [acceptedPushes, poppedValues], by simp, by simp⟩
  | cons act acts ih =>
    rcases queueStep_refines h hbound.start act with ⟨m', hstep, hrep⟩
    have hitems := stepSpec_items m q act
    have hqueued := congrArg List.length hitems
    rw [List.length_append, List.length_append] at hqueued
    have htail := hbound.tail hstep hqueued
    rcases ih (hrep htail.start) htail with
      ⟨m'', events, q'', hrun, hrep'', hfollows, heq, hclosed, hlawful⟩
    refine ⟨m'', _, q'', queueRun_cons hstep hrun, hrep'', ⟨h, rfl, hfollows⟩, ?_, ?_, ?_⟩
    . rw [acceptedPushes_cons, poppedValues_cons, ← List.append_assoc, hitems, List.append_assoc,
        heq, List.append_assoc]
    . rw [hclosed, stepSpec_closed, List.any_cons, Bool.or_assoc]
    . intro e he
      cases List.mem_cons.mp he with
      | inl heq =>
        rw [heq]
        exact stepSpec_lawful h act
      | inr hmem => exact hlawful e hmem

-- What the pops of a closed queue are answered until it is empty, and once more.
def drained (items : List α) : List (QueueReply α) :=
  items.map (fun x => .pop (.done (some x))) ++ [.pop (.done none)]

/-- A queue that is shut down hands out all that it holds, in its order, before it answers with null. -/
theorem queueRun_drains {items : List α} {m : QueueMem α} (h : m.Represents ⟨items, true⟩)
    (hbound : items.length < 2 ^ 31)
    : ∃ m' events,
        queueRun m (List.replicate (items.length + 1) .pop) = some (m', events) ∧
        m'.Represents ⟨[], true⟩ ∧
        events.map QueueEvent.reply = drained items := by
  induction items generalizing m with
  | nil =>
    rcases queueStep_refines h hbound .pop with ⟨m', hstep, hrep⟩
    have hnil : queueRun m' [] = some (m', []) := rfl
    exact ⟨m', _, queueRun_cons hstep hnil, hrep hbound, rfl⟩
  | cons x items ih =>
    rcases queueStep_refines h hbound .pop with ⟨m', hstep, hrep⟩
    rw [List.length_cons] at hbound
    have hrest : items.length < 2 ^ 31 := by omega
    rcases ih (hrep hrest) hrest with ⟨m'', events, hrun, hrep'', hreplies⟩
    refine ⟨m'', _, queueRun_cons hstep hrun, hrep'', ?_⟩
    rw [List.map_cons, hreplies]
    rfl

/--
Any run of critical sections that keeps fewer than 2^31 elements queued goes through without a
fault, and an abstract queue goes along with it that gives every reply: a push is accepted as long as
the queue is open, and a pop hands out the first element whenever there is one. The run ends in a well
formed list, what was popped is a prefix of what was accepted, and a queue that was shut down is drained
by the pops that come behind.
-/
theorem queue_refines_fifo (acts : List (QueueAction α)) (hbound : QueueBounded createQueue 0 acts)
    : ∃ m events q,
        queueRun createQueue acts = some (m, events) ∧
        FollowsSpec .empty events q ∧
        m.WellFormed ∧
        m.Represents q ∧
        q.closed = acts.any QueueAction.isShutdown ∧
        acceptedPushes events = poppedValues events ++ q.items ∧
        poppedValues events <+: acceptedPushes events ∧
        (∀ e ∈ events, e.Lawful) ∧
        (q.closed = true → ∃ m' drain,
          queueRun m (List.replicate (q.items.length + 1) .pop) = some (m', drain) ∧
          m'.WellFormed ∧
          drain.map QueueEvent.reply = drained q.items) := by
  rcases queueRun_refines acts createQueue_represents hbound with
    ⟨m, events, q, hrun, hrep, hfollows, heq, hclosed, hlawful⟩
  have heq : acceptedPushes events = poppedValues events ++ q.items := heq
  have hclosed : q.closed = acts.any QueueAction.isShutdown := by simpa [Fifo.empty] using hclosed
  refine ⟨m, events, q, hrun, hfollows, hrep.wellFormed, hrep, hclosed, heq, ⟨q.items, heq.symm⟩, hlawful,
    ?_⟩
  intro hshut
  have hlength : q.items.length < 2 ^ 31 := by
    have hqueued := hbound acts m events List.prefix_rfl hrun
    rw [heq, List.length_append] at hqueued
    omega
  rw [show q = ⟨q.items, true⟩ from by rw [← hshut]] at hrep
  rcases queueRun_drains hrep hlength with ⟨m', drain, hdrain, hrep', hreplies⟩
  exact ⟨m', drain, hdrain, hrep'.wellFormed, hreplies⟩

-- A pop between the pushes, and one element left when the queue is shut down.
def drainRun : List (QueueAction Nat) :=
  [.push (some 7) (some 0), .push (some 8) (some 1), .pop, .push (some 9) (some 0), .pop, .shutdown,
    .push (some 10) (some 1)]

theorem queue_refines_fifo_drain
    : ∃ m events q,
        queueRun createQueue drainRun = some (m, events) ∧
        FollowsSpec .empty events q ∧
        m.WellFormed ∧
        m.Represents q ∧
        q.closed = true ∧
        acceptedPushes events = poppedValues events ++ q.items ∧
        poppedValues events <+: acceptedPushes events ∧
        (∀ e ∈ events, e.Lawful) ∧
        (q.closed = true → ∃ m' drain,
          queueRun m (List.replicate (q.items.length + 1) .pop) = some (m', drain) ∧
          m'.WellFormed ∧
          drain.map QueueEvent.reply = drained q.items) :=
  queue_refines_fifo drainRun (QueueBounded.of_length (by decide))

end HttpRuntime
