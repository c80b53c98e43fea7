import HttpRuntime.Core.Queue.Basic
import HttpRuntime.Lib.Fifo
import Mathlib.Data.List.Infix
import Mathlib.Tactic.Common

/-!
This module contains the proof that the linked list queue implements a first-in first-out queue
with a closed flag.
-/

open Lib

namespace HttpRuntime

variable {α : Type}

/-- The memory holds exactly the nodes `addrs`, linked in this order and carrying `items`. -/
structure QueueMem.Repr (m : QueueMem α) (addrs : List Addr) (items : List α) : Prop where
  chain : Chain QueueNode.next m.nodes m.queue.head addrs none
  nodup : addrs.Nodup
  tail : m.queue.tail = addrs.getLast?
  size : m.queue.size = addrs.length
  data : addrs.map (fun a => (m.nodes a).map QueueNode.data) = items.map some
  allocated : ∀ a, m.nodes a ≠ none ↔ a ∈ addrs

def QueueMem.Represents (m : QueueMem α) (q : Fifo α) : Prop :=
  m.queue.isShutdown = q.closed ∧ ∃ addrs, m.Repr addrs q.items

namespace QueueMem.Repr

variable {m : QueueMem α} {addrs : List Addr} {items : List α}

theorem length_eq (h : m.Repr addrs items) : addrs.length = items.length := by
  have := congrArg List.length h.data
  simpa using this

theorem head_eq_none_iff (h : m.Repr addrs items) : m.queue.head = none ↔ addrs = [] :=
  h.chain.start_eq_none_iff

theorem tail_eq_none_iff (h : m.Repr addrs items) : m.queue.tail = none ↔ addrs = [] := by
  rw [h.tail]
  simp

theorem size_eq_zero_iff (h : m.Repr addrs items) : m.queue.size = 0 ↔ addrs = [] := by
  rw [h.size]
  simp

theorem items_eq_nil_iff (h : m.Repr addrs items) : items = [] ↔ addrs = [] := by
  rw [← List.length_eq_zero_iff, ← h.length_eq, List.length_eq_zero_iff]

theorem size_eq_zero_iff_items (h : m.Repr addrs items) : m.queue.size = 0 ↔ items = [] := by
  rw [h.size_eq_zero_iff, h.items_eq_nil_iff]

end QueueMem.Repr

theorem malloc_eq_some {nodes : Store Addr (QueueNode α)} {alloc : Option Addr} {qn : Addr}
    (h : malloc nodes alloc = some qn) : alloc = some qn ∧ nodes qn = none := by
  unfold malloc at h
  rw [Option.filter_eq_some_iff] at h
  simpa using h

theorem createQueue_represents : (createQueue : QueueMem α).Represents Fifo.empty := by
  refine ⟨rfl, [], ?_⟩
  constructor
  all_goals simp [createQueue, Chain, Fifo.empty]

section Push

variable {m : QueueMem α} {items : List α} {x : α} {qn : Addr}

-- What the memory holds after the new node became the only one.
theorem repr_push_empty (h : m.Repr [] items) {shut : Bool} {size : Int}
    (hsize : size = m.queue.size + 1)
    : QueueMem.Repr
        ⟨m.nodes.put qn ⟨x, none⟩, ⟨some qn, some qn, size, shut⟩⟩
        [qn]
        (items ++ [x]) := by
  have hitems : items = [] := h.items_eq_nil_iff.mpr rfl
  subst hitems
  constructor
  . simp [Chain]
  . simp
  . simp
  . simp [hsize, h.size]
  . simp
  . intro a
    by_cases ha : a = qn
    . simp [ha]
    . have := h.allocated a
      simpa [ha] using this

theorem map_data_put_snoc {nodes : Store Addr (QueueNode α)} {init : List Addr} {t : Addr}
    {last : QueueNode α} (hlast : nodes t = some last) (hqn : qn ∉ init ++ [t])
    : (init ++ [t] ++ [qn]).map
        (fun a => (((nodes.put qn ⟨x, none⟩).put t { last with next := some qn }) a).map
          QueueNode.data)
        =
      (init ++ [t]).map (fun a => (nodes a).map QueueNode.data) ++ [some x] := by
  have hne : qn ≠ t := by
    intro heq
    simp [heq] at hqn
  rw [List.map_append]
  congr 1
  . apply List.map_congr_left
    intro a ha
    have haqn : a ≠ qn := by
      intro heq
      exact hqn (heq ▸ ha)
    by_cases hat : a = t
    . simp [hat, hlast]
    . simp [hat, haqn]
  . simp [hne]

-- What the memory holds after the new node was linked behind the last one.
theorem repr_push_snoc {init : List Addr} {t : Addr} {last : QueueNode α}
    (h : m.Repr (init ++ [t]) items) (hfresh : m.nodes qn = none) (hlast : m.nodes t = some last)
    {shut : Bool} {size : Int} (hsize : size = m.queue.size + 1)
    : QueueMem.Repr
        ⟨(m.nodes.put qn ⟨x, none⟩).put t { last with next := some qn },
          ⟨m.queue.head, some qn, size, shut⟩⟩
        (init ++ [t] ++ [qn])
        (items ++ [x]) := by
  have hqn : qn ∉ init ++ [t] := by
    intro hmem
    exact (h.allocated qn).mpr hmem hfresh
  constructor
  . exact h.chain.snoc h.nodup hqn rfl rfl
  . rw [List.nodup_append]
    refine ⟨h.nodup, by simp, ?_⟩
    intro a ha b hb heq
    simp only [List.mem_singleton] at hb
    rw [heq, hb] at ha
    exact hqn ha
  . simp
  . simp only [hsize, h.size, List.length_append, List.length_singleton]
    omega
  . rw [map_data_put_snoc hlast hqn, h.data]
    simp
  . intro a
    have := h.allocated a
    by_cases hat : a = t
    . simp [hat]
    . by_cases haqn : a = qn
      . simp [haqn, (haqn ▸ hat : qn ≠ t)]
      . simpa [hat, haqn] using this

end Push

section Pop

variable {m : QueueMem α} {items : List α}

theorem repr_pop {a : Addr} {rest : List Addr} {node : QueueNode α}
    (h : m.Repr (a :: rest) items) (hnode : m.nodes a = some node) (shut : Bool) {size : Int}
    (hsize : size = m.queue.size - 1)
    : ∃ items', items = node.data :: items' ∧
        QueueMem.Repr
          ⟨m.nodes.free a,
            ⟨node.next, if node.next = none then none else m.queue.tail, size, shut⟩⟩
          rest
          items' := by
  have hdata := h.data
  cases items with
  | nil => simp at hdata
  | cons x items' =>
    simp only [List.map_cons, hnode, Option.map_some, List.cons.injEq, Option.some.injEq] at hdata
    refine ⟨items', by rw [hdata.1], ?_⟩
    have ⟨hnotmem, hnodup⟩ := List.nodup_cons.mp h.nodup
    have hchain : Chain QueueNode.next m.nodes node.next rest none := by
      rcases h.chain with ⟨_, c, hc, hrest⟩
      rw [hnode] at hc
      cases hc
      exact hrest
    constructor
    . exact hchain.free_of_not_mem hnotmem
    . exact hnodup
    . dsimp
      split
      . next hnext =>
        rw [hchain.start_eq_none_iff] at hnext
        simp [hnext]
      . next hnext =>
        rw [h.tail]
        rw [hchain.start_eq_none_iff] at hnext
        exact List.getLast?_cons_of_ne_nil hnext
    . simp [hsize, h.size]
    . rw [← hdata.2]
      apply List.map_congr_left
      intro b hb
      have : b ≠ a := by
        intro heq
        exact hnotmem (heq ▸ hb)
      simp [this]
    . intro b
      have := h.allocated b
      by_cases hba : b = a
      . simp [hba, hnotmem]
      . simpa [hba] using this

end Pop

section Refinement

variable {m : QueueMem α} {q : Fifo α}

def pushSpec (q : Fifo α) (data : Option α) (qn : Option Addr) : Fifo α × Int :=
  match data, qn with
  | some x, some _ => ((q.push x).1, if (q.push x).2 then queueSuccess else queueError)
  | _, _ => (q, queueError)

def popSpec (res : Fifo.Pop α) : PopResult α :=
  match res with
  | .item x => .done (some x)
  | .closed => .done none
  | .wait => .wait

theorem queuePush_of_closed (h : m.Represents q) (hclosed : q.closed = true) {x : α} {qn : Addr}
    {alloc : Option Addr} (hmalloc : malloc m.nodes alloc = some qn)
    : ∃ m', queuePush m (some x) alloc = some (m', queueError) ∧ m'.Represents q := by
  rcases h with ⟨hshut, addrs, hrepr⟩
  have hfresh := (malloc_eq_some hmalloc).2
  have hnodes : (m.nodes.put qn ⟨x, none⟩).free qn = m.nodes := by
    funext a
    by_cases ha : a = qn
    . simp [ha, hfresh]
    . simp [ha]
  refine ⟨m, ?_, hshut, addrs, hrepr⟩
  simp only [queuePush, hmalloc]
  rw [if_pos (by rw [hshut, hclosed]), hnodes]

theorem queuePush_of_open (h : m.Represents q) (hopen : q.closed = false) {x : α} {qn : Addr}
    {alloc : Option Addr} (hmalloc : malloc m.nodes alloc = some qn)
    : ∃ m', queuePush m (some x) alloc = some (m', queueSuccess) ∧
        ((q.items ++ [x]).length < 2 ^ 31 →
          m'.Represents { q with items := q.items ++ [x] }) := by
  rcases h with ⟨hshut, addrs, hrepr⟩
  have hfresh := (malloc_eq_some hmalloc).2
  have hsize (hbound : (q.items ++ [x]).length < 2 ^ 31)
      : toInt (m.queue.size + 1) = m.queue.size + 1 := by
    have := hrepr.length_eq
    have := hrepr.size
    rw [List.length_append, List.length_singleton] at hbound
    apply toInt_eq_self
    all_goals omega
  have hshut' : ¬ m.queue.isShutdown = true := by simp [hshut, hopen]
  simp only [queuePush, hmalloc]
  rw [if_neg hshut']
  cases hhead : m.queue.head with
  | none =>
    have hnil := hrepr.head_eq_none_iff.mp hhead
    subst hnil
    refine ⟨_, rfl, ?_⟩
    intro hbound
    exact ⟨hshut, _, repr_push_empty hrepr (hsize hbound)⟩
  | some a =>
    have hne : addrs ≠ [] := by
      intro hnil
      rw [hrepr.head_eq_none_iff.mpr hnil] at hhead
      cases hhead
    rcases List.eq_nil_or_concat addrs with hnil | ⟨init, t, hsnoc⟩
    . exact absurd hnil hne
    . rw [List.concat_eq_append] at hsnoc
      subst hsnoc
      have htail : m.queue.tail = some t := by simp [hrepr.tail]
      have hlast : m.nodes t ≠ none := (hrepr.allocated t).mpr (by simp)
      rcases Option.ne_none_iff_exists'.mp hlast with ⟨last, hlast⟩
      have hne : t ≠ qn := by
        intro heq
        rw [heq, hfresh] at hlast
        cases hlast
      let linked := (m.nodes.put qn ⟨x, none⟩).put t { last with next := some qn }
      let queue : Queue :=
        ⟨m.queue.head, some qn, toInt (m.queue.size + 1), m.queue.isShutdown⟩
      refine ⟨⟨linked, queue⟩, ?_, ?_⟩
      . simp [linked, queue, htail, hlast, hne, hhead]
      . intro hbound
        exact ⟨hshut, _, repr_push_snoc hrepr hfresh hlast (hsize hbound)⟩

-- The push itself never faults. Its counter is only exact while it fits an `int`.
theorem queuePush_refines (h : m.Represents q) (data : Option α) (alloc : Option Addr)
    : ∃ m',
        queuePush m data alloc = some (m', (pushSpec q data (malloc m.nodes alloc)).2) ∧
        ((pushSpec q data (malloc m.nodes alloc)).1.items.length < 2 ^ 31 →
          m'.Represents (pushSpec q data (malloc m.nodes alloc)).1) := by
  cases data with
  | none => exact ⟨m, rfl, fun _ => h⟩
  | some x =>
    cases hmalloc : malloc m.nodes alloc with
    | none => exact ⟨m, by simp [queuePush, hmalloc, pushSpec], fun _ => h⟩
    | some qn =>
      cases hclosed : q.closed with
      | true =>
        rcases queuePush_of_closed (x := x) h hclosed hmalloc with ⟨m', hpush, hrep⟩
        refine ⟨m', by simpa [pushSpec, Fifo.push_of_closed hclosed], ?_⟩
        intro _
        simpa [pushSpec, Fifo.push_of_closed hclosed]
      | false =>
        rcases queuePush_of_open (x := x) h hclosed hmalloc with ⟨m', hpush, hrep⟩
        refine ⟨m', by simpa [pushSpec, Fifo.push_of_open hclosed], ?_⟩
        simpa [pushSpec, Fifo.push_of_open hclosed] using hrep

theorem queuePop_refines (h : m.Represents q) (hbound : q.items.length < 2 ^ 31)
    : ∃ m', queuePop m = some (m', popSpec q.pop.2) ∧ m'.Represents q.pop.1 := by
  have hrep := h
  rcases h with ⟨hshut, addrs, hrepr⟩
  cases hitems : q.items with
  | nil =>
    have hsize := hrepr.size_eq_zero_iff_items.mpr hitems
    rw [Fifo.pop_of_nil hitems]
    refine ⟨m, ?_, hrep⟩
    cases hclosed : q.closed with
    | true => simp [queuePop, hsize, hshut, hclosed, popSpec]
    | false => simp [queuePop, hsize, hshut, hclosed, popSpec]
  | cons x xs =>
    have hsize : m.queue.size ≠ 0 := by
      intro hzero
      rw [hrepr.size_eq_zero_iff_items, hitems] at hzero
      cases hzero
    cases addrs with
    | nil => exact absurd (hrepr.size_eq_zero_iff.mpr rfl) hsize
    | cons a rest =>
      have hsub : toInt (m.queue.size - 1) = m.queue.size - 1 := by
        have := hrepr.length_eq
        have := hrepr.size
        apply toInt_eq_self
        all_goals omega
      rcases hrepr.chain with ⟨hhead, node, hnode, _⟩
      rcases repr_pop hrepr hnode m.queue.isShutdown hsub with ⟨items', heq, hrepr'⟩
      rw [hitems, List.cons.injEq] at heq
      rw [Fifo.pop_of_cons hitems, heq.1, heq.2]
      refine ⟨_, ?_, ?_, rest, hrepr'⟩
      . simp [queuePop, hsize, hhead, hnode, popSpec]
      . exact hshut

theorem queueShutdown_refines (h : m.Represents q) : (queueShutdown m).Represents q.close := by
  rcases h with ⟨_, addrs, hrepr⟩
  exact ⟨rfl, addrs, ⟨hrepr.chain, hrepr.nodup, hrepr.tail, hrepr.size, hrepr.data,
    hrepr.allocated⟩⟩

end Refinement

section Destroy

theorem freeNodes_of_chain {nodes : Store Addr (QueueNode α)} {current : Option Addr} {addrs : List Addr}
    (hchain : Chain QueueNode.next nodes current addrs none) (hnodup : addrs.Nodup)
    (hallocated : ∀ a, nodes a ≠ none → a ∈ addrs)
    : freeNodes addrs.length nodes current = some (fun _ => none) := by
  induction addrs generalizing nodes current with
  | nil =>
    have hnone : current = none := hchain
    have hnodes : nodes = fun _ => none := by
      funext a
      by_contra hne
      cases hallocated a hne
    rw [hnone, hnodes]
    rfl
  | cons a addrs ih =>
    obtain ⟨hcurrent, node, hnode, hrest⟩ := hchain
    have ⟨hnotmem, hnodup'⟩ := List.nodup_cons.mp hnodup
    rw [hcurrent, List.length_cons, freeNodes, hnode]
    apply ih (hrest.free_of_not_mem hnotmem) hnodup'
    intro b hb
    have hne : b ≠ a := by
      rintro rfl
      exact hb (Store.free_self _ _)
    rw [Store.free_of_ne _ hne] at hb
    cases List.mem_cons.mp (hallocated b hb) with
    | inl heq => exact absurd heq hne
    | inr hmem => exact hmem

/-- `destroy_queue` frees every node of the queue, each of them once. -/
theorem destroyQueue_of_represents {m : QueueMem α} {q : Fifo α} (h : m.Represents q)
    : ∃ m', destroyQueue m = some m' ∧ ∀ a, m'.nodes a = none := by
  obtain ⟨_, addrs, hrepr⟩ := h
  have hfree := freeNodes_of_chain hrepr.chain hrepr.nodup (fun a => (hrepr.allocated a).mp)
  refine ⟨{ m with nodes := fun _ => none }, ?_, fun _ => rfl⟩
  unfold destroyQueue
  rw [hrepr.size, Int.toNat_natCast, hfree]
  rfl

end Destroy

end HttpRuntime
