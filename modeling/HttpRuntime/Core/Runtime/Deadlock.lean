import HttpRuntime.Core.Runtime.Lifecycle
import HttpRuntime.Core.Runtime.Shutdown
import Mathlib.Data.List.Nodup

/-!
This module contains why `destroy_runtime` gets to its end: it closes the queue of a thread before
it waits for the thread, and nobody sleeps on a queue that is closed.
-/

open Lib

namespace HttpRuntime

section Queues

variable {rt : Runtime} {conn : Conn}

theorem closed_of_pop_wait {α : Type} {q : Fifo α} (h : q.pop.2 = .wait) : q.closed = false := by
  unfold Fifo.pop at h
  split at h
  . cases h
  . split at h
    . cases h
    . next hclosed => simpa using hclosed

namespace Runtime

theorem queueClosed_workerStep (i : Nat) (env : TransferEnv) (alloc : Bool) (q : QueueName)
    : (rt.workerStep i env alloc).queueClosed q = rt.queueClosed q := by
  unfold workerStep
  split
  . split
    . next q' task hpop =>
      have hclosed := rt.requestQueue.pop_closed
      rw [hpop] at hclosed
      cases q with
      | request => exact hclosed
      | response => rfl
      | db => rfl
    . rfl
    . rfl
  . split <;> rfl
  . cases q with
    | request => rfl
    | response => exact pushQueue_closed _ _ _
    | db => rfl
  . rfl
  . rfl

theorem queueClosed_dispatcherStep (alloc : Bool) (q : QueueName)
    : (rt.dispatcherStep alloc).queueClosed q = rt.queueClosed q := by
  unfold dispatcherStep
  split
  . split
    . next q' resp hpop =>
      have hclosed := rt.responseQueue.pop_closed
      rw [hpop] at hclosed
      cases q with
      | request => rfl
      | response => exact hclosed
      | db => rfl
    . rfl
    . rfl
  . cases q with
    | request => rfl
    | response => rfl
    | db => exact pushQueue_closed _ _ _
  . rfl

theorem queueClosed_dbWorkerStep (es : List CallEnv) (q : QueueName)
    : (rt.dbWorkerStep conn es).1.queueClosed q = rt.queueClosed q := by
  unfold dbWorkerStep
  split
  . split
    . next q' task hpop =>
      have hclosed := rt.dbQueue.pop_closed
      rw [hpop] at hclosed
      cases q with
      | request => rfl
      | response => rfl
      | db => exact hclosed
    . rfl
    . rfl
  . split <;> [rfl; split]
    all_goals rfl
  . rfl

theorem queueClosed_step (act : Action) (q : QueueName)
    : (rt.step conn act).1.queueClosed q = rt.queueClosed q := by
  cases act with
  | worker i env alloc => exact queueClosed_workerStep i env alloc q
  | dispatcher alloc => exact queueClosed_dispatcherStep alloc q
  | dbWorker es => exact queueClosed_dbWorkerStep es q

theorem queueClosed_dispatchTask (message : Message) (alloc : Bool) (q : QueueName)
    : (rt.dispatchTask message alloc).1.queueClosed q = rt.queueClosed q := by
  cases message with
  | db task =>
    cases q with
    | request => rfl
    | response => rfl
    | db => exact pushQueue_closed _ _ _
  | worker task =>
    cases q with
    | request => exact pushQueue_closed _ _ _
    | response => rfl
    | db => rfl

theorem workers_dispatchTask (message : Message) (alloc : Bool)
    : (rt.dispatchTask message alloc).1.workers = rt.workers := by
  cases message <;> rfl

theorem open_of_waits {t : Thread} (h : rt.waits t = true) : rt.queueClosed t.queue = false := by
  cases t with
  | worker i =>
    simp only [waits, Bool.and_eq_true, decide_eq_true_eq] at h
    exact closed_of_pop_wait h.2
  | dispatcher =>
    simp only [waits, Bool.and_eq_true, decide_eq_true_eq] at h
    exact closed_of_pop_wait h.2
  | dbWorker =>
    simp only [waits, Bool.and_eq_true, decide_eq_true_eq] at h
    exact closed_of_pop_wait h.2

theorem queueClosed_close (rt : Runtime) (q q' : QueueName)
    : (rt.close q).queueClosed q' = (rt.queueClosed q' || decide (q = q')) := by
  cases q <;> cases q' <;> simp [close, queueClosed]

theorem workers_close (rt : Runtime) (q : QueueName) : (rt.close q).workers = rt.workers := by
  cases q <;> rfl

end Runtime

theorem mem_of_mem_signal {asleep : List Thread} {q : QueueName} {wake t : Thread}
    (h : t ∈ signal asleep q wake) : t ∈ asleep := by
  unfold signal at h
  split at h
  . exact List.mem_of_mem_erase h
  . split at h
    . exact List.mem_of_mem_erase h
    . exact h

end Queues

namespace OwnerPc

def closed (pc : OwnerPc) (q : QueueName) : Bool :=
  match q, pc with
  | .request, .joinWorkers _ | .request, .shutdownResponses | .request, .joinDispatcher
  | .request, .shutdownDb | .request, .joinDbWorker | .request, .freeQueues | .request, .returned
  | .response, .joinDispatcher | .response, .shutdownDb | .response, .joinDbWorker
  | .response, .freeQueues | .response, .returned
  | .db, .joinDbWorker | .db, .freeQueues | .db, .returned => true
  | _, _ => false

end OwnerPc

namespace Lifecycle

variable {s : Lifecycle}

def hasQueue (s : Lifecycle) (q : QueueName) : Bool :=
  match q with
  | .request => s.hasRequestQueue
  | .response => s.hasResponseQueue
  | .db => s.hasDbQueue

def threads (s : Lifecycle) : List Thread :=
  (if s.dbWorkerStarted then [.dbWorker] else []) ++
    (if s.dispatcherStarted then [.dispatcher] else []) ++
    (List.range s.rt.workers.length).map .worker

def Created (s : Lifecycle) : Prop :=
  match s.owner with
  | .allocRuntime | .createDbQueue => s.threads = []
  | .createRequestQueue => s.threads = [] ∧ s.hasDbQueue = true
  | .createResponseQueue => s.threads = [] ∧ s.hasDbQueue = true ∧ s.hasRequestQueue = true
  | .allocThreads | .createDbWorker => s.threads = [] ∧ ∀ q, s.hasQueue q = true
  | .createDispatcher =>
    s.dbWorkerStarted = true ∧ s.dispatcherStarted = false ∧ s.rt.workers.length = 0 ∧
      ∀ q, s.hasQueue q = true
  | .createWorkers => s.dispatcherStarted = true ∧ s.dbWorkerStarted = true ∧ ∀ q, s.hasQueue q = true
  | _ => True

def Joined (s : Lifecycle) : Prop :=
  let workers := (List.range s.rt.workers.length).map Thread.worker
  let dispatcher := if s.dispatcherStarted then [Thread.dispatcher] else []
  let dbWorker := if s.dbWorkerStarted then [Thread.dbWorker] else []
  match s.owner with
  | .joinWorkers i => i ≤ s.rt.workers.length ∧ s.joined = (List.range i).map .worker
  | .shutdownResponses | .joinDispatcher => s.joined = workers
  | .shutdownDb | .joinDbWorker => s.joined = workers ++ dispatcher
  | .freeQueues | .returned => s.joined = workers ++ dispatcher ++ dbWorker
  | _ => s.joined = []

structure Inv (s : Lifecycle) : Prop where
  asleep : ∀ t ∈ s.asleep, s.rt.queueClosed t.queue = false
  queues : ∀ t ∈ s.threads, s.hasQueue t.queue = true
  closed : ∀ q, s.owner.closed q = true → s.hasQueue q = true → s.rt.queueClosed q = true
  created : s.Created
  started : s.started = s.threads
  joined : s.Joined

theorem inv_start (conn : Conn) : (start conn).Inv where
  asleep := by simp [start]
  queues := by simp [start, threads]
  closed := by
    intro q h
    cases q <;> cases h
  created := rfl
  started := rfl
  joined := rfl

theorem Inv.frame (h : s.Inv) {rt : Runtime} {conn : Conn} {asleep : List Thread}
    (hlength : rt.workers.length = s.rt.workers.length)
    (hclosed : ∀ q, rt.queueClosed q = s.rt.queueClosed q)
    (hasleep : ∀ t ∈ asleep, t ∈ s.asleep ∨ s.rt.queueClosed t.queue = false)
    : { s with rt := rt, conn := conn, asleep := asleep }.Inv where
  asleep := by
    intro t ht
    dsimp only
    rw [hclosed]
    cases hasleep t ht with
    | inl ht => exact h.asleep t ht
    | inr ht => exact ht
  queues := by
    intro t ht
    apply h.queues t
    simpa only [threads, hlength] using ht
  closed := by
    intro q hq hhas
    dsimp only
    rw [hclosed]
    exact h.closed q hq hhas
  created := by
    have hcreated := h.created
    unfold Created at hcreated ⊢
    simpa only [threads, hasQueue, hlength] using hcreated
  started := by
    have hstarted := h.started
    simpa only [threads, hlength] using hstarted
  joined := by
    have hjoined := h.joined
    unfold Joined at hjoined ⊢
    simpa only [hlength] using hjoined

theorem Inv.threadStep (h : s.Inv) {t : Thread} {env : ThreadEnv} {s' : Lifecycle}
    (hstep : s.threadStep t env = some s') : s'.Inv := by
  unfold Lifecycle.threadStep at hstep
  split at hstep
  . cases hstep
  . split at hstep
    . next hwaits =>
      rw [Option.some.injEq] at hstep
      rw [← hstep]
      apply h.frame rfl (fun _ => rfl)
      intro u hu
      rw [List.mem_cons] at hu
      cases hu with
      | inl hu => exact .inr (hu ▸ Runtime.open_of_waits hwaits)
      | inr hu => exact .inl hu
    . dsimp only at hstep
      rw [Option.some.injEq] at hstep
      rw [← hstep]
      apply h.frame (Runtime.length_workers_step _) (Runtime.queueClosed_step _)
      intro u hu
      left
      split at hu
      . exact mem_of_mem_signal hu
      . exact hu

theorem Inv.dispatchStep (h : s.Inv) {message : Message} {alloc : Bool} {wake : Thread}
    {s' : Lifecycle} (hstep : s.dispatchStep message alloc wake = some s') : s'.Inv := by
  unfold Lifecycle.dispatchStep at hstep
  split at hstep
  . cases hstep
  . dsimp only at hstep
    rw [Option.some.injEq] at hstep
    rw [← hstep]
    apply h.frame
    . rw [Runtime.workers_dispatchTask]
    . exact Runtime.queueClosed_dispatchTask _ _
    . intro u hu
      left
      split at hu
      . exact mem_of_mem_signal hu
      . exact hu

theorem Inv.goto (h : s.Inv) {pc : OwnerPc}
    (hclosed : ∀ q, pc.closed q = true → s.owner.closed q = true)
    (hcreated : (s.goto pc).Created) (hjoined : (s.goto pc).Joined) : (s.goto pc).Inv where
  asleep := h.asleep
  queues := h.queues
  closed := fun q hq => h.closed q (hclosed q hq)
  created := hcreated
  started := h.started
  joined := hjoined

theorem Inv.abort (h : s.Inv) (hjoined : s.joined = []) : (s.goto .shutdownRequests).Inv := by
  apply h.goto
  . intro q hq
    cases q <;> cases hq
  . trivial
  . exact hjoined

theorem Inv.shutdown (h : s.Inv) (q : QueueName) {pc : OwnerPc}
    (hclosed : ∀ q', pc.closed q' = true → q' = q ∨ s.owner.closed q' = true)
    (hcreated : ∀ s' : Lifecycle, (s'.goto pc).Created) (hjoined : (s.goto pc).Joined)
    : ((if s.hasQueue q then s.queueShutdown q else s).goto pc).Inv := by
  split
  . have hlength : (s.rt.close q).workers.length = s.rt.workers.length := by
      rw [Runtime.workers_close]
    have hthreads : ((s.queueShutdown q).goto pc).threads = s.threads := by
      simp only [threads, Lifecycle.goto, queueShutdown, hlength]
      rfl
    exact {
      asleep := by
        intro t ht
        simp only [Lifecycle.goto, queueShutdown, broadcast, List.mem_filter, decide_eq_true_eq] at ht
        simp only [Lifecycle.goto, queueShutdown]
        rw [Runtime.queueClosed_close, h.asleep t ht.1]
        simpa using Ne.symm ht.2
      queues := by
        rw [hthreads]
        exact h.queues
      closed := by
        intro q' hq' hhas
        simp only [Lifecycle.goto, queueShutdown]
        rw [Runtime.queueClosed_close]
        cases hclosed q' hq' with
        | inl heq => simp [heq]
        | inr hq' =>
          rw [h.closed q' hq' hhas]
          rfl
      created := hcreated _
      started := by
        rw [hthreads]
        exact h.started
      joined := by
        unfold Joined at hjoined ⊢
        simp only [Lifecycle.goto, queueShutdown, hlength] at hjoined ⊢
        exact hjoined
    }
  . next hhas =>
    exact {
      asleep := h.asleep
      queues := h.queues
      closed := by
        intro q' hq' hhas'
        cases hclosed q' hq' with
        | inl heq =>
          subst heq
          exact absurd hhas' hhas
        | inr hq' => exact h.closed q' hq' hhas'
      created := hcreated _
      started := h.started
      joined := hjoined
    }

theorem threads_eq_nil (h : s.threads = [])
    : s.dbWorkerStarted = false ∧ s.dispatcherStarted = false ∧ s.rt.workers.length = 0 := by
  unfold threads at h
  simp only [List.append_eq_nil_iff, List.map_eq_nil_iff, List.range_eq_nil] at h
  refine ⟨?_, ?_, h.2⟩
  . by_contra hstarted
    rw [Bool.not_eq_false] at hstarted
    simp [hstarted] at h
  . by_contra hstarted
    rw [Bool.not_eq_false] at hstarted
    simp [hstarted] at h

theorem Inv.createQueue (h : s.Inv) (hnone : s.threads = []) {db request response : Bool}
    {pc : OwnerPc} (hclosed : ∀ q, pc.closed q = false)
    (hcreated : { s with
        hasDbQueue := db
        hasRequestQueue := request
        hasResponseQueue := response
        owner := pc
      }.Created)
    (hjoined : (s.goto pc).Joined)
    : { s with
        hasDbQueue := db
        hasRequestQueue := request
        hasResponseQueue := response
        owner := pc
      }.Inv where
  asleep := h.asleep
  queues := by
    intro t ht
    have hthreads : t ∈ s.threads := ht
    rw [hnone] at hthreads
    cases hthreads
  closed := by
    intro q hq
    rw [hclosed q] at hq
    cases hq
  created := hcreated
  started := h.started
  joined := hjoined

theorem Inv.createThread (h : s.Inv) {s' : Lifecycle} {t : Thread} (hall : ∀ q, s.hasQueue q = true)
    (hasleep : s'.asleep = s.asleep) (hrt : ∀ q, s'.rt.queueClosed q = s.rt.queueClosed q)
    (hhas : ∀ q, s'.hasQueue q = s.hasQueue q) (hthreads : s'.threads = s.threads ++ [t])
    (hstarted : s'.started = s.started ++ [t]) (hclosed : ∀ q, s'.owner.closed q = false)
    (hcreated : s'.Created) (hjoined : s'.Joined) : s'.Inv where
  asleep := by
    intro u hu
    rw [hasleep] at hu
    rw [hrt]
    exact h.asleep u hu
  queues := by
    intro u _
    rw [hhas]
    exact hall _
  closed := by
    intro q hq
    rw [hclosed q] at hq
    cases hq
  created := hcreated
  started := by rw [hstarted, hthreads, h.started]
  joined := hjoined

theorem Inv.join (h : s.Inv) {t : Thread} {pc : OwnerPc}
    (hclosed : ∀ q, pc.closed q = true → s.owner.closed q = true)
    (hcreated : { s with joined := s.joined ++ [t], owner := pc }.Created)
    (hjoined : { s with joined := s.joined ++ [t], owner := pc }.Joined)
    : { s with joined := s.joined ++ [t], owner := pc }.Inv where
  asleep := h.asleep
  queues := h.queues
  closed := fun q hq => h.closed q (hclosed q hq)
  created := hcreated
  started := h.started
  joined := hjoined

theorem Inv.createStep (h : s.Inv) (hcreating : s.owner.destroying = false) {n : Int} {ok : Bool}
    {s' : Lifecycle} (hstep : s.ownerStep n ok = some s') : s'.Inv := by
  have hcreated := h.created
  have hjoined := h.joined
  unfold Created at hcreated
  unfold Joined at hjoined
  unfold Lifecycle.ownerStep at hstep
  cases howner : s.owner with
  | allocRuntime =>
    simp only [howner] at hstep hcreated hjoined
    split at hstep
    . cases hstep
      exact h.goto (by intro q hq; cases q <;> cases hq) trivial hjoined
    . split at hstep
      . cases hstep
        exact h.goto (by intro q hq; cases q <;> cases hq) trivial hjoined
      . cases hstep
        exact h.goto (by intro q hq; cases q <;> cases hq) hcreated hjoined
  | createDbQueue =>
    simp only [howner] at hstep hcreated hjoined
    split at hstep
    . cases hstep
      exact h.abort hjoined
    . cases hstep
      exact h.createQueue hcreated (by intro q; cases q <;> rfl) ⟨hcreated, rfl⟩ hjoined
  | createRequestQueue =>
    simp only [howner] at hstep hcreated hjoined
    split at hstep
    . cases hstep
      exact h.abort hjoined
    . cases hstep
      exact h.createQueue hcreated.1 (by intro q; cases q <;> rfl) ⟨hcreated.1, hcreated.2, rfl⟩ hjoined
  | createResponseQueue =>
    simp only [howner] at hstep hcreated hjoined
    split at hstep
    . cases hstep
      exact h.abort hjoined
    . cases hstep
      have hclosed : ∀ q, OwnerPc.allocThreads.closed q = false := by
        intro q
        cases q <;> rfl
      apply h.createQueue hcreated.1 hclosed
      . refine ⟨hcreated.1, ?_⟩
        intro q
        cases q with
        | request => exact hcreated.2.2
        | response => rfl
        | db => exact hcreated.2.1
      . exact hjoined
  | allocThreads =>
    simp only [howner] at hstep hcreated hjoined
    split at hstep
    . cases hstep
      exact h.abort hjoined
    . cases hstep
      exact h.goto (by intro q hq; cases q <;> cases hq) hcreated hjoined
  | createDbWorker =>
    simp only [howner] at hstep hcreated hjoined
    split at hstep
    . cases hstep
      exact h.abort hjoined
    . cases hstep
      have ⟨hdb, hdispatcher, hworkers⟩ := threads_eq_nil hcreated.1
      refine h.createThread hcreated.2 rfl (fun _ => rfl) (fun _ => rfl) ?_ rfl ?_
        ⟨rfl, hdispatcher, hworkers, hcreated.2⟩ hjoined
      . simp [threads, hdispatcher, hworkers, hdb]
      . intro q
        cases q <;> rfl
  | createDispatcher =>
    simp only [howner] at hstep hcreated hjoined
    split at hstep
    . cases hstep
      exact h.abort hjoined
    . cases hstep
      have ⟨hdb, hdispatcher, hworkers, hall⟩ := hcreated
      refine h.createThread hall rfl (fun _ => rfl) (fun _ => rfl) ?_ rfl ?_ ⟨rfl, hdb, hall⟩ hjoined
      . simp [threads, hdispatcher, hworkers, hdb]
      . intro q
        cases q <;> rfl
  | createWorkers =>
    simp only [howner] at hstep hcreated hjoined
    split at hstep
    . split at hstep
      . cases hstep
        exact h.abort hjoined
      . cases hstep
        refine h.createThread hcreated.2.2 rfl (fun q => by cases q <;> rfl) (fun _ => rfl) ?_ rfl ?_ ?_ ?_
        . simp [threads, List.range_succ]
        . intro q
          cases q <;> rfl
        . exact hcreated
        . exact hjoined
    . cases hstep
      exact {
        asleep := h.asleep
        queues := h.queues
        closed := by
          intro q hq
          cases q <;> cases hq
        created := trivial
        started := h.started
        joined := hjoined
      }
  | running =>
    simp only [howner] at hstep hcreated hjoined
    cases hstep
    exact h.abort hjoined
  | shutdownRequests | joinWorkers | shutdownResponses | joinDispatcher | shutdownDb | joinDbWorker
  | freeQueues | returned =>
    rw [howner] at hcreating
    cases hcreating
  | noRuntime =>
    simp only [howner] at hstep
    cases hstep

theorem Inv.destroyStep (h : s.Inv) (hdestroying : s.owner.destroying = true) {n : Int} {ok : Bool}
    {s' : Lifecycle} (hstep : s.ownerStep n ok = some s') : s'.Inv := by
  have hcreated := h.created
  have hjoined := h.joined
  unfold Created at hcreated
  unfold Joined at hjoined
  unfold Lifecycle.ownerStep at hstep
  cases howner : s.owner with
  | allocRuntime | createDbQueue | createRequestQueue | createResponseQueue | allocThreads
  | createDbWorker | createDispatcher | createWorkers | running | noRuntime =>
    rw [howner] at hdestroying
    cases hdestroying
  | shutdownRequests =>
    simp only [howner] at hstep hcreated hjoined
    cases hstep
    apply h.shutdown .request
    . intro q hq
      cases q with
      | request => exact .inl rfl
      | response => cases hq
      | db => cases hq
    . exact fun _ => trivial
    . exact ⟨Nat.zero_le _, hjoined⟩
  | joinWorkers i =>
    simp only [howner] at hstep hcreated hjoined
    have hclosed {pc : OwnerPc} (hresponse : pc.closed .response = false) (hdb : pc.closed .db = false)
        (q : QueueName) (hq : pc.closed q = true) : s.owner.closed q = true := by
      cases q with
      | request =>
        rw [howner]
        rfl
      | response =>
        rw [hresponse] at hq
        cases hq
      | db =>
        rw [hdb] at hq
        cases hq
    split at hstep
    . next hlt =>
      split at hstep
      . cases hstep
        apply h.join
        . exact hclosed rfl rfl
        . trivial
        . refine ⟨hlt, ?_⟩
          rw [hjoined.2, List.range_succ, List.map_append]
          rfl
      . cases hstep
    . cases hstep
      apply h.goto
      . exact hclosed rfl rfl
      . trivial
      . have hlength : i = s.rt.workers.length := by omega
        rw [hlength] at hjoined
        exact hjoined.2
  | shutdownResponses =>
    simp only [howner] at hstep hcreated hjoined
    cases hstep
    apply h.shutdown .response
    . intro q hq
      rw [howner]
      cases q with
      | request => exact .inr rfl
      | response => exact .inl rfl
      | db => cases hq
    . exact fun _ => trivial
    . exact hjoined
  | joinDispatcher =>
    simp only [howner] at hstep hcreated hjoined
    have hclosed (q : QueueName) (hq : OwnerPc.shutdownDb.closed q = true)
        : s.owner.closed q = true := by
      rw [howner]
      cases q with
      | request => rfl
      | response => rfl
      | db => cases hq
    split at hstep
    . next hstarted =>
      split at hstep
      . cases hstep
        apply h.join hclosed trivial
        simp [Joined, hjoined, hstarted]
      . cases hstep
    . next hstarted =>
      cases hstep
      apply h.goto hclosed trivial
      simp [Joined, Lifecycle.goto, hjoined, hstarted]
  | shutdownDb =>
    simp only [howner] at hstep hcreated hjoined
    cases hstep
    apply h.shutdown .db
    . intro q hq
      rw [howner]
      cases q with
      | request => exact .inr rfl
      | response => exact .inr rfl
      | db => exact .inl rfl
    . exact fun _ => trivial
    . exact hjoined
  | joinDbWorker =>
    simp only [howner] at hstep hcreated hjoined
    have hclosed (q : QueueName) (_ : OwnerPc.freeQueues.closed q = true) : s.owner.closed q = true := by
      rw [howner]
      cases q <;> rfl
    split at hstep
    . next hstarted =>
      split at hstep
      . cases hstep
        apply h.join hclosed trivial
        simp [Joined, hjoined, hstarted]
      . cases hstep
    . next hstarted =>
      cases hstep
      apply h.goto hclosed trivial
      simp [Joined, Lifecycle.goto, hjoined, hstarted]
  | freeQueues =>
    simp only [howner] at hstep hcreated hjoined
    cases hstep
    apply h.goto
    . intro q _
      rw [howner]
      cases q <;> rfl
    . trivial
    . exact hjoined
  | returned =>
    simp only [howner] at hstep
    cases hstep

theorem Inv.ownerStep (h : s.Inv) {n : Int} {ok : Bool} {s' : Lifecycle}
    (hstep : s.ownerStep n ok = some s') : s'.Inv := by
  cases hphase : s.owner.destroying with
  | false => exact h.createStep hphase hstep
  | true => exact h.destroyStep hphase hstep

theorem Inv.step (h : s.Inv) {n : Int} {act : Action} {s' : Lifecycle}
    (hstep : s.step n act = some s') : s'.Inv := by
  cases act with
  | owner ok => exact h.ownerStep hstep
  | thread t env => exact h.threadStep hstep
  | dispatch message alloc wake => exact h.dispatchStep hstep
  | spurious t =>
    cases hstep
    apply h.frame rfl (fun _ => rfl)
    intro u hu
    exact .inl (List.mem_of_mem_erase hu)

theorem Inv.exec (h : s.Inv) (n : Int) (acts : List Action) : (s.exec n acts).Inv := by
  unfold Lifecycle.exec
  induction acts generalizing s with
  | nil => exact h
  | cons act acts ih =>
    rw [List.foldl_cons]
    apply ih
    cases hstep : s.step n act with
    | none => exact h
    | some s' => exact h.step hstep

theorem Inv.moves_of_closed (h : s.Inv) {t : Thread} (hmem : t ∈ s.threads)
    (hclosed : s.owner.closed t.queue = true) (hexited : s.rt.exited t = false)
    : ∃ t env, (s.threadStep t env).isSome := by
  have hqueue := h.closed t.queue hclosed (h.queues t hmem)
  have hawake : t ∉ s.asleep := by
    intro hasleep
    rw [h.asleep t hasleep] at hqueue
    cases hqueue
  have halive : s.alive t = true := by
    unfold threads at hmem
    unfold alive
    rw [hexited]
    cases t with
    | worker i =>
      cases hdb : s.dbWorkerStarted <;> cases hdispatcher : s.dispatcherStarted
      all_goals simpa [hdb, hdispatcher] using hmem
    | dispatcher =>
      cases hdb : s.dbWorkerStarted <;> cases hdispatcher : s.dispatcherStarted
      all_goals simp [hdb, hdispatcher] at hmem ⊢
    | dbWorker =>
      cases hdb : s.dbWorkerStarted <;> cases hdispatcher : s.dispatcherStarted
      all_goals simp [hdb, hdispatcher] at hmem ⊢
  refine ⟨t, ⟨.ok [] 200, true, [], t⟩, ?_⟩
  unfold Lifecycle.threadStep
  rw [if_neg (by simp [halive, hawake])]
  split <;> rfl

theorem mem_threads_worker {i : Nat} (h : i < s.rt.workers.length) : Thread.worker i ∈ s.threads := by
  unfold threads
  apply List.mem_append_right
  simpa using h

theorem mem_threads_dispatcher (h : s.dispatcherStarted = true) : Thread.dispatcher ∈ s.threads := by
  simp [threads, h]

theorem mem_threads_dbWorker (h : s.dbWorkerStarted = true) : Thread.dbWorker ∈ s.threads := by
  simp [threads, h]

theorem Inv.moves (h : s.Inv) (n : Int) (hdestroying : s.owner.destroying = true)
    (hreturned : s.owner ≠ .returned) : s.Moves n := by
  unfold Moves
  cases howner : s.owner with
  | allocRuntime | createDbQueue | createRequestQueue | createResponseQueue | allocThreads
  | createDbWorker | createDispatcher | createWorkers | running | noRuntime =>
    rw [howner] at hdestroying
    cases hdestroying
  | shutdownRequests | shutdownResponses | shutdownDb | freeQueues =>
    left
    refine ⟨true, ?_⟩
    simp only [Lifecycle.ownerStep, howner, Option.isSome_some]
  | joinWorkers i =>
    by_cases hlt : i < s.rt.workers.length
    . cases hexited : s.rt.exited (.worker i) with
      | true =>
        left
        refine ⟨true, ?_⟩
        simp only [Lifecycle.ownerStep, howner, hlt, hexited, if_true, Option.isSome_some]
      | false =>
        right
        exact h.moves_of_closed (mem_threads_worker hlt) (by rw [howner]; rfl) hexited
    . left
      refine ⟨true, ?_⟩
      simp only [Lifecycle.ownerStep, howner, hlt, if_false, Option.isSome_some]
  | joinDispatcher =>
    cases hstarted : s.dispatcherStarted with
    | true =>
      cases hexited : s.rt.exited .dispatcher with
      | true =>
        left
        refine ⟨true, ?_⟩
        simp only [Lifecycle.ownerStep, howner, hstarted, hexited, if_true, Option.isSome_some]
      | false =>
        right
        exact h.moves_of_closed (mem_threads_dispatcher hstarted) (by rw [howner]; rfl) hexited
    | false =>
      left
      refine ⟨true, ?_⟩
      simp [Lifecycle.ownerStep, howner, hstarted]
  | joinDbWorker =>
    cases hstarted : s.dbWorkerStarted with
    | true =>
      cases hexited : s.rt.exited .dbWorker with
      | true =>
        left
        refine ⟨true, ?_⟩
        simp only [Lifecycle.ownerStep, howner, hstarted, hexited, if_true, Option.isSome_some]
      | false =>
        right
        exact h.moves_of_closed (mem_threads_dbWorker hstarted) (by rw [howner]; rfl) hexited
    | false =>
      left
      refine ⟨true, ?_⟩
      simp [Lifecycle.ownerStep, howner, hstarted]
  | returned => exact absurd howner hreturned

theorem Inv.joined_of_returned (h : s.Inv) (hreturned : s.owner = .returned)
    : s.joined.Nodup ∧ ∀ t, t ∈ s.joined ↔ t ∈ s.started := by
  have hjoined := h.joined
  unfold Joined at hjoined
  simp only [hreturned] at hjoined
  rw [h.started, hjoined]
  unfold threads
  have hworkers : ((List.range s.rt.workers.length).map Thread.worker).Nodup := by
    apply List.Nodup.map _ List.nodup_range
    intro i j heq
    cases heq
    rfl
  constructor
  . cases s.dispatcherStarted <;> cases s.dbWorkerStarted
    all_goals simp [List.nodup_append, hworkers]
  . intro t
    simp only [List.mem_append]
    tauto

/--
Shutdown never deadlocks: from the moment `destroy_runtime` is entered until it returns, the owner or
one of the threads can move. When it returns, the threads that were started are joined, each once.
-/
theorem destroy_never_stuck (n : Int) (conn : Conn) (acts : List Action)
    : ((start conn).exec n acts).owner.destroying = true →
        (((start conn).exec n acts).owner = .returned ∨ ((start conn).exec n acts).Moves n) ∧
        (((start conn).exec n acts).owner = .returned →
          ((start conn).exec n acts).joined.Nodup ∧
            ∀ t, t ∈ ((start conn).exec n acts).joined ↔ t ∈ ((start conn).exec n acts).started) := by
  intro hdestroying
  have hinv := (inv_start conn).exec n acts
  refine ⟨?_, hinv.joined_of_returned⟩
  by_cases hreturned : ((start conn).exec n acts).owner = .returned
  . exact .inl hreturned
  . exact .inr (hinv.moves n hdestroying hreturned)

-- The second of two workers cannot be started while the first one sleeps.
def halfCreated : List Action :=
  List.replicate 8 (.owner true) ++
    [.thread (.worker 0) ⟨.ok [] 200, true, [], .worker 0⟩, .owner false]

theorem destroy_never_stuck_halfCreated
    : (((start (.open .empty)).exec 2 halfCreated).owner = .returned ∨
          ((start (.open .empty)).exec 2 halfCreated).Moves 2) ∧
        (((start (.open .empty)).exec 2 halfCreated).owner = .returned →
          ((start (.open .empty)).exec 2 halfCreated).joined.Nodup ∧
            ∀ t, t ∈ ((start (.open .empty)).exec 2 halfCreated).joined ↔
              t ∈ ((start (.open .empty)).exec 2 halfCreated).started) :=
  destroy_never_stuck 2 (.open .empty) halfCreated rfl

section Connection

theorem exec_append (n : Int) (acts acts' : List Action)
    : s.exec n (acts ++ acts') = (s.exec n acts).exec n acts' := List.foldl_append

theorem exec_createWorkers (n k : Nat) (howner : s.owner = .createWorkers)
    (hroom : s.rt.workers.length + k = n)
    : (s.exec n (List.replicate k (.owner true))).owner = .createWorkers ∧
        (s.exec n (List.replicate k (.owner true))).rt =
          { s.rt with workers := s.rt.workers ++ List.replicate k .waiting } := by
  induction k generalizing s with
  | zero =>
    refine ⟨howner, ?_⟩
    simp [exec]
  | succ k ih =>
    have hlt : (s.rt.workers.length : Int) < n := by omega
    have hstep : s.step n (.owner true) = some { s with
        rt := { s.rt with workers := s.rt.workers ++ [.waiting] }
        started := s.started ++ [.worker s.rt.workers.length]
      } := by
      simp only [Lifecycle.step, Lifecycle.ownerStep, howner, hlt, if_true, Bool.not_true,
        Bool.false_eq_true, if_false]
    have hexec : s.exec n (List.replicate (k + 1) (.owner true)) =
        (((s.step n (.owner true)).getD s).exec n (List.replicate k (.owner true))) := rfl
    rw [hexec, hstep, Option.getD_some]
    have hnext := ih (s := { s with
        rt := { s.rt with workers := s.rt.workers ++ [.waiting] }
        started := s.started ++ [.worker s.rt.workers.length]
      }) howner (by simp only [List.length_append, List.length_singleton]; omega)
    refine ⟨hnext.1, ?_⟩
    rw [hnext.2]
    simp only [List.append_assoc, List.replicate_succ, List.singleton_append]

/-- When nothing fails, the owner gets the runtime of `createRuntime`. -/
theorem exec_create (n : Nat) (hn : 0 < n) (conn : Conn)
    : ((start conn).exec n (List.replicate (7 + n + 1) (.owner true))).owner = .running ∧
        createRuntime n =
          some ((start conn).exec n (List.replicate (7 + n + 1) (.owner true))).rt := by
  have hpositive : ¬ (n : Int) ≤ 0 := by omega
  rw [List.replicate_add, List.replicate_add, exec_append, exec_append]
  have hstart : ((start conn).exec n (List.replicate 7 (.owner true))).owner = .createWorkers ∧
      ((start conn).exec n (List.replicate 7 (.owner true))).rt = (start conn).rt := by
    have hfirst : (start conn).step n (.owner true) = some ((start conn).goto .createDbQueue) := by
      simp only [Lifecycle.step, Lifecycle.ownerStep, start, hpositive, if_false, Bool.not_true,
        Bool.false_eq_true]
    have hexec : (start conn).exec n (List.replicate 7 (.owner true)) =
        (((start conn).step n (.owner true)).getD (start conn)).exec n
          (List.replicate 6 (.owner true)) := rfl
    rw [hexec, hfirst]
    exact ⟨rfl, rfl⟩
  have hloop := exec_createWorkers n n hstart.1 (by rw [hstart.2]; exact Nat.zero_add n)
  generalize ((start conn).exec n (List.replicate 7 (.owner true))).exec n
    (List.replicate n (.owner true)) = s at hloop
  have hlength : s.rt.workers.length = n := by
    rw [hloop.2, hstart.2]
    simp [start]
  have hlast : s.step n (.owner true) = some { s with isRunning := true, owner := .running } := by
    simp only [Lifecycle.step, Lifecycle.ownerStep, hloop.1, hlength, Int.lt_irrefl, if_false]
  have hexec : s.exec n (List.replicate 1 (.owner true)) = (s.step n (.owner true)).getD s := rfl
  rw [hexec, hlast, Option.getD_some]
  refine ⟨rfl, ?_⟩
  unfold createRuntime
  rw [if_neg hpositive, hloop.2, hstart.2]
  simp [start]

end Connection

end Lifecycle
end HttpRuntime
