import HttpRuntime.Core.Runtime.Liveness
import HttpRuntime.Core.Runtime.Nodes

/-!
This module contains the refinement of the runtime with abstract queues by the runtime with linked lists,
over whole runs that end with the queues destroyed.
-/

open Lib

namespace HttpRuntime

namespace WorkerState

def load (w : WorkerState) : Nat :=
  match w with
  | .executing _ | .pushing _ => 1
  | .waiting | .exited => 0

end WorkerState

namespace DispatcherState

def load (d : DispatcherState) : Nat :=
  match d with
  | .pushing _ => 1
  | .waiting | .exited => 0

end DispatcherState

namespace Runtime

section Load

variable {rt : Runtime} {conn : Conn}

-- The tasks and responses on their way to the DB worker.
def load (rt : Runtime) : Nat :=
  rt.requestQueue.items.length + rt.responseQueue.items.length + rt.dbQueue.items.length +
    (rt.workers.map WorkerState.load).sum + rt.dispatcher.load

theorem load_workerStep_le (i : Nat) (env : TransferEnv) (alloc : Bool)
    : (rt.workerStep i env alloc).load ≤ rt.load := by
  unfold workerStep
  cases hw : rt.workers[i]? with
  | none => exact Nat.le_refl _
  | some w =>
    have hset := fun w' => sum_map_set WorkerState.load hw w'
    cases w with
    | waiting =>
      dsimp only
      rcases pop_cases rt.requestQueue with ⟨task, tasks, hitems, hpop⟩ | ⟨_, _, hpop⟩ | ⟨_, _, hpop⟩
      . have hset' := hset (.executing task)
        rw [hpop]
        simp only [load, hitems, List.length_cons, WorkerState.load] at hset' ⊢
        omega
      . have hset' := hset .exited
        rw [hpop]
        simp only [load, WorkerState.load] at hset' ⊢
        omega
      . rw [hpop]
    | executing task =>
      dsimp only
      split
      . next resp _ =>
        have hset' := hset (.pushing ⟨task.ticket, resp⟩)
        simp only [load, WorkerState.load] at hset' ⊢
        omega
      . have hset' := hset .waiting
        simp only [load, WorkerState.load] at hset' ⊢
        omega
    | pushing resp =>
      have hset' := hset .waiting
      have hlength := length_pushQueue_le rt.responseQueue resp alloc
      simp only [load, WorkerState.load] at hset' ⊢
      omega
    | exited => exact Nat.le_refl _

theorem load_dispatcherStep_le (alloc : Bool) : (rt.dispatcherStep alloc).load ≤ rt.load := by
  unfold dispatcherStep
  cases hd : rt.dispatcher with
  | waiting =>
    dsimp only
    rcases pop_cases rt.responseQueue with ⟨resp, resps, hitems, hpop⟩ | ⟨_, _, hpop⟩ | ⟨_, _, hpop⟩
    . rw [hpop]
      have hnext : (if alloc then .pushing ⟨resp.ticket, .saveResponse (some resp.item)⟩
          else .waiting : DispatcherState).load ≤ 1 := by
        cases alloc <;> simp [DispatcherState.load]
      simp only [load, hitems, hd, List.length_cons, DispatcherState.load] at hnext ⊢
      omega
    . rw [hpop]
      simp only [load, hd, DispatcherState.load]
      omega
    . rw [hpop]
  | pushing task =>
    have hlength := length_pushQueue_le rt.dbQueue task alloc
    simp only [load, hd, DispatcherState.load]
    omega
  | exited => exact Nat.le_refl _

theorem load_dbWorkerStep_le (es : List CallEnv) : (rt.dbWorkerStep conn es).1.load ≤ rt.load := by
  unfold dbWorkerStep
  cases hd : rt.dbWorker with
  | waiting =>
    dsimp only
    rcases pop_cases rt.dbQueue with ⟨task, tasks, hitems, hpop⟩ | ⟨_, _, hpop⟩ | ⟨_, _, hpop⟩
    . rw [hpop]
      simp only [load, hitems, List.length_cons]
      omega
    . rw [hpop]
      exact Nat.le_refl _
    . rw [hpop]
  | executing task =>
    dsimp only
    split <;> [skip; split]
    all_goals exact Nat.le_refl _
  | exited => exact Nat.le_refl _

theorem load_step_le (act : Action) : (rt.step conn act).1.load ≤ rt.load := by
  cases act with
  | worker i env alloc => exact load_workerStep_le i env alloc
  | dispatcher alloc => exact load_dispatcherStep_le alloc
  | dbWorker es => exact load_dbWorkerStep_le es

theorem load_dispatchTask_le (message : Message) (alloc : Bool)
    : (rt.dispatchTask message alloc).1.load ≤ rt.load + 1 := by
  cases message with
  | db task =>
    have hlength := length_pushQueue_le rt.dbQueue task alloc
    simp only [dispatchTask, load]
    omega
  | worker task =>
    have hlength := length_pushQueue_le rt.requestQueue task alloc
    simp only [dispatchTask, load]
    omega

theorem load_destroyStep (phase : DestroyPhase) : (rt.destroyStep phase).1.load = rt.load := by
  unfold destroyStep
  split
  . split
    . split <;> rfl
    . rfl
  . split <;> rfl
  . split <;> rfl
  . rfl

end Load

section Ended

/-- The threads that `destroy_runtime` joined before a phase. -/
def joinedBefore (phase : DestroyPhase) (t : Thread) : Bool :=
  match phase, t with
  | .joinWorkers i, .worker j => j < i
  | .joinDispatcher, .worker _ | .joinDbWorker, .worker _ | .returned, .worker _ => true
  | .joinDbWorker, .dispatcher | .returned, .dispatcher => true
  | .returned, .dbWorker => true
  | _, _ => false

def Ended (rt : Runtime) (phase : DestroyPhase) : Prop :=
  ∀ t, joinedBefore phase t = true → (∀ i, t = .worker i → i < rt.workers.length) → rt.exited t = true

variable {rt : Runtime} {conn : Conn} {phase : DestroyPhase}

theorem Ended.step (h : rt.Ended phase) (act : Action) : (rt.step conn act).1.Ended phase := by
  intro t ht hexists
  rw [length_workers_step] at hexists
  have hexited := h t ht hexists
  by_cases heq : act.thread = t
  . subst heq
    rw [exited_step_self act hexited]
    exact hexited
  . rw [exited_step_other act heq]
    exact hexited

theorem Ended.destroyStep (h : rt.Ended phase) : (rt.destroyStep phase).1.Ended (rt.destroyStep phase).2 := by
  cases phase with
  | joinWorkers i =>
    unfold Runtime.destroyStep
    dsimp only
    split
    . split
      . next hexited =>
        intro t ht hexists
        cases t with
        | worker j =>
          by_cases hji : j = i
          . rw [hji]
            exact decide_eq_true hexited
          . have hlt : j < i + 1 := of_decide_eq_true ht
            exact h (.worker j) (decide_eq_true (by omega)) hexists
        | dispatcher => cases ht
        | dbWorker => cases ht
      . exact h
    . next hge =>
      intro t ht hexists
      cases t with
      | worker j =>
        have hlt : j < rt.workers.length := hexists j rfl
        exact h (.worker j) (decide_eq_true (by omega)) hexists
      | dispatcher => cases ht
      | dbWorker => cases ht
  | joinDispatcher =>
    unfold Runtime.destroyStep
    dsimp only
    split
    . next hexited =>
      intro t ht hexists
      cases t with
      | worker j => exact h (.worker j) rfl hexists
      | dispatcher => exact decide_eq_true hexited
      | dbWorker => cases ht
    . exact h
  | joinDbWorker =>
    unfold Runtime.destroyStep
    dsimp only
    split
    . next hexited =>
      intro t ht hexists
      cases t with
      | worker j => exact h (.worker j) rfl hexists
      | dispatcher => exact h .dispatcher rfl hexists
      | dbWorker => exact decide_eq_true hexited
    . exact h
  | returned => exact h

end Ended

end Runtime

section Refines

theorem pushSpec_eq {α : Type} (q : Fifo α) (x : α) (qn : Option Addr)
    : pushSpec q (some x) qn =
        ((pushQueue q x qn.isSome).1, if (pushQueue q x qn.isSome).2 then queueSuccess else queueError) := by
  unfold pushSpec pushQueue
  cases qn <;> rfl

theorem queuePush_pushQueue {α : Type} {m : QueueMem α} {q : Fifo α} (h : m.Represents q) (x : α)
    (alloc : Option Addr) (hroom : (pushQueue q x (malloc m.nodes alloc).isSome).1.items.length < 2 ^ 31)
    : ∃ m',
        queuePush m (some x) alloc =
          some (m', if (pushQueue q x (malloc m.nodes alloc).isSome).2 then queueSuccess else queueError) ∧
        m'.Represents (pushQueue q x (malloc m.nodes alloc).isSome).1 := by
  obtain ⟨m', hpush, hrep⟩ := queuePush_refines h (some x) alloc
  rw [pushSpec_eq] at hpush hrep
  exact ⟨m', hpush, hrep hroom⟩

structure NodeRuntime.SameThreads (nrt : NodeRuntime) (rt : Runtime) : Prop where
  workers : nrt.workers = rt.workers
  dispatcher : nrt.dispatcher = rt.dispatcher
  dbWorker : nrt.dbWorker = rt.dbWorker
  saved : nrt.saved = rt.saved

/-- The threads are at the same points, and the lists hold what the abstract queues hold. -/
structure NodeRuntime.Represents (nrt : NodeRuntime) (rt : Runtime) : Prop extends nrt.SameThreads rt where
  requestQueue : nrt.requestQueue.Represents rt.requestQueue
  responseQueue : nrt.responseQueue.Represents rt.responseQueue
  dbQueue : nrt.dbQueue.Represents rt.dbQueue

/-- What the other runtime is told about the allocations. -/
def NodeRuntime.Action.erase (nrt : NodeRuntime) (act : NodeRuntime.Action) : Runtime.Action :=
  match act with
  | .worker i env alloc => .worker i env (malloc nrt.responseQueue.nodes alloc).isSome
  | .dispatcher calloc alloc =>
    match nrt.dispatcher with
    | .pushing _ => .dispatcher (malloc nrt.dbQueue.nodes alloc).isSome
    | _ => .dispatcher calloc
  | .dbWorker es => .dbWorker es

namespace NodeRuntime

-- Whether `dispatch_task` gets its queue node.
def allocated (nrt : NodeRuntime) (message : Message) (alloc : Option Addr) : Bool :=
  match message with
  | .db _ => (malloc nrt.dbQueue.nodes alloc).isSome
  | .worker _ => (malloc nrt.requestQueue.nodes alloc).isSome

variable {nrt : NodeRuntime} {rt : Runtime} {conn : Conn}

theorem Represents.workerStep (h : nrt.Represents rt) (hload : rt.load < 2 ^ 31) (i : Nat)
    (env : TransferEnv) (alloc : Option Addr)
    : ∃ nrt', nrt.workerStep i env alloc = some nrt' ∧
        nrt'.Represents (rt.workerStep i env (malloc nrt.responseQueue.nodes alloc).isSome) := by
  have hle := @Runtime.load_workerStep_le rt i env (malloc nrt.responseQueue.nodes alloc).isSome
  unfold NodeRuntime.workerStep
  unfold Runtime.workerStep at hle ⊢
  rw [h.workers]
  cases hw : rt.workers[i]? with
  | none => exact ⟨nrt, rfl, h⟩
  | some w =>
    cases w with
    | waiting =>
      have hlength : rt.requestQueue.items.length < 2 ^ 31 := by
        unfold Runtime.load at hload
        omega
      obtain ⟨q, hpop, hrep⟩ := queuePop_refines h.requestQueue hlength
      dsimp only
      rw [hpop]
      rcases pop_cases rt.requestQueue with ⟨task, tasks, _, heq⟩ | ⟨_, _, heq⟩ | ⟨_, _, heq⟩
      all_goals
        rw [heq] at hrep ⊢
        exact ⟨_, rfl, { h with requestQueue := hrep, workers := by rfl }⟩
    | executing task =>
      dsimp only
      cases httpWorkerTask env task.item.data with
      | some resp => exact ⟨_, rfl, { h with workers := by rfl }⟩
      | none => exact ⟨_, rfl, { h with workers := by rfl }⟩
    | pushing resp =>
      have hlength : (pushQueue rt.responseQueue resp
          (malloc nrt.responseQueue.nodes alloc).isSome).1.items.length < 2 ^ 31 := by
        rw [hw] at hle
        unfold Runtime.load at hle hload
        dsimp only at hle
        omega
      obtain ⟨q, hpush, hrep⟩ := queuePush_pushQueue h.responseQueue resp alloc hlength
      dsimp only
      rw [hpush]
      exact ⟨_, rfl, { h with responseQueue := hrep, workers := by rfl }⟩
    | exited => exact ⟨nrt, rfl, h⟩

theorem Represents.dispatcherStep (h : nrt.Represents rt) (hload : rt.load < 2 ^ 31) (calloc : Bool)
    (alloc : Option Addr)
    : ∃ nrt', nrt.step conn (.dispatcher calloc alloc) = some (nrt', conn) ∧
        nrt'.Represents (rt.step conn (NodeRuntime.Action.erase nrt (.dispatcher calloc alloc))).1 := by
  unfold NodeRuntime.step NodeRuntime.dispatcherStep NodeRuntime.Action.erase
  dsimp only
  rw [h.dispatcher]
  cases hd : rt.dispatcher with
  | waiting =>
    have hlength : rt.responseQueue.items.length < 2 ^ 31 := by
      unfold Runtime.load at hload
      omega
    obtain ⟨q, hpop, hrep⟩ := queuePop_refines h.responseQueue hlength
    unfold Runtime.step Runtime.dispatcherStep
    dsimp only
    rw [hpop, hd]
    rcases pop_cases rt.responseQueue with ⟨resp, resps, _, heq⟩ | ⟨_, _, heq⟩ | ⟨_, _, heq⟩
    . rw [heq] at hrep ⊢
      exact ⟨_, rfl, { h with responseQueue := hrep, dispatcher := by rfl }⟩
    . rw [heq] at hrep ⊢
      exact ⟨_, rfl, { h with responseQueue := hrep, dispatcher := by rfl }⟩
    . rw [heq] at hrep ⊢
      exact ⟨_, rfl, { h with responseQueue := hrep, dispatcher := hd.symm }⟩
  | pushing task =>
    have hle := @Runtime.load_dispatcherStep_le rt (malloc nrt.dbQueue.nodes alloc).isSome
    unfold Runtime.step
    unfold Runtime.dispatcherStep at hle ⊢
    rw [hd] at hle
    have hlength : (pushQueue rt.dbQueue task
        (malloc nrt.dbQueue.nodes alloc).isSome).1.items.length < 2 ^ 31 := by
      unfold Runtime.load at hle hload
      dsimp only at hle
      omega
    obtain ⟨q, hpush, hrep⟩ := queuePush_pushQueue h.dbQueue task alloc hlength
    dsimp only
    rw [hpush, hd]
    exact ⟨_, rfl, { h with dbQueue := hrep, dispatcher := by rfl }⟩
  | exited =>
    unfold Runtime.step Runtime.dispatcherStep
    rw [hd]
    exact ⟨nrt, rfl, h⟩

theorem Represents.dbWorkerStep (h : nrt.Represents rt) (hload : rt.load < 2 ^ 31) (es : List CallEnv)
    : ∃ nrt', nrt.dbWorkerStep conn es = some (nrt', (rt.dbWorkerStep conn es).2) ∧
        nrt'.Represents (rt.dbWorkerStep conn es).1 := by
  unfold NodeRuntime.dbWorkerStep Runtime.dbWorkerStep
  rw [h.dbWorker]
  cases hd : rt.dbWorker with
  | waiting =>
    have hlength : rt.dbQueue.items.length < 2 ^ 31 := by
      unfold Runtime.load at hload
      omega
    obtain ⟨q, hpop, hrep⟩ := queuePop_refines h.dbQueue hlength
    dsimp only
    rw [hpop]
    rcases pop_cases rt.dbQueue with ⟨task, tasks, _, heq⟩ | ⟨_, _, heq⟩ | ⟨_, _, heq⟩
    . rw [heq] at hrep ⊢
      exact ⟨_, rfl, { h with dbQueue := hrep, dbWorker := by rfl }⟩
    . rw [heq] at hrep ⊢
      exact ⟨_, rfl, { h with dbQueue := hrep, dbWorker := by rfl }⟩
    . rw [heq] at hrep ⊢
      exact ⟨_, rfl, { h with dbQueue := hrep, dbWorker := hd.symm }⟩
  | executing task =>
    dsimp only
    rw [h.saved]
    generalize (Runtime.dbTaskProg task.item).run answer es conn = res
    obtain ⟨out, conn'⟩ := res
    cases task.item with
    | shutdown => exact ⟨_, rfl, { h with dbWorker := by rfl, saved := by rfl }⟩
    | _ =>
      cases out with
      | returned rc => exact ⟨_, rfl, { h with dbWorker := by rfl, saved := by rfl }⟩
      | crashed => exact ⟨nrt, rfl, h⟩
  | exited => exact ⟨nrt, rfl, h⟩

theorem Represents.step (h : nrt.Represents rt) (hload : rt.load < 2 ^ 31) (act : NodeRuntime.Action)
    : ∃ nrt', nrt.step conn act = some (nrt', (rt.step conn (act.erase nrt)).2) ∧
        nrt'.Represents (rt.step conn (act.erase nrt)).1 := by
  cases act with
  | worker i env alloc =>
    obtain ⟨nrt', hstep, hrep⟩ := h.workerStep hload i env alloc
    refine ⟨nrt', ?_, hrep⟩
    unfold NodeRuntime.step
    dsimp only
    rw [hstep]
    rfl
  | dispatcher calloc alloc =>
    obtain ⟨nrt', hstep, hrep⟩ := @Represents.dispatcherStep nrt rt conn h hload calloc alloc
    refine ⟨nrt', ?_, hrep⟩
    rw [hstep]
    unfold NodeRuntime.Action.erase
    dsimp only
    split <;> rfl
  | dbWorker es => exact h.dbWorkerStep hload es

theorem Represents.dispatchTask (h : nrt.Represents rt) (hload : rt.load + 1 < 2 ^ 31)
    (message : Message) (alloc : Option Addr)
    : ∃ nrt',
        nrt.dispatchTask message alloc =
          some (nrt', (rt.dispatchTask message (nrt.allocated message alloc)).2) ∧
        nrt'.Represents (rt.dispatchTask message (nrt.allocated message alloc)).1 := by
  unfold Runtime.load at hload
  unfold NodeRuntime.dispatchTask Runtime.dispatchTask NodeRuntime.allocated
  cases message with
  | db task =>
    have hlength := length_pushQueue_le rt.dbQueue task (malloc nrt.dbQueue.nodes alloc).isSome
    obtain ⟨q, hpush, hrep⟩ := queuePush_pushQueue h.dbQueue task alloc (by omega)
    refine ⟨{ nrt with dbQueue := q }, ?_, { h with dbQueue := hrep }⟩
    dsimp only
    rw [hpush]
    cases (pushQueue rt.dbQueue task (malloc nrt.dbQueue.nodes alloc).isSome).2 <;> rfl
  | worker task =>
    have hlength := length_pushQueue_le rt.requestQueue task (malloc nrt.requestQueue.nodes alloc).isSome
    obtain ⟨q, hpush, hrep⟩ := queuePush_pushQueue h.requestQueue task alloc (by omega)
    refine ⟨{ nrt with requestQueue := q }, ?_, { h with requestQueue := hrep }⟩
    dsimp only
    rw [hpush]
    cases (pushQueue rt.requestQueue task (malloc nrt.requestQueue.nodes alloc).isSome).2 <;> rfl

theorem represents_createRuntime {n : Int} (hnodes : createRuntime n = some nrt)
    (h : HttpRuntime.createRuntime n = some rt) : nrt.Represents rt := by
  unfold createRuntime at hnodes
  unfold HttpRuntime.createRuntime at h
  split at hnodes
  . cases hnodes
  . next hpos =>
    rw [if_neg hpos] at h
    cases hnodes
    cases h
    exact {
      requestQueue := createQueue_represents
      responseQueue := createQueue_represents
      dbQueue := createQueue_represents
      workers := rfl
      dispatcher := rfl
      dbWorker := rfl
      saved := rfl
    }

/-- No node of the three queues is left. -/
def Freed (nrt : NodeRuntime) : Prop :=
  ∀ a, nrt.requestQueue.nodes a = none ∧ nrt.responseQueue.nodes a = none ∧ nrt.dbQueue.nodes a = none

theorem Represents.destroyQueues (h : nrt.Represents rt)
    : ∃ nrt', nrt.destroyQueues = some nrt' ∧ nrt'.SameThreads rt ∧ nrt'.Freed := by
  obtain ⟨requestQueue, hrequest, hrequests⟩ := destroyQueue_of_represents h.requestQueue
  obtain ⟨responseQueue, hresponse, hresponses⟩ := destroyQueue_of_represents h.responseQueue
  obtain ⟨dbQueue, hdb, hdbs⟩ := destroyQueue_of_represents h.dbQueue
  have hthreads := h.toSameThreads
  refine ⟨{ nrt with
    requestQueue := requestQueue, responseQueue := responseQueue, dbQueue := dbQueue }, ?_,
    ⟨hthreads.workers, hthreads.dispatcher, hthreads.dbWorker, hthreads.saved⟩,
    fun a => ⟨hrequests a, hresponses a, hdbs a⟩⟩
  unfold NodeRuntime.destroyQueues
  rw [hrequest, hresponse, hdb]
  rfl

theorem Represents.destroyStart (h : nrt.Represents rt)
    : nrt.destroyStart.1.Represents rt.destroyStart.1 where
  toSameThreads := ⟨h.workers, h.dispatcher, h.dbWorker, h.saved⟩
  requestQueue := queueShutdown_refines h.requestQueue
  responseQueue := h.responseQueue
  dbQueue := h.dbQueue

-- Once `destroy_runtime` returned, no thread touches a queue.
theorem SameThreads.step_of_ended (h : nrt.SameThreads rt) (hended : rt.Ended .returned)
    (act : NodeRuntime.Action)
    : nrt.step conn act = some (nrt, conn) ∧ rt.step conn (act.erase nrt) = (rt, conn) := by
  cases act with
  | worker i env alloc =>
    unfold NodeRuntime.step NodeRuntime.workerStep NodeRuntime.Action.erase Runtime.step Runtime.workerStep
    dsimp only
    rw [h.workers]
    cases hw : rt.workers[i]? with
    | none => exact ⟨rfl, rfl⟩
    | some w =>
      have hexited : rt.exited (.worker i) = true := by
        apply hended (.worker i) rfl
        intro j hj
        cases hj
        exact (List.getElem?_eq_some_iff.mp hw).1
      have hw' : rt.workers[i]? = some .exited := of_decide_eq_true hexited
      rw [hw, Option.some.injEq] at hw'
      rw [hw']
      exact ⟨rfl, rfl⟩
  | dispatcher calloc alloc =>
    have hexited : rt.exited .dispatcher = true := hended .dispatcher rfl (by simp)
    have hd : rt.dispatcher = .exited := of_decide_eq_true hexited
    unfold NodeRuntime.step NodeRuntime.dispatcherStep NodeRuntime.Action.erase
    rw [h.dispatcher, hd]
    unfold Runtime.step Runtime.dispatcherStep
    dsimp only
    rw [hd]
    exact ⟨rfl, rfl⟩
  | dbWorker es =>
    have hexited : rt.exited .dbWorker = true := hended .dbWorker rfl (by simp)
    have hd : rt.dbWorker = .exited := of_decide_eq_true hexited
    unfold NodeRuntime.step NodeRuntime.dbWorkerStep NodeRuntime.Action.erase
    unfold Runtime.step Runtime.dbWorkerStep
    rw [h.dbWorker, hd]
    exact ⟨rfl, rfl⟩

/-- As `Represents`, until `destroy_runtime` has returned. -/
structure RepresentsAt (phase : Option DestroyPhase) (nrt : NodeRuntime) (rt : Runtime) : Prop where
  threads : nrt.SameThreads rt
  live : phase ≠ some .returned → nrt.Represents rt
  freed : phase = some .returned → nrt.Freed

theorem Represents.at (h : nrt.Represents rt) {phase : Option DestroyPhase} (hphase : phase ≠ some .returned)
    : nrt.RepresentsAt phase rt where
  threads := h.toSameThreads
  live := fun _ => h
  freed := fun hreturned => absurd hreturned hphase

theorem RepresentsAt.destroyStep {phase : DestroyPhase} (h : nrt.RepresentsAt (some phase) rt)
    : ∃ nrt', nrt.destroyStep phase = some (nrt', (rt.destroyStep phase).2) ∧
        nrt'.RepresentsAt (some (rt.destroyStep phase).2) (rt.destroyStep phase).1 := by
  unfold NodeRuntime.destroyStep Runtime.destroyStep
  cases phase with
  | joinWorkers i =>
    have hrep := h.live (by simp)
    dsimp only
    rw [hrep.workers]
    split
    . split
      . exact ⟨nrt, rfl, hrep.at (by simp)⟩
      . exact ⟨nrt, rfl, hrep.at (by simp)⟩
    . refine ⟨_, rfl, Represents.at ?_ (by simp)⟩
      exact { hrep with workers := by rfl, responseQueue := queueShutdown_refines hrep.responseQueue }
  | joinDispatcher =>
    have hrep := h.live (by simp)
    dsimp only
    rw [hrep.dispatcher]
    split
    . refine ⟨_, rfl, Represents.at ?_ (by simp)⟩
      exact { hrep with dispatcher := by rfl, dbQueue := queueShutdown_refines hrep.dbQueue }
    . exact ⟨nrt, rfl, hrep.at (by simp)⟩
  | joinDbWorker =>
    have hrep := h.live (by simp)
    dsimp only
    rw [hrep.dbWorker]
    split
    . obtain ⟨nrt', hdestroy, hthreads, hfreed⟩ := hrep.destroyQueues
      rw [hdestroy]
      exact ⟨nrt', rfl, hthreads, fun hne => absurd rfl hne, fun _ => hfreed⟩
    . exact ⟨nrt, rfl, hrep.at (by simp)⟩
  | returned => exact ⟨nrt, rfl, h⟩

end NodeRuntime

namespace NodePipeline

/-- What the pipeline with abstract queues is told about the allocations. -/
def Action.erase (np : NodePipeline) (act : Action) : Pipeline.Action :=
  match act with
  | .dispatch req alloc =>
    .dispatch req (np.rt.allocated (.worker ⟨np.accepted.length, ⟨some req⟩⟩) alloc)
  | .dispatchDb task alloc => .dispatchDb task (np.rt.allocated (.db ⟨0, task⟩) alloc)
  | .destroy => .destroy
  | .runtime act => .runtime (act.erase np.rt)

def eraseRun (np : NodePipeline) (acts : List Action) : List Pipeline.Action :=
  match acts with
  | [] => []
  | act :: acts =>
    act.erase np :: (match np.step act with
      | some np => np.eraseRun acts
      | none => [])

def Action.isDispatch (act : Action) : Bool :=
  match act with
  | .dispatch _ _ | .dispatchDb _ _ => true
  | .destroy | .runtime _ => false

structure Represents (np : NodePipeline) (p : Pipeline) : Prop where
  conn : np.conn = p.conn
  accepted : np.accepted = p.accepted
  phase : np.phase = p.phase
  rt : np.rt.RepresentsAt p.phase p.rt
  ended : ∀ phase, p.phase = some phase → p.rt.Ended phase

variable {np : NodePipeline} {p : Pipeline}

theorem Represents.dispatch (h : np.Represents p) (hload : p.rt.load + 1 < 2 ^ 31) (req : Request)
    (alloc : Option Addr)
    : ∃ np', np.step (.dispatch req alloc) = some np' ∧
        np'.Represents (p.step (Action.erase np (.dispatch req alloc))) := by
  unfold NodePipeline.step Action.erase Pipeline.step
  dsimp only
  rw [h.phase]
  split
  . next hphase =>
    have hrep := h.rt.live (by simp [hphase])
    rw [h.accepted]
    obtain ⟨nrt', hdispatch, hrep'⟩ :=
      hrep.dispatchTask hload (.worker ⟨p.accepted.length, ⟨some req⟩⟩) alloc
    rw [hdispatch]
    refine ⟨_, rfl, { h with accepted := by rfl, phase := by rfl, rt := ?_, ended := ?_ }⟩
    . exact hrep'.at (by simp [hphase])
    . intro phase hsome
      rw [hphase] at hsome
      cases hsome
  . exact ⟨np, rfl, h⟩

theorem Represents.dispatchDb (h : np.Represents p) (hload : p.rt.load + 1 < 2 ^ 31) (task : DbTask)
    (alloc : Option Addr)
    : ∃ np', np.step (.dispatchDb task alloc) = some np' ∧
        np'.Represents (p.step (Action.erase np (.dispatchDb task alloc))) := by
  unfold NodePipeline.step Action.erase Pipeline.step
  dsimp only
  rw [h.phase]
  split
  . next hphase =>
    have hrep := h.rt.live (by simp [hphase])
    obtain ⟨nrt', hdispatch, hrep'⟩ := hrep.dispatchTask hload (.db ⟨0, task⟩) alloc
    rw [hdispatch]
    refine ⟨_, rfl, { h with phase := by rfl, rt := ?_, ended := ?_ }⟩
    . exact hrep'.at (by simp [hphase])
    . intro phase hsome
      rw [hphase] at hsome
      cases hsome
  . exact ⟨np, rfl, h⟩

theorem Represents.destroy (h : np.Represents p)
    : ∃ np', np.step .destroy = some np' ∧ np'.Represents (p.step .destroy) := by
  unfold NodePipeline.step Pipeline.step
  dsimp only
  rw [h.phase]
  cases hphase : p.phase with
  | none =>
    have hrep := (h.rt.live (by simp [hphase])).destroyStart
    refine ⟨_, rfl, { h with phase := by rfl, rt := ?_, ended := ?_ }⟩
    . exact hrep.at (by simp [Runtime.destroyStart])
    . intro phase hsome t ht _
      cases hsome
      have hjoined : Runtime.joinedBefore (.joinWorkers 0) t = true := ht
      cases t <;> simp [Runtime.joinedBefore] at hjoined
  | some phase =>
    have hat := h.rt
    rw [hphase] at hat
    obtain ⟨nrt', hdestroy, hat'⟩ := hat.destroyStep
    dsimp only
    rw [hdestroy]
    refine ⟨_, rfl, { h with phase := by rfl, rt := hat', ended := ?_ }⟩
    intro phase' hsome
    cases hsome
    exact (h.ended phase hphase).destroyStep

theorem Represents.runtime (h : np.Represents p) (hload : p.rt.load < 2 ^ 31) (act : NodeRuntime.Action)
    : ∃ np', np.step (.runtime act) = some np' ∧
        np'.Represents (p.step (Action.erase np (.runtime act))) := by
  unfold NodePipeline.step Action.erase Pipeline.step
  dsimp only
  rw [h.conn]
  by_cases hphase : p.phase = some .returned
  . have ⟨hnodes, hstep⟩ := @NodeRuntime.SameThreads.step_of_ended np.rt p.rt p.conn h.rt.threads
      (h.ended _ hphase) act
    rw [hnodes, hstep]
    exact ⟨_, rfl, { h with conn := by rfl, phase := h.phase }⟩
  . obtain ⟨nrt', hstep, hrep⟩ := @NodeRuntime.Represents.step np.rt p.rt p.conn (h.rt.live hphase) hload act
    rw [hstep]
    refine ⟨_, rfl, { h with conn := by rfl, rt := hrep.at hphase, ended := ?_ }⟩
    intro phase hsome
    exact (h.ended phase hsome).step _

theorem Represents.step (h : np.Represents p) (act : Action)
    (hload : p.rt.load + (if act.isDispatch then 1 else 0) < 2 ^ 31)
    : ∃ np', np.step act = some np' ∧ np'.Represents (p.step (act.erase np)) := by
  cases act with
  | dispatch req alloc => exact h.dispatch hload req alloc
  | dispatchDb task alloc => exact h.dispatchDb hload task alloc
  | destroy => exact h.destroy
  | runtime act => exact h.runtime hload act

theorem load_step_le (act : Action)
    : (p.step (act.erase np)).rt.load ≤ p.rt.load + (if act.isDispatch then 1 else 0) := by
  unfold Pipeline.step Action.erase
  cases act with
  | dispatch req alloc =>
    dsimp only
    split
    . apply Runtime.load_dispatchTask_le
    . apply Nat.le_add_right
  | dispatchDb task alloc =>
    dsimp only
    split
    . apply Runtime.load_dispatchTask_le
    . apply Nat.le_add_right
  | destroy =>
    dsimp only
    split
    . exact Nat.le_refl _
    . exact Nat.le_of_eq (Runtime.load_destroyStep _)
  | runtime act => exact Runtime.load_step_le _

theorem Represents.exec (h : np.Represents p) (acts : List Action)
    (hload : p.rt.load + acts.countP Action.isDispatch < 2 ^ 31)
    : ∃ np', np.exec acts = some np' ∧ np'.Represents (p.exec (np.eraseRun acts)) := by
  induction acts generalizing np p with
  | nil => exact ⟨np, rfl, h⟩
  | cons act acts ih =>
    rw [List.countP_cons] at hload
    obtain ⟨np', hstep, hrep⟩ := h.step act (by omega)
    have hle := @load_step_le np p act
    obtain ⟨np'', hexec, hrep'⟩ := ih hrep (by omega)
    refine ⟨np'', ?_, ?_⟩
    . unfold NodePipeline.exec
      rw [hstep]
      exact hexec
    . unfold eraseRun
      rw [hstep]
      exact hrep'

theorem load_createRuntime {n : Int} {rt : Runtime} (h : createRuntime n = some rt) : rt.load = 0 := by
  unfold createRuntime at h
  split at h
  . cases h
  . cases h
    simp [Runtime.load, Fifo.empty, WorkerState.load, DispatcherState.load]

/--
On linked lists, as long as fewer than 2^31 tasks are dispatched, no run of the owner and the threads
dereferences a null or freed node, it does what the run with abstract queues does, and when
`destroy_runtime` has returned every node is freed.
-/
theorem nodes_refine {n : Int} {nrt : NodeRuntime} {rt : Runtime} (conn : Conn)
    (hnodes : NodeRuntime.createRuntime n = some nrt) (hcreate : createRuntime n = some rt)
    (acts : List Action) (hcount : acts.countP Action.isDispatch < 2 ^ 31)
    : ∃ np, (start nrt conn).exec acts = some np ∧
        np.Represents ((Pipeline.start rt conn).exec ((start nrt conn).eraseRun acts)) := by
  have hrep := NodeRuntime.represents_createRuntime hnodes hcreate
  have hstart : (start nrt conn).Represents (Pipeline.start rt conn) := {
    conn := rfl
    accepted := rfl
    phase := rfl
    rt := hrep.at (by simp [Pipeline.start])
    ended := fun _ hsome => by cases hsome
  }
  have hload : (Pipeline.start rt conn).rt.load = 0 := load_createRuntime hcreate
  exact hstart.exec acts (by omega)

def twoNodeWorkers : NodeRuntime where
  requestQueue := createQueue
  responseQueue := createQueue
  dbQueue := createQueue
  workers := [.waiting, .waiting]
  dispatcher := .waiting
  dbWorker := .waiting
  saved := []

-- The second task waits behind the first one and is still in the list when the owner starts to destroy.
def nodeRun : List Action :=
  let req := { postRequest with id := 1 }
  let ok := TransferEnv.ok [.body [104] true] 200
  [.dispatch req (some 0), .dispatch req (some 0), .dispatch req (some 1), .dispatchDb .getNextRequest none,
    .runtime (.worker 0 ok none), .runtime (.worker 0 ok none), .runtime (.worker 0 ok (some 7)), .destroy,
    .runtime (.worker 0 ok none), .runtime (.worker 0 ok none), .runtime (.worker 0 ok (some 8)),
    .runtime (.worker 0 ok none), .runtime (.worker 1 ok none), .destroy, .destroy, .destroy,
    .runtime (.dispatcher true none), .runtime (.dispatcher true (some 3)), .runtime (.dispatcher false none),
    .runtime (.dispatcher true none), .destroy, .runtime (.dbWorker []), .runtime (.dbWorker []),
    .runtime (.dbWorker []), .destroy, .runtime (.worker 1 ok (some 2))]

theorem nodes_refine_nodeRun
    : ∃ np, (start twoNodeWorkers savedPost).exec nodeRun = some np ∧ np.rt.Freed ∧
        np.conn.db.responses.rows.length = 1 := by
  obtain ⟨np, hexec, hrep⟩ := nodes_refine savedPost (n := 2) rfl rfl nodeRun (by decide)
  refine ⟨np, hexec, hrep.rt.freed ?_, ?_⟩
  . decide +kernel
  . rw [hrep.conn]
    decide +kernel

end NodePipeline

end Refines

end HttpRuntime
