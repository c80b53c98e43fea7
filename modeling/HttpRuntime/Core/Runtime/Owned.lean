import HttpRuntime.Core.Runtime.Shutdown
import HttpRuntime.Core.Worker.Cleanup
import HttpRuntime.Lib.Ledger

/-!
This module contains what a runtime owns: the task and the request of everything it was given, and
what the threads make of them on the way to the DB worker. Each step of a thread acquires some of it,
releases some of it and hands the rest on.
-/

open Lib

namespace HttpRuntime

abbrev Owned := Ticketed Resource

def ownedBy (ticket : Nat) (resources : List Resource) : List Owned :=
  resources.map (fun resource => ⟨ticket, resource⟩)

-- What the round of a task may still acquire.
def roundResources : List Resource := [.response, .curl, .headerList]

def ownedByTask (task : Ticketed WorkerTask) : List Owned :=
  ownedBy task.ticket (taskResources task.item.data)

def ownedByResponse (resp : Ticketed Response) : List Owned := ownedBy resp.ticket [.response]

-- The dispatcher fills the DB queue with responses only.
def ownedByDbTask (task : Ticketed DbTask) : List Owned :=
  match task.item with
  | .saveResponse (some _) => ownedBy task.ticket [.response]
  | _ => []

def creditOfTask (task : Ticketed WorkerTask) : List Owned := ownedBy task.ticket roundResources

section Count

theorem count_single (i : Nat) (resource : Resource) (x : Owned)
    : [(⟨i, resource⟩ : Owned)].count x = if x.ticket = i ∧ x.item = resource then 1 else 0 := by
  obtain ⟨j, resource'⟩ := x
  rw [List.count_singleton]
  grind

theorem count_ownedByTask (i : Nat) (req : Request) (x : Owned)
    : (ownedByTask ⟨i, ⟨some req⟩⟩).count x =
        [(⟨i, .request⟩ : Owned)].count x + [(⟨i, .task⟩ : Owned)].count x := by
  rw [← List.count_append]
  rfl

theorem count_creditOfTask (i : Nat) (task : WorkerTask) (x : Owned)
    : (creditOfTask ⟨i, task⟩).count x = [(⟨i, .response⟩ : Owned)].count x +
        [(⟨i, .curl⟩ : Owned)].count x + [(⟨i, .headerList⟩ : Owned)].count x := by
  rw [← List.count_append, ← List.count_append]
  rfl

end Count

namespace WorkerState

-- `cleanup` is what the round frees after the push.
def owned (w : WorkerState) (cleanup : List Resource) : List Owned :=
  match w with
  | .waiting => []
  | .executing task => ownedByTask task
  | .pushing resp => ownedByResponse resp ++ ownedBy resp.ticket cleanup
  | .exited => []

def credit (w : WorkerState) : List Owned :=
  match w with
  | .executing task => creditOfTask task
  | _ => []

end WorkerState

def DispatcherState.owned (d : DispatcherState) : List Owned :=
  match d with
  | .waiting => []
  | .pushing task => ownedByDbTask task
  | .exited => []

def DbWorkerState.owned (d : DbWorkerState) : List Owned :=
  match d with
  | .waiting => []
  | .executing task => ownedByDbTask task
  | .exited => []

namespace Runtime

/-- Everything in the runtime, where `cleanup i` is what worker `i` frees at the end of its round. -/
def owned (rt : Runtime) (cleanup : Nat → List Resource) : List Owned :=
  rt.requestQueue.items.flatMap ownedByTask ++
    rt.workers.zipIdx.flatMap (fun w => w.1.owned (cleanup w.2)) ++
    rt.responseQueue.items.flatMap ownedByResponse ++
    rt.dispatcher.owned ++
    rt.dbQueue.items.flatMap ownedByDbTask ++
    rt.dbWorker.owned

/-- What the rounds of the tasks that were not executed yet may acquire. -/
def credit (rt : Runtime) : List Owned :=
  rt.requestQueue.items.flatMap creditOfTask ++ rt.workers.flatMap WorkerState.credit

def acquires (rt : Runtime) (act : Action) : List Owned :=
  match act with
  | .worker i env _ =>
    match rt.workers[i]? with
    | some (.executing task) => ownedBy task.ticket (httpWorkerRound env task.item.data).acquired
    | _ => []
  | .dispatcher _ => []
  | .dbWorker _ => []

def releases (rt : Runtime) (conn : Conn) (cleanup : Nat → List Resource) (act : Action) : List Owned :=
  match act with
  | .worker i env alloc =>
    match rt.workers[i]? with
    | some (.executing task) =>
      let round := httpWorkerRound env task.item.data
      ownedBy task.ticket (if round.pushes then round.released else round.released ++ round.cleanup)
    | some (.pushing resp) =>
      let freed := if (pushQueue rt.responseQueue resp alloc).2 then [] else ownedByResponse resp
      freed ++ ownedBy resp.ticket (cleanup i)
    | _ => []
  | .dispatcher alloc =>
    match rt.dispatcher with
    | .waiting =>
      match rt.responseQueue.pop.2 with
      | .item resp => if alloc then [] else ownedByResponse resp
      | _ => []
    | .pushing task => if (pushQueue rt.dbQueue task alloc).2 then [] else ownedByDbTask task
    | .exited => []
  | .dbWorker es =>
    match rt.dbWorker with
    | .executing task => if rt.crashes conn es then [] else ownedByDbTask task
    | _ => []

-- What a step leaves without an owner.
def loses (rt : Runtime) (act : Action) : List Owned :=
  match act with
  | .worker i env _ =>
    match rt.workers[i]? with
    | some (.executing task) => ownedBy task.ticket (lostHeaderList env task.item.data)
    | _ => []
  | .dispatcher _ => []
  | .dbWorker _ => []

def cleanupAfter (rt : Runtime) (cleanup : Nat → List Resource) (act : Action) : Nat → List Resource :=
  match act with
  | .worker i env _ =>
    match rt.workers[i]? with
    | some (.executing task) => Function.update cleanup i (httpWorkerRound env task.item.data).cleanup
    | _ => cleanup
  | .dispatcher _ => cleanup
  | .dbWorker _ => cleanup

section Count

variable {rt : Runtime} {cleanup : Nat → List Resource} {x : Owned}

theorem count_ownedBy_append (ticket : Nat) (rs rs' : List Resource)
    : (ownedBy ticket (rs ++ rs')).count x = (ownedBy ticket rs).count x + (ownedBy ticket rs').count x := by
  unfold ownedBy
  rw [List.map_append, List.count_append]

theorem count_owned (rt : Runtime) (cleanup : Nat → List Resource) (x : Owned)
    : (rt.owned cleanup).count x =
        (rt.requestQueue.items.flatMap ownedByTask).count x +
          (rt.workers.zipIdx.flatMap (fun w => w.1.owned (cleanup w.2))).count x +
          (rt.responseQueue.items.flatMap ownedByResponse).count x +
          rt.dispatcher.owned.count x +
          (rt.dbQueue.items.flatMap ownedByDbTask).count x +
          rt.dbWorker.owned.count x := by
  unfold owned
  simp only [List.count_append]

theorem count_credit (rt : Runtime) (x : Owned)
    : rt.credit.count x =
        (rt.requestQueue.items.flatMap creditOfTask).count x +
          (rt.workers.flatMap WorkerState.credit).count x := by
  unfold credit
  rw [List.count_append]

theorem owned_createRuntime {n : Int} (h : createRuntime n = some rt) (cleanup : Nat → List Resource)
    : rt.owned cleanup = [] ∧ rt.credit = [] ∧ rt.workers ≠ [] ∧ rt.requestQueue.closed = false := by
  unfold createRuntime at h
  split at h
  . cases h
  . next hpos =>
    cases h
    refine ⟨?_, ?_, ?_, rfl⟩
    . have hnone : ((List.replicate n.toNat WorkerState.waiting).zipIdx).flatMap
          (fun w => w.1.owned (cleanup w.2)) = [] := by
        rw [List.flatMap_eq_nil_iff]
        rintro ⟨w, i⟩ hw
        rw [List.eq_of_mem_replicate (List.fst_mem_of_mem_zipIdx hw)]
        rfl
      simp [owned, Fifo.empty, hnone, DispatcherState.owned, DbWorkerState.owned]
    . have hnone : (List.replicate n.toNat WorkerState.waiting).flatMap WorkerState.credit = [] := by
        rw [List.flatMap_eq_nil_iff]
        intro w hw
        rw [List.eq_of_mem_replicate hw]
        rfl
      simp [credit, Fifo.empty, hnone]
    . dsimp only
      intro hnil
      rw [List.replicate_eq_nil_iff] at hnil
      omega

/-- A runtime that has come to rest owns nothing. -/
theorem Orderly.owned_nil (h : rt.Orderly) (hworkers : rt.workers ≠ []) (hended : rt.dbWorker = .exited)
    (cleanup : Nat → List Resource) : rt.owned cleanup = [] := by
  have ⟨hall, hdispatcher, hrequest, hresponse, hdb⟩ := h.ended hworkers hended
  have hnone : rt.workers.zipIdx.flatMap (fun w => w.1.owned (cleanup w.2)) = [] := by
    rw [List.flatMap_eq_nil_iff]
    rintro ⟨w, i⟩ hw
    rw [hall w (List.fst_mem_of_mem_zipIdx hw)]
    rfl
  unfold owned
  rw [hrequest, hresponse, hdb, hdispatcher, hended, hnone]
  rfl

theorem count_round (env : TransferEnv) (data : Option Request) (ticket : Nat) (x : Owned)
    : (ownedBy ticket (httpWorkerRound env data).acquired).count x +
          (ownedBy ticket (taskResources data)).count x =
        (ownedBy ticket (httpWorkerRound env data).released).count x +
          (ownedBy ticket (httpWorkerRound env data).pushed).count x +
          (ownedBy ticket (httpWorkerRound env data).cleanup).count x +
          (ownedBy ticket (lostHeaderList env data)).count x := by
  have hperm := (httpWorkerRound_perm env data).map (fun resource => (⟨ticket, resource⟩ : Owned))
  have hcount := hperm.count_eq x
  simp only [List.map_append, List.count_append] at hcount
  exact hcount

end Count

section Step

variable {rt : Runtime} {conn : Conn} {cleanup : Nat → List Resource} {x : Owned}

theorem count_workers_set {i : Nat} {w : WorkerState} (hw : rt.workers[i]? = some w) (w' : WorkerState)
    {cleanup' : Nat → List Resource} (hsame : ∀ j, j ≠ i → cleanup' j = cleanup j)
    : ((rt.workers.set i w').zipIdx.flatMap (fun w => w.1.owned (cleanup' w.2))).count x +
          (w.owned (cleanup i)).count x =
        (rt.workers.zipIdx.flatMap (fun w => w.1.owned (cleanup w.2))).count x +
          (w'.owned (cleanup' i)).count x := by
  have hset := @count_flatMap_zipIdx_set WorkerState Owned _ x (fun j w => w.owned (cleanup j))
    (fun j w => w.owned (cleanup' j)) rt.workers i 0 w w' hw
  rw [Nat.zero_add] at hset
  apply hset
  intro j hj
  rw [hsame j hj]

theorem count_owned_workerStep (i : Nat) (env : TransferEnv) (alloc : Bool)
    : ((rt.workerStep i env alloc).owned (rt.cleanupAfter cleanup (.worker i env alloc))).count x +
          (rt.releases conn cleanup (.worker i env alloc)).count x +
          (rt.loses (.worker i env alloc)).count x =
        (rt.owned cleanup).count x + (rt.acquires (.worker i env alloc)).count x := by
  rw [count_owned, count_owned]
  unfold workerStep releases loses acquires cleanupAfter
  dsimp only
  cases hworker : rt.workers[i]? with
  | none => simp
  | some w =>
    cases w with
    | waiting =>
      have hset (w' : WorkerState) := @count_workers_set rt cleanup x i _ hworker w' cleanup (fun _ _ => rfl)
      dsimp only
      rcases pop_cases rt.requestQueue with ⟨task, tasks, hitems, hpop⟩ | ⟨_, _, hpop⟩ | ⟨_, _, hpop⟩
      . rw [hpop, hitems]
        have := hset (.executing task)
        simp only [WorkerState.owned, List.flatMap_cons, List.count_append, List.count_nil] at this ⊢
        omega
      . rw [hpop]
        have := hset .exited
        simp only [WorkerState.owned, List.count_nil] at this ⊢
        omega
      . rw [hpop]
        simp
    | executing task =>
      have hround := count_round env task.item.data task.ticket x
      have hpushes := httpWorkerRound_pushes env task.item.data
      have hset (w' : WorkerState) := @count_workers_set rt cleanup x i _ hworker w'
        (Function.update cleanup i (httpWorkerRound env task.item.data).cleanup)
        (fun j hj => Function.update_of_ne hj _ cleanup)
      unfold WorkerRound.pushed at hround
      dsimp only
      cases hresp : httpWorkerTask env task.item.data with
      | some resp =>
        rw [hresp, Option.isSome_some] at hpushes
        have := hset (.pushing ⟨task.ticket, resp⟩)
        rw [if_pos hpushes] at hround ⊢
        simp only [WorkerState.owned, ownedByTask, ownedByResponse, List.count_append,
          Function.update_self] at this ⊢
        omega
      | none =>
        rw [hresp, Option.isSome_none] at hpushes
        have := hset .waiting
        rw [if_neg (by rw [hpushes]; simp)] at hround ⊢
        have hnil : (ownedBy task.ticket []).count x = 0 := rfl
        simp only [WorkerState.owned, ownedByTask, count_ownedBy_append, List.count_nil] at this ⊢
        omega
    | pushing resp =>
      have := @count_workers_set rt cleanup x i _ hworker .waiting cleanup (fun _ _ => rfl)
      dsimp only
      rcases pushQueue_cases rt.responseQueue resp alloc with ⟨hpush, _⟩ | ⟨hpush, _⟩
      . rw [hpush]
        simp only [WorkerState.owned, List.flatMap_append, List.flatMap_cons, List.flatMap_nil,
          List.append_nil, List.count_append, List.count_nil, if_true] at this ⊢
        omega
      . rw [hpush]
        simp only [WorkerState.owned, List.count_append, List.count_nil, Bool.false_eq_true,
          if_false] at this ⊢
        omega
    | exited => simp

theorem count_owned_dispatcherStep (alloc : Bool)
    : ((rt.dispatcherStep alloc).owned cleanup).count x +
          (rt.releases conn cleanup (.dispatcher alloc)).count x = (rt.owned cleanup).count x := by
  rw [count_owned, count_owned]
  unfold dispatcherStep releases
  dsimp only
  cases hdispatcher : rt.dispatcher with
  | waiting =>
    dsimp only
    rcases pop_cases rt.responseQueue with ⟨resp, resps, hitems, hpop⟩ | ⟨_, _, hpop⟩ | ⟨_, _, hpop⟩
    . rw [hpop, hitems]
      dsimp only
      rw [List.flatMap_cons, List.count_append]
      cases alloc with
      | true =>
        have hresp : (DispatcherState.pushing ⟨resp.ticket, .saveResponse (some resp.item)⟩).owned =
            ownedByResponse resp := rfl
        rw [if_pos rfl, if_pos rfl, hresp]
        simp only [DispatcherState.owned, List.count_nil]
        omega
      | false =>
        simp only [DispatcherState.owned, List.count_nil, Bool.false_eq_true, if_false]
        omega
    . rw [hpop]
      simp only [DispatcherState.owned, List.count_nil]
      omega
    . rw [hpop]
      simp only [hdispatcher, DispatcherState.owned, List.count_nil]
      omega
  | pushing task =>
    dsimp only
    rcases pushQueue_cases rt.dbQueue task alloc with ⟨hpush, _⟩ | ⟨hpush, _⟩
    . rw [hpush]
      simp only [DispatcherState.owned, List.flatMap_append, List.flatMap_cons, List.flatMap_nil,
        List.append_nil, List.count_append, List.count_nil, if_true]
      omega
    . rw [hpush]
      simp only [DispatcherState.owned, List.count_nil, Bool.false_eq_true, if_false]
      omega
  | exited => simp [hdispatcher]

theorem count_owned_dbWorkerStep (es : List CallEnv)
    : ((rt.dbWorkerStep conn es).1.owned cleanup).count x +
          (rt.releases conn cleanup (.dbWorker es)).count x = (rt.owned cleanup).count x := by
  rw [count_owned, count_owned]
  unfold dbWorkerStep releases
  dsimp only
  cases hworker : rt.dbWorker with
  | waiting =>
    dsimp only
    rcases pop_cases rt.dbQueue with ⟨task, tasks, hitems, hpop⟩ | ⟨_, _, hpop⟩ | ⟨_, _, hpop⟩
    . rw [hpop, hitems]
      simp only [DbWorkerState.owned, List.flatMap_cons, List.count_append, List.count_nil]
      omega
    . rw [hpop]
      simp only [DbWorkerState.owned, List.count_nil]
    . rw [hpop]
      simp only [hworker, DbWorkerState.owned, List.count_nil]
  | executing task =>
    simp only [crashes, hworker]
    split <;> [skip; split]
    . next hitem =>
      simp [hitem, dbTaskProg, DbWorkerState.owned]
    . next hrun =>
      simp [hrun, DbWorkerState.owned]
    . next hrun =>
      simp [hrun, hworker]
  | exited => simp [hworker]

theorem dispatchTask_eq_success_iff (h : rt.requestQueue.closed = false) (task : Ticketed WorkerTask)
    (alloc : Bool) : (rt.dispatchTask (.worker task) alloc).2 = orchestratorSuccess ↔ alloc = true := by
  unfold dispatchTask pushQueue
  dsimp only
  cases alloc with
  | false => simp [orchestratorSuccess, orchestratorError]
  | true => simp [Fifo.push_of_open h]

theorem count_owned_dispatchTask {task : Ticketed WorkerTask} {alloc : Bool}
    (h : (rt.dispatchTask (.worker task) alloc).2 = orchestratorSuccess)
    : ((rt.dispatchTask (.worker task) alloc).1.owned cleanup).count x =
          (rt.owned cleanup).count x + (ownedByTask task).count x ∧
        (rt.dispatchTask (.worker task) alloc).1.credit.count x =
          rt.credit.count x + (creditOfTask task).count x := by
  rw [count_owned, count_owned, count_credit, count_credit]
  unfold dispatchTask at h ⊢
  dsimp only at h ⊢
  rcases pushQueue_cases rt.requestQueue task alloc with ⟨hpush, _⟩ | ⟨hpush, _⟩
  . rw [hpush]
    simp only [List.flatMap_append, List.flatMap_cons, List.flatMap_nil, List.append_nil,
      List.count_append]
    omega
  . rw [hpush] at h
    cases h

theorem owned_destroyStep (rt : Runtime) (cleanup : Nat → List Resource) (phase : DestroyPhase)
    : (rt.destroyStep phase).1.owned cleanup = rt.owned cleanup ∧
        (rt.destroyStep phase).1.credit = rt.credit := by
  unfold Runtime.destroyStep
  split <;> [split <;> [split; skip]; split; split; skip]
  all_goals exact ⟨rfl, rfl⟩

/-- A step keeps what is owned, up to what it acquires, releases and loses. -/
theorem count_owned_step (act : Action)
    : ((rt.step conn act).1.owned (rt.cleanupAfter cleanup act)).count x +
          (rt.releases conn cleanup act).count x + (rt.loses act).count x =
        (rt.owned cleanup).count x + (rt.acquires act).count x := by
  cases act with
  | worker i env alloc => exact count_owned_workerStep i env alloc
  | dispatcher alloc => exact count_owned_dispatcherStep alloc
  | dbWorker es => exact count_owned_dbWorkerStep es

/-- What a step acquires is paid for by the credit of the tasks. -/
theorem count_credit_step (act : Action)
    : (rt.step conn act).1.credit.count x + (rt.acquires act).count x ≤ rt.credit.count x := by
  rw [count_credit, count_credit]
  cases act with
  | worker i env alloc =>
    unfold step workerStep acquires
    dsimp only
    cases hworker : rt.workers[i]? with
    | none => simp
    | some w =>
      have hset (w' : WorkerState) := @count_flatMap_set _ _ _ x WorkerState.credit _ _ _ hworker w'
      cases w with
      | waiting =>
        dsimp only
        rcases pop_cases rt.requestQueue with ⟨task, tasks, hitems, hpop⟩ | ⟨_, _, hpop⟩ | ⟨_, _, hpop⟩
        . rw [hpop, hitems]
          have := hset (.executing task)
          simp only [WorkerState.credit, List.flatMap_cons, List.count_append, List.count_nil] at this ⊢
          omega
        . rw [hpop]
          have := hset .exited
          simp only [WorkerState.credit, List.count_nil] at this ⊢
          omega
        . rw [hpop]
          simp
      | executing task =>
        have hacquired : (ownedBy task.ticket (httpWorkerRound env task.item.data).acquired).count x ≤
            (ownedBy task.ticket roundResources).count x :=
          ((httpWorkerRound_acquired env task.item.data).map _).count_le x
        dsimp only
        split
        . next resp _ =>
          have := hset (.pushing ⟨task.ticket, resp⟩)
          simp only [WorkerState.credit, creditOfTask, List.count_nil] at this ⊢
          omega
        . have := hset .waiting
          simp only [WorkerState.credit, creditOfTask, List.count_nil] at this ⊢
          omega
      | pushing resp =>
        have := hset .waiting
        simp only [WorkerState.credit, List.count_nil] at this ⊢
        omega
      | exited => simp
  | dispatcher alloc =>
    unfold step acquires
    dsimp only
    rw [dispatcherStep_frame]
    simp
  | dbWorker es =>
    unfold step acquires
    dsimp only
    rw [dbWorkerStep_frame]
    simp

end Step

end Runtime
end HttpRuntime
