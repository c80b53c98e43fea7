import HttpRuntime.Core.Runtime.Basic

/-!
This module contains what is left of the state of a runtime without the ids of requests and
responses, and that the threads move on it as they do with them.
-/

open Lib

namespace HttpRuntime

def Request.erased (req : Request) : Request := { req with id := 0 }

def Response.erased (resp : Response) : Response := { resp with id := 0, requestId := 0 }

section Worker

theorem writeCallback_erased (r : Response) (chunk : Bytes) (alloc : Bool)
    : writeCallback r.erased chunk alloc =
        ((writeCallback r chunk alloc).1.erased, (writeCallback r chunk alloc).2) := by
  by_cases hgrow : r.bodyLen + chunk.length > r.bodyCapacity
  . cases alloc <;> simp [writeCallback, Response.erased, hgrow]
  . simp [writeCallback, Response.erased, hgrow]

theorem headerCallback_erased (r : Response) (chunk : Bytes) (alloc : Bool)
    : headerCallback r.erased chunk alloc =
        ((headerCallback r chunk alloc).1.erased, (headerCallback r chunk alloc).2) := by
  by_cases hgrow : r.headersLen + chunk.length + 1 > r.headersCapacity
  . cases alloc <;> simp [headerCallback, Response.erased, hgrow]
  . simp [headerCallback, Response.erased, hgrow]

theorem runEvents_erased (r : Response) (events : List TransferEvent)
    : runEvents r.erased events = ((runEvents r events).1.erased, (runEvents r events).2) := by
  induction events generalizing r with
  | nil => rfl
  | cons event events ih =>
    cases event with
    | body chunk alloc =>
      unfold runEvents
      rw [writeCallback_erased]
      dsimp only
      split
      . rw [ih]
      . rfl
    | header chunk alloc =>
      unfold runEvents
      rw [headerCallback_erased]
      dsimp only
      split
      . rw [ih]
      . rfl

theorem httpWorkerTask_erased (env : TransferEnv) (data : Option Request)
    : httpWorkerTask env (data.map Request.erased) =
        (httpWorkerTask env data).map Response.erased := by
  cases data with
  | none => rfl
  | some req =>
    have hmethod : setCurlMethod env req.erased = setCurlMethod env req := rfl
    have hevents : runEvents { Response.zero with requestId := 0 } env.events =
        ((runEvents { Response.zero with requestId := req.id } env.events).1.erased,
          (runEvents { Response.zero with requestId := req.id } env.events).2) :=
      runEvents_erased { Response.zero with requestId := req.id } env.events
    unfold httpWorkerTask easyPerform
    dsimp only [Option.map_some]
    rw [hmethod]
    simp only [apply_ite (Option.map Response.erased), Option.map_none, Option.map_some]
    dsimp only [Request.erased]
    simp only [hevents]
    rfl

end Worker

def Ticketed.map {α β : Type} (f : α → β) (x : Ticketed α) : Ticketed β := ⟨x.ticket, f x.item⟩

def WorkerTask.erased (task : WorkerTask) : WorkerTask := ⟨task.data.map Request.erased⟩

-- A run gives the DB worker responses only.
def DbTask.erased (task : DbTask) : DbTask :=
  match task with
  | .saveResponse resp => .saveResponse (resp.map Response.erased)
  | task => task

def WorkerState.erased (w : WorkerState) : WorkerState :=
  match w with
  | .waiting => .waiting
  | .executing task => .executing (task.map WorkerTask.erased)
  | .pushing resp => .pushing (resp.map Response.erased)
  | .exited => .exited

def DispatcherState.erased (d : DispatcherState) : DispatcherState :=
  match d with
  | .waiting => .waiting
  | .pushing task => .pushing (task.map DbTask.erased)
  | .exited => .exited

def DbWorkerState.erased (w : DbWorkerState) : DbWorkerState :=
  match w with
  | .waiting => .waiting
  | .executing task => .executing (task.map DbTask.erased)
  | .exited => .exited

theorem WorkerState.erased_eq_exited {w : WorkerState} : w.erased = .exited ↔ w = .exited := by
  cases w <;> simp [WorkerState.erased]

theorem DispatcherState.erased_eq_exited {d : DispatcherState} : d.erased = .exited ↔ d = .exited := by
  cases d <;> simp [DispatcherState.erased]

theorem DbWorkerState.erased_eq_exited {w : DbWorkerState} : w.erased = .exited ↔ w = .exited := by
  cases w <;> simp [DbWorkerState.erased]

theorem pushQueue_map {α β : Type} (f : α → β) (q : Fifo α) (x : α) (alloc : Bool)
    : pushQueue (q.map f) (f x) alloc = ((pushQueue q x alloc).1.map f, (pushQueue q x alloc).2) := by
  unfold pushQueue
  split
  . exact Fifo.push_map f q x
  . rfl

namespace Runtime

-- The record of what was stored is about ids only.
def erased (rt : Runtime) : Runtime where
  requestQueue := rt.requestQueue.map (Ticketed.map WorkerTask.erased)
  responseQueue := rt.responseQueue.map (Ticketed.map Response.erased)
  dbQueue := rt.dbQueue.map (Ticketed.map DbTask.erased)
  workers := rt.workers.map WorkerState.erased
  dispatcher := rt.dispatcher.erased
  dbWorker := rt.dbWorker.erased
  saved := []

theorem erased_dispatchTask (rt : Runtime) (task : Ticketed WorkerTask) (alloc : Bool)
    : rt.erased.dispatchTask (.worker (task.map WorkerTask.erased)) alloc =
        ((rt.dispatchTask (.worker task) alloc).1.erased, (rt.dispatchTask (.worker task) alloc).2) := by
  unfold dispatchTask
  dsimp only [erased]
  rw [pushQueue_map]

theorem erased_workerStep (rt : Runtime) (i : Nat) (env : TransferEnv) (alloc : Bool)
    : rt.erased.workerStep i env alloc = (rt.workerStep i env alloc).erased := by
  unfold workerStep
  have hworker : rt.erased.workers[i]? = (rt.workers[i]?).map WorkerState.erased := by
    unfold erased
    rw [List.getElem?_map]
  rw [hworker]
  cases rt.workers[i]? with
  | none => rfl
  | some w =>
    cases w with
    | waiting =>
      have hpop := Fifo.pop_map (Ticketed.map WorkerTask.erased) rt.requestQueue
      dsimp only [Option.map_some, WorkerState.erased, erased]
      rw [hpop]
      rcases rt.requestQueue.pop with ⟨q, p⟩
      cases p with
      | item task => simp [Fifo.Pop.map, WorkerState.erased]
      | closed => simp [Fifo.Pop.map, WorkerState.erased]
      | wait => rfl
    | executing task =>
      have htask := httpWorkerTask_erased env task.item.data
      dsimp only [Option.map_some, WorkerState.erased, Ticketed.map, WorkerTask.erased]
      rw [htask]
      cases httpWorkerTask env task.item.data with
      | none => simp [erased, WorkerState.erased]
      | some resp => simp [erased, WorkerState.erased, Ticketed.map]
    | pushing resp =>
      dsimp only [Option.map_some, WorkerState.erased, erased]
      rw [pushQueue_map]
      simp [WorkerState.erased]
    | exited => rfl

theorem erased_dispatcherStep (rt : Runtime) (alloc : Bool)
    : rt.erased.dispatcherStep alloc = (rt.dispatcherStep alloc).erased := by
  unfold dispatcherStep
  have hdispatcher : rt.erased.dispatcher = rt.dispatcher.erased := rfl
  rw [hdispatcher]
  cases rt.dispatcher with
  | waiting =>
    have hpop := Fifo.pop_map (Ticketed.map Response.erased) rt.responseQueue
    dsimp only [DispatcherState.erased, erased]
    rw [hpop]
    rcases rt.responseQueue.pop with ⟨q, p⟩
    cases p with
    | item resp => cases alloc <;> rfl
    | closed => rfl
    | wait => rfl
  | pushing task =>
    dsimp only [DispatcherState.erased, erased]
    rw [pushQueue_map]
  | exited => rfl

theorem erased_destroyStep (rt : Runtime) (phase : DestroyPhase)
    : rt.erased.destroyStep phase =
        ((rt.destroyStep phase).1.erased, (rt.destroyStep phase).2) := by
  cases phase with
  | joinWorkers i =>
    have hexited : rt.erased.workers[i]? = some .exited ↔ rt.workers[i]? = some .exited := by
      unfold erased
      rw [List.getElem?_map, Option.map_eq_some_iff]
      simp only [WorkerState.erased_eq_exited, exists_eq_right]
    have hlength : rt.erased.workers.length = rt.workers.length := List.length_map ..
    unfold destroyStep
    simp only [hexited, hlength]
    split
    . split <;> rfl
    . rfl
  | joinDispatcher =>
    have hexited : rt.erased.dispatcher = .exited ↔ rt.dispatcher = .exited :=
      DispatcherState.erased_eq_exited
    unfold destroyStep
    simp only [hexited]
    split <;> rfl
  | joinDbWorker =>
    have hexited : rt.erased.dbWorker = .exited ↔ rt.dbWorker = .exited :=
      DbWorkerState.erased_eq_exited
    unfold destroyStep
    simp only [hexited]
    split <;> rfl
  | returned => rfl

theorem erased_dbWorker_ne_executing {rt : Runtime} (h : ∀ task, rt.dbWorker ≠ .executing task)
    (task : Ticketed DbTask) : rt.erased.dbWorker ≠ .executing task := by
  unfold erased DbWorkerState.erased
  cases hworker : rt.dbWorker with
  | waiting => simp
  | executing task => exact absurd hworker (h task)
  | exited => simp

theorem dbWorkerStep_idle {rt : Runtime} (conn : Conn) (h : ∀ task, rt.dbWorker ≠ .executing task)
    (es : List CallEnv)
    : (rt.dbWorkerStep conn es).2 = conn ∧ (rt.dbWorkerStep conn es).1.saved = rt.saved := by
  unfold dbWorkerStep
  cases hworker : rt.dbWorker with
  | waiting =>
    dsimp only
    split <;> exact ⟨rfl, rfl⟩
  | executing task => exact absurd hworker (h task)
  | exited => exact ⟨rfl, rfl⟩

theorem erased_dbWorkerStep {rt : Runtime} (conn conn' : Conn)
    (h : ∀ task, rt.dbWorker ≠ .executing task) (es : List CallEnv)
    : (rt.erased.dbWorkerStep conn es).1 = (rt.dbWorkerStep conn' es).1.erased := by
  unfold dbWorkerStep
  have hdbWorker : rt.erased.dbWorker = rt.dbWorker.erased := rfl
  rw [hdbWorker]
  cases hworker : rt.dbWorker with
  | waiting =>
    have hpop := Fifo.pop_map (Ticketed.map DbTask.erased) rt.dbQueue
    dsimp only [DbWorkerState.erased, erased]
    rw [hpop]
    rcases rt.dbQueue.pop with ⟨q, p⟩
    cases p with
    | item task => rfl
    | closed => rfl
    | wait => simp [Fifo.Pop.map, hworker]
  | executing task => exact absurd hworker (h task)
  | exited => simp [DbWorkerState.erased, erased, hworker]

end Runtime

end HttpRuntime
