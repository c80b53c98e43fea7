import HttpRuntime.Core.DbManager.Basic
import HttpRuntime.Core.Worker
import HttpRuntime.Lib.Fifo

/-!
This module contains the runtime of `orchestrator.c` with the loops of its threads: the HTTP
workers, the dispatcher and the DB worker, the three queues between them, and the stages in which
`destroy_runtime` takes them down.

Each thread moves in steps between two uses of a shared object. A step that cannot be taken in the
current state leaves it as it is, like a thread that waits.
-/

open Lib

namespace HttpRuntime

/--
An item together with the number of the dispatched task it belongs to. The program does not read
the number. It stands for the identity of the task object.
-/
structure Ticketed (α : Type) where
  ticket : Nat
  item : α
  deriving DecidableEq, Repr

structure WorkerTask where
  data : Option Request
  deriving DecidableEq, Repr

structure UpdateStatusPayload where
  requestId : Int
  newStatusCode : Int
  deriving DecidableEq, Repr

inductive DbTask where
  | saveCollection (coll : Option Collection)
  | saveRequest (req : Option Request)
  | saveResponse (resp : Option Response)
  | updateStatus (payload : Option UpdateStatusPayload)
  | getNextRequest
  | shutdown
  deriving DecidableEq, Repr

inductive WorkerState where
  | waiting
  | executing (task : Ticketed WorkerTask)
  | pushing (resp : Ticketed Response)
  | exited
  deriving DecidableEq

inductive DispatcherState where
  | waiting
  | pushing (task : Ticketed DbTask)
  | exited
  deriving DecidableEq

inductive DbWorkerState where
  | waiting
  | executing (task : Ticketed DbTask)
  | exited
  deriving DecidableEq

structure SavedResponse where
  ticket : Nat
  requestId : Int
  rowId : Nat
  deriving DecidableEq, Repr

-- `saved` is a record of what the DB worker stored. The program does not keep it.
structure Runtime where
  requestQueue : Fifo (Ticketed WorkerTask)
  responseQueue : Fifo (Ticketed Response)
  dbQueue : Fifo (Ticketed DbTask)
  workers : List WorkerState
  dispatcher : DispatcherState
  dbWorker : DbWorkerState
  saved : List SavedResponse

inductive Message where
  | db (task : Ticketed DbTask)
  | worker (task : Ticketed WorkerTask)
  deriving DecidableEq

def orchestratorSuccess : Int := 1
def orchestratorError : Int := 0

def createRuntime (numHttpWorker : Int) : Option Runtime :=
  if numHttpWorker ≤ 0 then
    none
  else
    some {
      requestQueue := .empty
      responseQueue := .empty
      dbQueue := .empty
      workers := List.replicate numHttpWorker.toNat .waiting
      dispatcher := .waiting
      dbWorker := .waiting
      saved := []
    }

-- `queue_push`, where `alloc` tells whether the node can be allocated.
def pushQueue {α : Type} (q : Fifo α) (x : α) (alloc : Bool) : Fifo α × Bool :=
  if alloc then q.push x else (q, false)

namespace Runtime

def dispatchTask (rt : Runtime) (message : Message) (alloc : Bool) : Runtime × Int :=
  match message with
  | .db task =>
    let res := pushQueue rt.dbQueue task alloc
    ({ rt with dbQueue := res.1 }, if res.2 then orchestratorSuccess else orchestratorError)
  | .worker task =>
    let res := pushQueue rt.requestQueue task alloc
    ({ rt with requestQueue := res.1 }, if res.2 then orchestratorSuccess else orchestratorError)

def workerStep (rt : Runtime) (i : Nat) (env : TransferEnv) (alloc : Bool) : Runtime :=
  match rt.workers[i]? with
  | some .waiting =>
    match rt.requestQueue.pop with
    | (q, .item task) =>
      { rt with requestQueue := q, workers := rt.workers.set i (.executing task) }
    | (_, .closed) => { rt with workers := rt.workers.set i .exited }
    | (_, .wait) => rt
  | some (.executing task) =>
    match httpWorkerTask env task.item.data with
    | some resp => { rt with workers := rt.workers.set i (.pushing ⟨task.ticket, resp⟩) }
    | none => { rt with workers := rt.workers.set i .waiting }
  | some (.pushing resp) =>
    -- a response that is not accepted is freed
    let res := pushQueue rt.responseQueue resp alloc
    { rt with responseQueue := res.1, workers := rt.workers.set i .waiting }
  | some .exited => rt
  | none => rt

/-- One step of the dispatcher. `alloc` is about the DB task first, then about the queue node. -/
def dispatcherStep (rt : Runtime) (alloc : Bool) : Runtime :=
  match rt.dispatcher with
  | .waiting =>
    match rt.responseQueue.pop with
    | (q, .item resp) =>
      let dispatcher : DispatcherState :=
        if alloc then .pushing ⟨resp.ticket, .saveResponse (some resp.item)⟩ else .waiting
      { rt with responseQueue := q, dispatcher := dispatcher }
    | (_, .closed) => { rt with dispatcher := .exited }
    | (_, .wait) => rt
  | .pushing task =>
    let res := pushQueue rt.dbQueue task alloc
    { rt with dbQueue := res.1, dispatcher := .waiting }
  | .exited => rt

-- The functions of `db_manager.c` that the DB worker calls for a task.
def dbTaskProg (task : DbTask) : DbProg (Outcome Int) :=
  match task with
  | .saveCollection coll => (dbSaveCollection coll).map (fun res => .returned res.1)
  | .saveRequest req => (dbSaveRequest req).map (fun res => .returned res.1)
  | .saveResponse resp => (dbSaveResponse resp).map (fun res => .returned res.1)
  | .updateStatus (some payload) =>
    (dbUpdateRequestStatus payload.requestId payload.newStatusCode).map .returned
  -- the payload is read through the null pointer
  | .updateStatus none => .ret .crashed
  | .getNextRequest => dbGetNextPendingRequest.map (fun out => out.map (fun _ => sqliteOk))
  | .shutdown => .ret (.returned sqliteOk)

-- What the record gains by a task that ended with `rc` and left `conn` behind.
def savedBy (task : Ticketed DbTask) (rc : Int) (conn : Conn) : List SavedResponse :=
  match task.item with
  | .saveResponse (some resp) =>
    if rc = sqliteOk then [⟨task.ticket, resp.requestId, conn.db.responses.seq⟩] else []
  | _ => []

/--
One step of the DB worker. The calls of one function on the connection are one step here, and a
program that crashes in them takes no more steps.
-/
def dbWorkerStep (rt : Runtime) (conn : Conn) (es : List CallEnv) : Runtime × Conn :=
  match rt.dbWorker with
  | .waiting =>
    match rt.dbQueue.pop with
    | (q, .item task) => ({ rt with dbQueue := q, dbWorker := .executing task }, conn)
    | (_, .closed) => ({ rt with dbWorker := .exited }, conn)
    | (_, .wait) => (rt, conn)
  | .executing task =>
    match task.item with
    | .shutdown => ({ rt with dbWorker := .exited }, conn)
    | _ =>
      match (dbTaskProg task.item).run answer es conn with
      | (.returned rc, conn') =>
        ({ rt with dbWorker := .waiting, saved := rt.saved ++ savedBy task rc conn' }, conn')
      | (.crashed, _) => (rt, conn)
  | .exited => (rt, conn)

-- The DB worker reads or writes in this step where it must not.
def crashes (rt : Runtime) (conn : Conn) (es : List CallEnv) : Bool :=
  match rt.dbWorker with
  | .executing task => ((dbTaskProg task.item).run answer es conn).1 = .crashed
  | _ => false

inductive Action where
  | worker (i : Nat) (env : TransferEnv) (alloc : Bool)
  | dispatcher (alloc : Bool)
  | dbWorker (es : List CallEnv)

def step (rt : Runtime) (conn : Conn) (act : Action) : Runtime × Conn :=
  match act with
  | .worker i env alloc => (rt.workerStep i env alloc, conn)
  | .dispatcher alloc => (rt.dispatcherStep alloc, conn)
  | .dbWorker es => rt.dbWorkerStep conn es

section Frame

variable {rt : Runtime} {conn : Conn}

theorem workerStep_frame (i : Nat) (env : TransferEnv) (alloc : Bool)
    : rt.workerStep i env alloc = {
        rt with
        requestQueue := (rt.workerStep i env alloc).requestQueue
        responseQueue := (rt.workerStep i env alloc).responseQueue
        workers := (rt.workerStep i env alloc).workers
      } := by
  unfold workerStep
  split
  . split <;> rfl
  . split <;> rfl
  . rfl
  . rfl
  . rfl

-- A worker that has ended stays as it is.
theorem workers_workerStep (i : Nat) (env : TransferEnv) (alloc : Bool)
    : (rt.workerStep i env alloc).workers = rt.workers ∨
        ∃ w w', rt.workers[i]? = some w ∧ w ≠ .exited ∧
          (rt.workerStep i env alloc).workers = rt.workers.set i w' := by
  unfold workerStep
  cases hw : rt.workers[i]? with
  | none => exact Or.inl rfl
  | some w =>
    cases w with
    | waiting =>
      dsimp only
      split
      . exact Or.inr ⟨_, _, rfl, by simp, rfl⟩
      . exact Or.inr ⟨_, _, rfl, by simp, rfl⟩
      . exact Or.inl rfl
    | executing task =>
      dsimp only
      split
      . exact Or.inr ⟨_, _, rfl, by simp, rfl⟩
      . exact Or.inr ⟨_, _, rfl, by simp, rfl⟩
    | pushing resp => exact Or.inr ⟨_, _, rfl, by simp, rfl⟩
    | exited => exact Or.inl rfl

theorem dispatcherStep_frame (alloc : Bool)
    : rt.dispatcherStep alloc = {
        rt with
        responseQueue := (rt.dispatcherStep alloc).responseQueue
        dispatcher := (rt.dispatcherStep alloc).dispatcher
        dbQueue := (rt.dispatcherStep alloc).dbQueue
      } := by
  unfold dispatcherStep
  split
  . split <;> rfl
  . rfl
  . rfl

theorem dbWorkerStep_frame (es : List CallEnv)
    : (rt.dbWorkerStep conn es).1 = {
        rt with
        dbQueue := (rt.dbWorkerStep conn es).1.dbQueue
        dbWorker := (rt.dbWorkerStep conn es).1.dbWorker
        saved := (rt.dbWorkerStep conn es).1.saved
      } := by
  unfold dbWorkerStep
  split
  . split <;> rfl
  . split <;> [rfl; split]
    all_goals rfl
  . rfl

theorem crashes_executing {task : Ticketed DbTask} (h : rt.dbWorker = .executing task) (es : List CallEnv)
    : rt.crashes conn es = true ↔ ((dbTaskProg task.item).run answer es conn).1 = .crashed := by
  unfold crashes
  rw [h]
  exact decide_eq_true_iff

theorem dbWorkerStep_crashes {es : List CallEnv} (h : rt.crashes conn es = true)
    : rt.dbWorkerStep conn es = (rt, conn) := by
  cases hw : rt.dbWorker with
  | executing task =>
    rw [crashes_executing hw] at h
    unfold dbWorkerStep
    simp only [hw]
    split <;> [skip; split]
    . next hitem =>
      rw [hitem] at h
      cases h
    . next hrun =>
      rw [hrun] at h
      cases h
    . rfl
  | waiting => simp [crashes, hw] at h
  | exited => simp [crashes, hw] at h

theorem dbWorkerStep_returned {task : Ticketed DbTask} (hw : rt.dbWorker = .executing task)
    (hne : task.item ≠ .shutdown) {es : List CallEnv} (h : rt.crashes conn es = false)
    : ∃ rc conn',
        (dbTaskProg task.item).run answer es conn = (.returned rc, conn') ∧
        rt.dbWorkerStep conn es =
          ({ rt with dbWorker := .waiting, saved := rt.saved ++ savedBy task rc conn' }, conn') := by
  have hreturns := mt (crashes_executing hw es).mpr (Bool.eq_false_iff.mp h)
  unfold dbWorkerStep
  simp only [hw]
  split
  . next rc conn' hrun => exact ⟨rc, conn', hrun, rfl⟩
  . next hrun =>
    rw [hrun] at hreturns
    exact absurd rfl hreturns

theorem workers_step (act : Action)
    : (rt.step conn act).1.workers = rt.workers ∨
        ∃ i w w', rt.workers[i]? = some w ∧ w ≠ .exited ∧
          (rt.step conn act).1.workers = rt.workers.set i w' := by
  cases act with
  | worker i env alloc =>
    cases @workers_workerStep rt i env alloc with
    | inl hsame => exact Or.inl hsame
    | inr hset => exact Or.inr ⟨i, hset⟩
  | dispatcher alloc =>
    left
    unfold step
    dsimp only
    rw [dispatcherStep_frame]
  | dbWorker es =>
    left
    unfold step
    dsimp only
    rw [dbWorkerStep_frame]

end Frame

end Runtime

inductive DestroyPhase where
  | joinWorkers (i : Nat)
  | joinDispatcher
  | joinDbWorker
  | returned
  deriving DecidableEq

namespace Runtime

def destroyStart (rt : Runtime) : Runtime × DestroyPhase :=
  ({ rt with requestQueue := rt.requestQueue.close }, .joinWorkers 0)

/-- One step of `destroy_runtime`. A `pthread_join` waits for the end of its thread. -/
def destroyStep (rt : Runtime) (phase : DestroyPhase) : Runtime × DestroyPhase :=
  match phase with
  | .joinWorkers i =>
    if i < rt.workers.length then
      if rt.workers[i]? = some .exited then (rt, .joinWorkers (i + 1)) else (rt, phase)
    else
      ({ rt with responseQueue := rt.responseQueue.close }, .joinDispatcher)
  | .joinDispatcher =>
    if rt.dispatcher = .exited then
      ({ rt with dbQueue := rt.dbQueue.close }, .joinDbWorker)
    else
      (rt, phase)
  | .joinDbWorker =>
    if rt.dbWorker = .exited then (rt, .returned) else (rt, phase)
  | .returned => (rt, phase)

end Runtime

end HttpRuntime
