import HttpRuntime.Core.Queue.Lemmas
import HttpRuntime.Core.Runtime.Conservation
import HttpRuntime.Core.Runtime.Rank

/-!
This module contains the runtime with the linked lists of `queue.c` as its queues, down to
`destroy_queue`, and why it does what the runtime with abstract queues does.

The results `none` is a dereference of a null or freed node.
-/

open Lib

namespace HttpRuntime

structure NodeRuntime where
  requestQueue : QueueMem (Ticketed WorkerTask)
  responseQueue : QueueMem (Ticketed Response)
  dbQueue : QueueMem (Ticketed DbTask)
  workers : List WorkerState
  dispatcher : DispatcherState
  dbWorker : DbWorkerState
  saved : List SavedResponse

namespace NodeRuntime

def createRuntime (numHttpWorker : Int) : Option NodeRuntime :=
  if numHttpWorker ≤ 0 then
    none
  else
    some {
      requestQueue := createQueue
      responseQueue := createQueue
      dbQueue := createQueue
      workers := List.replicate numHttpWorker.toNat .waiting
      dispatcher := .waiting
      dbWorker := .waiting
      saved := []
    }

def dispatchTask (rt : NodeRuntime) (message : Message) (alloc : Option Addr)
    : Option (NodeRuntime × Int) :=
  match message with
  | .db task => do
    let (q, rc) ← queuePush rt.dbQueue (some task) alloc
    some ({ rt with dbQueue := q }, if rc = queueError then orchestratorError else orchestratorSuccess)
  | .worker task => do
    let (q, rc) ← queuePush rt.requestQueue (some task) alloc
    some
      ({ rt with requestQueue := q }, if rc = queueError then orchestratorError else orchestratorSuccess)

def workerStep (rt : NodeRuntime) (i : Nat) (env : TransferEnv) (alloc : Option Addr)
    : Option NodeRuntime :=
  match rt.workers[i]? with
  | some .waiting => do
    let (q, res) ← queuePop rt.requestQueue
    match res with
    | .done (some task) =>
      some { rt with requestQueue := q, workers := rt.workers.set i (.executing task) }
    | .done none => some { rt with requestQueue := q, workers := rt.workers.set i .exited }
    | .wait => some { rt with requestQueue := q }
  | some (.executing task) =>
    match httpWorkerTask env task.item.data with
    | some resp => some { rt with workers := rt.workers.set i (.pushing ⟨task.ticket, resp⟩) }
    | none => some { rt with workers := rt.workers.set i .waiting }
  | some (.pushing resp) => do
    -- a response that is not accepted is freed
    let (q, _) ← queuePush rt.responseQueue (some resp) alloc
    some { rt with responseQueue := q, workers := rt.workers.set i .waiting }
  | some .exited => some rt
  | none => some rt

def dispatcherStep (rt : NodeRuntime) (calloc : Bool) (alloc : Option Addr) : Option NodeRuntime :=
  match rt.dispatcher with
  | .waiting => do
    let (q, res) ← queuePop rt.responseQueue
    match res with
    | .done (some resp) =>
      let dispatcher : DispatcherState :=
        if calloc then .pushing ⟨resp.ticket, .saveResponse (some resp.item)⟩ else .waiting
      some { rt with responseQueue := q, dispatcher := dispatcher }
    | .done none => some { rt with responseQueue := q, dispatcher := .exited }
    | .wait => some { rt with responseQueue := q }
  | .pushing task => do
    let (q, _) ← queuePush rt.dbQueue (some task) alloc
    some { rt with dbQueue := q, dispatcher := .waiting }
  | .exited => some rt

def dbWorkerStep (rt : NodeRuntime) (conn : Conn) (es : List CallEnv) : Option (NodeRuntime × Conn) :=
  match rt.dbWorker with
  | .waiting => do
    let (q, res) ← queuePop rt.dbQueue
    match res with
    | .done (some task) => some ({ rt with dbQueue := q, dbWorker := .executing task }, conn)
    | .done none => some ({ rt with dbQueue := q, dbWorker := .exited }, conn)
    | .wait => some ({ rt with dbQueue := q }, conn)
  | .executing task =>
    match task.item with
    | .shutdown => some ({ rt with dbWorker := .exited }, conn)
    | _ =>
      match (Runtime.dbTaskProg task.item).run answer es conn with
      | (.returned rc, conn') =>
        some
          ({ rt with dbWorker := .waiting, saved := rt.saved ++ Runtime.savedBy task rc conn' }, conn')
      | (.crashed, _) => some (rt, conn)
  | .exited => some (rt, conn)

inductive Action where
  | worker (i : Nat) (env : TransferEnv) (alloc : Option Addr)
  | dispatcher (calloc : Bool) (alloc : Option Addr)
  | dbWorker (es : List CallEnv)

def step (rt : NodeRuntime) (conn : Conn) (act : Action) : Option (NodeRuntime × Conn) :=
  match act with
  | .worker i env alloc => do
    let rt ← rt.workerStep i env alloc
    some (rt, conn)
  | .dispatcher calloc alloc => do
    let rt ← rt.dispatcherStep calloc alloc
    some (rt, conn)
  | .dbWorker es => rt.dbWorkerStep conn es

def destroyStart (rt : NodeRuntime) : NodeRuntime × DestroyPhase :=
  ({ rt with requestQueue := queueShutdown rt.requestQueue }, .joinWorkers 0)

def destroyQueues (rt : NodeRuntime) : Option NodeRuntime := do
  let requestQueue ← destroyQueue rt.requestQueue
  let responseQueue ← destroyQueue rt.responseQueue
  let dbQueue ← destroyQueue rt.dbQueue
  some { rt with requestQueue := requestQueue, responseQueue := responseQueue, dbQueue := dbQueue }

/-- One step of `destroy_runtime`. The last one takes the queues down. -/
def destroyStep (rt : NodeRuntime) (phase : DestroyPhase) : Option (NodeRuntime × DestroyPhase) :=
  match phase with
  | .joinWorkers i =>
    if i < rt.workers.length then
      if rt.workers[i]? = some .exited then some (rt, .joinWorkers (i + 1)) else some (rt, phase)
    else
      some ({ rt with responseQueue := queueShutdown rt.responseQueue }, .joinDispatcher)
  | .joinDispatcher =>
    if rt.dispatcher = .exited then
      some ({ rt with dbQueue := queueShutdown rt.dbQueue }, .joinDbWorker)
    else
      some (rt, phase)
  | .joinDbWorker =>
    if rt.dbWorker = .exited then do
      let rt ← rt.destroyQueues
      some (rt, .returned)
    else
      some (rt, phase)
  | .returned => some (rt, phase)

end NodeRuntime

structure NodePipeline where
  conn : Conn
  rt : NodeRuntime
  accepted : List Request
  phase : Option DestroyPhase

namespace NodePipeline

inductive Action where
  | dispatch (req : Request) (alloc : Option Addr)
  | dispatchDb (task : DbTask) (alloc : Option Addr)
  | destroy
  | runtime (act : NodeRuntime.Action)

def start (rt : NodeRuntime) (conn : Conn) : NodePipeline where
  conn := conn
  rt := rt
  accepted := []
  phase := none

def step (p : NodePipeline) (act : Action) : Option NodePipeline :=
  match act with
  | .dispatch req alloc =>
    if p.phase = none then do
      let (rt, rc) ← p.rt.dispatchTask (.worker ⟨p.accepted.length, ⟨some req⟩⟩) alloc
      let accepted := if rc = orchestratorSuccess then p.accepted ++ [req] else p.accepted
      some { p with rt := rt, accepted := accepted }
    else
      some p
  | .dispatchDb task alloc =>
    if p.phase = none then do
      let (rt, _) ← p.rt.dispatchTask (.db ⟨0, task⟩) alloc
      some { p with rt := rt }
    else
      some p
  | .destroy =>
    match p.phase with
    | none => some { p with rt := p.rt.destroyStart.1, phase := some p.rt.destroyStart.2 }
    | some phase => do
      let (rt, phase) ← p.rt.destroyStep phase
      some { p with rt := rt, phase := some phase }
  | .runtime act => do
    let (rt, conn) ← p.rt.step p.conn act
    some { p with rt := rt, conn := conn }

def exec (p : NodePipeline) (acts : List Action) : Option NodePipeline :=
  match acts with
  | [] => some p
  | act :: acts => do
    let p ← p.step act
    p.exec acts

end NodePipeline

end HttpRuntime
