import HttpRuntime.Core.Runtime.Basic

/-!
This module contains the life of a runtime from `create_runtime` to the end of `destroy_runtime`,
with every failure in between: the owner creates queues and threads one after the other, and the
threads that are started run from then on.

A thread that finds nothing in an open queue sleeps in `pthread_cond_wait` until it is woken. One
critical section of a queue is one step, so the locks of the queues do not appear.
-/

open Lib

namespace HttpRuntime

inductive Thread where
  | worker (i : Nat)
  | dispatcher
  | dbWorker
  deriving DecidableEq, Repr

inductive QueueName where
  | request
  | response
  | db
  deriving DecidableEq, Repr

def Thread.queue (t : Thread) : QueueName :=
  match t with
  | .worker _ => .request
  | .dispatcher => .response
  | .dbWorker => .db

inductive OwnerPc where
  | allocRuntime
  | createDbQueue
  | createRequestQueue
  | createResponseQueue
  | allocThreads
  | createDbWorker
  | createDispatcher
  | createWorkers
  -- `create_runtime` returned the runtime
  | running
  | shutdownRequests
  | joinWorkers (i : Nat)
  | shutdownResponses
  | joinDispatcher
  | shutdownDb
  | joinDbWorker
  | freeQueues
  -- `destroy_runtime` returned
  | returned
  -- `create_runtime` returned without a runtime
  | noRuntime
  deriving DecidableEq, Repr

namespace OwnerPc

def destroying (pc : OwnerPc) : Bool :=
  match pc with
  | .shutdownRequests | .joinWorkers _ | .shutdownResponses | .joinDispatcher | .shutdownDb
  | .joinDbWorker | .freeQueues | .returned => true
  | _ => false

end OwnerPc

/--
A runtime under its owner. `rt` holds the queues and the threads, a thread that was not started is
at its first step there. `hasDbQueue`, `hasRequestQueue` and `hasResponseQueue` tell which of the
pointers are set. `asleep` are the threads in `pthread_cond_wait`. `started` and `joined` record the
calls of `pthread_create` that succeeded and the calls of `pthread_join` that returned.
-/
structure Lifecycle where
  rt : Runtime
  conn : Conn
  hasDbQueue : Bool
  hasRequestQueue : Bool
  hasResponseQueue : Bool
  dbWorkerStarted : Bool
  dispatcherStarted : Bool
  isRunning : Bool
  owner : OwnerPc
  asleep : List Thread
  started : List Thread
  joined : List Thread

namespace Runtime

def queueClosed (rt : Runtime) (q : QueueName) : Bool :=
  match q with
  | .request => rt.requestQueue.closed
  | .response => rt.responseQueue.closed
  | .db => rt.dbQueue.closed

-- The thread is at `queue_pop`, and the queue is open and empty.
def waits (rt : Runtime) (t : Thread) : Bool :=
  match t with
  | .worker i => rt.workers[i]? = some .waiting && rt.requestQueue.pop.2 = .wait
  | .dispatcher => rt.dispatcher = .waiting && rt.responseQueue.pop.2 = .wait
  | .dbWorker => rt.dbWorker = .waiting && rt.dbQueue.pop.2 = .wait

def exited (rt : Runtime) (t : Thread) : Bool :=
  match t with
  | .worker i => rt.workers[i]? = some .exited
  | .dispatcher => rt.dispatcher = .exited
  | .dbWorker => rt.dbWorker = .exited

-- The queue that the next step of a thread puts something in.
def pushesTo (rt : Runtime) (t : Thread) (alloc : Bool) : Option QueueName :=
  match t with
  | .worker i =>
    match rt.workers[i]? with
    | some (.pushing resp) => if (pushQueue rt.responseQueue resp alloc).2 then some .response else none
    | _ => none
  | .dispatcher =>
    match rt.dispatcher with
    | .pushing task => if (pushQueue rt.dbQueue task alloc).2 then some .db else none
    | _ => none
  | .dbWorker => none

def close (rt : Runtime) (q : QueueName) : Runtime :=
  match q with
  | .request => { rt with requestQueue := rt.requestQueue.close }
  | .response => { rt with responseQueue := rt.responseQueue.close }
  | .db => { rt with dbQueue := rt.dbQueue.close }

end Runtime

structure ThreadEnv where
  transfer : TransferEnv
  alloc : Bool
  calls : List CallEnv
  -- the thread that a signal wakes if it sleeps on the queue
  wake : Thread

namespace ThreadEnv

def action (env : ThreadEnv) (t : Thread) : Runtime.Action :=
  match t with
  | .worker i => .worker i env.transfer env.alloc
  | .dispatcher => .dispatcher env.alloc
  | .dbWorker => .dbWorker env.calls

end ThreadEnv

def signal (asleep : List Thread) (q : QueueName) (wake : Thread) : List Thread :=
  if wake ∈ asleep ∧ wake.queue = q then
    asleep.erase wake
  else
    match asleep.find? (fun t => t.queue = q) with
    | some t => asleep.erase t
    | none => asleep

def broadcast (asleep : List Thread) (q : QueueName) : List Thread :=
  asleep.filter (fun t => t.queue ≠ q)

namespace Lifecycle

def start (conn : Conn) : Lifecycle where
  rt := {
    requestQueue := .empty
    responseQueue := .empty
    dbQueue := .empty
    workers := []
    dispatcher := .waiting
    dbWorker := .waiting
    saved := []
  }
  conn := conn
  hasDbQueue := false
  hasRequestQueue := false
  hasResponseQueue := false
  dbWorkerStarted := false
  dispatcherStarted := false
  isRunning := false
  owner := .allocRuntime
  asleep := []
  started := []
  joined := []

variable (s : Lifecycle)

def goto (pc : OwnerPc) : Lifecycle := { s with owner := pc }

def queueShutdown (q : QueueName) : Lifecycle :=
  { s with rt := s.rt.close q, asleep := broadcast s.asleep q }

/-- One step of the owner, where `ok` is about what it creates. A step that has to wait is `none`. -/
def ownerStep (numHttpWorker : Int) (ok : Bool) : Option Lifecycle :=
  match s.owner with
  | .allocRuntime =>
    if numHttpWorker ≤ 0 then some (s.goto .noRuntime)
    else if !ok then some (s.goto .noRuntime)
    else some (s.goto .createDbQueue)
  | .createDbQueue =>
    if !ok then some (s.goto .shutdownRequests)
    else some { s with hasDbQueue := true, owner := .createRequestQueue }
  | .createRequestQueue =>
    if !ok then some (s.goto .shutdownRequests)
    else some { s with hasRequestQueue := true, owner := .createResponseQueue }
  | .createResponseQueue =>
    if !ok then some (s.goto .shutdownRequests)
    else some { s with hasResponseQueue := true, owner := .allocThreads }
  | .allocThreads =>
    if !ok then some (s.goto .shutdownRequests) else some (s.goto .createDbWorker)
  | .createDbWorker =>
    if !ok then some (s.goto .shutdownRequests)
    else some { s with
      dbWorkerStarted := true
      started := s.started ++ [.dbWorker]
      owner := .createDispatcher
    }
  | .createDispatcher =>
    if !ok then some (s.goto .shutdownRequests)
    else some { s with
      dispatcherStarted := true
      started := s.started ++ [.dispatcher]
      owner := .createWorkers
    }
  | .createWorkers =>
    let i := s.rt.workers.length
    if (i : Int) < numHttpWorker then
      if !ok then some (s.goto .shutdownRequests)
      else some { s with
        rt := { s.rt with workers := s.rt.workers ++ [.waiting] }
        started := s.started ++ [.worker i]
      }
    else
      some { s with isRunning := true, owner := .running }
  | .running => some (s.goto .shutdownRequests)
  | .shutdownRequests =>
    let s := if s.hasRequestQueue then s.queueShutdown .request else s
    some (s.goto (.joinWorkers 0))
  | .joinWorkers i =>
    if i < s.rt.workers.length then
      if s.rt.exited (.worker i) then
        some { s with joined := s.joined ++ [.worker i], owner := .joinWorkers (i + 1) }
      else
        none
    else
      some (s.goto .shutdownResponses)
  | .shutdownResponses =>
    let s := if s.hasResponseQueue then s.queueShutdown .response else s
    some (s.goto .joinDispatcher)
  | .joinDispatcher =>
    if s.dispatcherStarted then
      if s.rt.exited .dispatcher then
        some { s with joined := s.joined ++ [.dispatcher], owner := .shutdownDb }
      else
        none
    else
      some (s.goto .shutdownDb)
  | .shutdownDb =>
    let s := if s.hasDbQueue then s.queueShutdown .db else s
    some (s.goto .joinDbWorker)
  | .joinDbWorker =>
    if s.dbWorkerStarted then
      if s.rt.exited .dbWorker then
        some { s with joined := s.joined ++ [.dbWorker], owner := .freeQueues }
      else
        none
    else
      some (s.goto .freeQueues)
  | .freeQueues => some (s.goto .returned)
  | .returned => none
  | .noRuntime => none

def alive (t : Thread) : Bool :=
  match t with
  | .worker i => i < s.rt.workers.length && !s.rt.exited t
  | .dispatcher => s.dispatcherStarted && !s.rt.exited t
  | .dbWorker => s.dbWorkerStarted && !s.rt.exited t

/-- One step of a thread of the runtime. A step that cannot be taken is `none`. -/
def threadStep (t : Thread) (env : ThreadEnv) : Option Lifecycle :=
  if !s.alive t || t ∈ s.asleep then
    none
  else if s.rt.waits t then
    some { s with asleep := t :: s.asleep }
  else
    let res := s.rt.step s.conn (env.action t)
    let asleep :=
      match s.rt.pushesTo t env.alloc with
      | some q => signal s.asleep q env.wake
      | none => s.asleep
    some { s with rt := res.1, conn := res.2, asleep := asleep }

/-- A task that is handed to the runtime, which clients have until `destroy_runtime` returns. -/
def dispatchStep (message : Message) (alloc : Bool) (wake : Thread) : Option Lifecycle :=
  if !s.isRunning || s.owner = .returned then
    none
  else
    let res := s.rt.dispatchTask message alloc
    let q : QueueName :=
      match message with
      | .db _ => .db
      | .worker _ => .request
    let asleep := if res.2 = orchestratorSuccess then signal s.asleep q wake else s.asleep
    some { s with rt := res.1, asleep := asleep }

inductive Action where
  | owner (ok : Bool)
  | thread (t : Thread) (env : ThreadEnv)
  | dispatch (message : Message) (alloc : Bool) (wake : Thread)
  -- a thread may wake up on its own
  | spurious (t : Thread)

def step (numHttpWorker : Int) (act : Action) : Option Lifecycle :=
  match act with
  | .owner ok => s.ownerStep numHttpWorker ok
  | .thread t env => s.threadStep t env
  | .dispatch message alloc wake => s.dispatchStep message alloc wake
  | .spurious t => some { s with asleep := s.asleep.erase t }

/-- A run. Actions that cannot be taken are left out. -/
def exec (numHttpWorker : Int) (acts : List Action) : Lifecycle :=
  acts.foldl (fun s act => (s.step numHttpWorker act).getD s) s

def Moves (numHttpWorker : Int) : Prop :=
  (∃ ok, (s.ownerStep numHttpWorker ok).isSome) ∨ ∃ t env, (s.threadStep t env).isSome

end Lifecycle

end HttpRuntime
