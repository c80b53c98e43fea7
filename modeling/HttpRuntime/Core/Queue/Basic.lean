import HttpRuntime.Lib.Chain
import HttpRuntime.Lib.CInt

/-!
This module contains the linked list queue of `queue.c`. One mutex critical section is one
function here. `none` stands for a dereference of a null or freed pointer.
-/

open Lib

namespace HttpRuntime

abbrev Addr := Nat

structure QueueNode (α : Type) where
  data : α
  next : Option Addr

structure Queue where
  head : Option Addr
  tail : Option Addr
  size : Int
  isShutdown : Bool

structure QueueMem (α : Type) where
  nodes : Store Addr (QueueNode α)
  queue : Queue

def queueSuccess : Int := 1
def queueError : Int := 0

variable {α : Type}

/--
The allocator answers with an address of its choice or refuses. An address that is in use cannot be
handed out again and counts as a refusal.
-/
def malloc (nodes : Store Addr (QueueNode α)) (alloc : Option Addr) : Option Addr :=
  alloc.filter (fun a => (nodes a).isNone)

def createQueue : QueueMem α :=
  {
    nodes := fun _ => none
    queue := { head := none, tail := none, size := 0, isShutdown := false }
  }

def queuePush (m : QueueMem α) (data : Option α) (alloc : Option Addr)
    : Option (QueueMem α × Int) :=
  match data with
  | none => some (m, queueError)
  | some data =>
    match malloc m.nodes alloc with
    | none => some (m, queueError)
    | some qn =>
      let nodes := m.nodes.put qn { data := data, next := none }
      let q := m.queue
      -- closed queue
      if q.isShutdown then
        some ({ m with nodes := nodes.free qn }, queueError)
      else
        let size := toInt (q.size + 1)
        match q.head with
        | none =>
          let q := { q with head := some qn, tail := some qn, size := size }
          some ({ nodes := nodes, queue := q }, queueSuccess)
        | some _ => do
          let tail ← q.tail
          let last ← nodes tail
          let nodes := nodes.put tail { last with next := some qn }
          let q := { q with tail := some qn, size := size }
          some ({ nodes := nodes, queue := q }, queueSuccess)

/-- `wait` is the branch that gives the lock back inside `pthread_cond_wait`. -/
inductive PopResult (α : Type) where
  | wait
  | done (data : Option α)

def queuePop (m : QueueMem α) : Option (QueueMem α × PopResult α) :=
  let q := m.queue
  if q.size = 0 ∧ q.isShutdown = false then
    some (m, .wait)
  else if q.isShutdown = true ∧ q.size = 0 then
    some (m, .done none)
  else do
    let qn ← q.head
    let node ← m.nodes qn
    let head := node.next
    let tail := if head = none then none else q.tail
    let q := { q with head := head, tail := tail, size := toInt (q.size - 1) }
    some ({ nodes := m.nodes.free qn, queue := q }, .done (some node.data))

def queueShutdown (m : QueueMem α) : QueueMem α :=
  { m with queue := { m.queue with isShutdown := true } }

/-- The loop of `destroy_queue`. A list that does not end within `fuel` nodes is a fault. -/
def freeNodes (fuel : Nat) (nodes : Store Addr (QueueNode α)) (current : Option Addr)
    : Option (Store Addr (QueueNode α)) :=
  match current with
  | none => some nodes
  | some a =>
    match fuel with
    | 0 => none
    | fuel + 1 => do
      let node ← nodes a
      freeNodes fuel (nodes.free a) node.next

-- The data of the nodes is left alone.
def destroyQueue (m : QueueMem α) : Option (QueueMem α) := do
  let nodes ← freeNodes m.queue.size.toNat m.nodes m.queue.head
  some { m with nodes := nodes }

inductive QueueAction (α : Type) where
  | push (data : Option α) (alloc : Option Addr)
  | pop
  | shutdown

def QueueAction.isShutdown (act : QueueAction α) : Bool :=
  match act with
  | .shutdown => true
  | _ => false

inductive QueueReply (α : Type) where
  | push (rc : Int)
  | pop (res : PopResult α)
  | shutdown

def queueStep (m : QueueMem α) (act : QueueAction α) : Option (QueueMem α × QueueReply α) :=
  match act with
  | .push data alloc => (queuePush m data alloc).map fun (m, rc) => (m, .push rc)
  | .pop => (queuePop m).map fun (m, res) => (m, .pop res)
  | .shutdown => some (queueShutdown m, .shutdown)

/-- One critical section of a run, with the memory it started from. -/
structure QueueEvent (α : Type) where
  before : QueueMem α
  act : QueueAction α
  reply : QueueReply α

def queueRun (m : QueueMem α) (acts : List (QueueAction α))
    : Option (QueueMem α × List (QueueEvent α)) :=
  match acts with
  | [] => some (m, [])
  | act :: acts => do
    let (m', reply) ← queueStep m act
    let (m'', events) ← queueRun m' acts
    some (m'', ⟨m, act, reply⟩ :: events)

def QueueEvent.accepted (e : QueueEvent α) : Option α :=
  match e.act, e.reply with
  | .push data _, .push rc => if rc = queueSuccess then data else none
  | _, _ => none

def QueueEvent.popped (e : QueueEvent α) : Option α :=
  match e.reply with
  | .pop (.done data) => data
  | _ => none

def acceptedPushes (events : List (QueueEvent α)) : List α :=
  events.filterMap QueueEvent.accepted

def poppedValues (events : List (QueueEvent α)) : List α :=
  events.filterMap QueueEvent.popped

end HttpRuntime
