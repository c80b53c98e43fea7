import HttpRuntime.Core.Runtime.Shutdown

/-!
This module contains what may be asked of everything in the pipeline: one property of the tasks and one of
the responses. It stays true as long as every worker that takes a task of the one kind makes a response of
the other.
-/

open Lib

namespace HttpRuntime

-- What the task of the DB worker is to save.
def Ticketed.Saves (Q : Ticketed Response → Prop) (task : Ticketed DbTask) : Prop :=
  ∀ resp, task.item = .saveResponse (some resp) → Q ⟨task.ticket, resp⟩

def WorkerState.Holds (P : Ticketed WorkerTask → Prop) (Q : Ticketed Response → Prop) (w : WorkerState)
    : Prop :=
  match w with
  | .executing task => P task
  | .pushing resp => Q resp
  | .waiting => True
  | .exited => True

namespace Runtime

structure Flows (P : Ticketed WorkerTask → Prop) (Q : Ticketed Response → Prop) (rt : Runtime) : Prop where
  requestQueue : ∀ task ∈ rt.requestQueue.items, P task
  workers : ∀ w ∈ rt.workers, w.Holds P Q
  responseQueue : ∀ resp ∈ rt.responseQueue.items, Q resp
  dispatcher : ∀ task, rt.dispatcher = .pushing task → task.Saves Q
  dbQueue : ∀ task ∈ rt.dbQueue.items, task.Saves Q
  dbWorker : ∀ task, rt.dbWorker = .executing task → task.Saves Q

/-- The row holds the response of the entry, which is as asked of the responses. -/
def Holds (Q : Ticketed Response → Prop) (entry : SavedResponse) (row : Nat × ResponseRow) : Prop :=
  Records entry row ∧ ∃ resp createdAt, Q ⟨entry.ticket, resp⟩ ∧ row.2 = responseRow resp createdAt

/-- A worker that executes a task in this step makes what is asked of a response. -/
def Answers (P : Ticketed WorkerTask → Prop) (Q : Ticketed Response → Prop) (rt : Runtime) (act : Action)
    : Prop :=
  match act with
  | .worker i env _ =>
    ∀ task, rt.workers[i]? = some (.executing task) → P task →
      ∀ resp, httpWorkerTask env task.item.data = some resp → Q ⟨task.ticket, resp⟩
  | _ => True

theorem forall_mem_pushQueue {α : Type} {q : Fifo α} {p : α → Prop} (h : ∀ x ∈ q.items, p x) {x : α} (hx : p x)
    (alloc : Bool) : ∀ y ∈ (pushQueue q x alloc).1.items, p y := by
  intro y hmem
  cases mem_items_pushQueue hmem with
  | inl hmem => exact h y hmem
  | inr heq =>
    rw [heq]
    exact hx

namespace Flows

variable {P : Ticketed WorkerTask → Prop} {Q : Ticketed Response → Prop} {rt : Runtime}

theorem of_some (h : rt.Flows P Q) : ∀ rt', some rt = some rt' → rt'.Flows P Q := by
  intro rt' heq
  rw [← Option.some.inj heq]
  exact h

theorem createRuntime {n : Int} (h : createRuntime n = some rt) : rt.Flows P Q := by
  unfold HttpRuntime.createRuntime at h
  split at h
  . cases h
  . cases h
    constructor
    case workers =>
      intro w hw
      rw [List.eq_of_mem_replicate hw]
      trivial
    all_goals simp [Fifo.empty]

theorem setWorker (h : rt.Flows P Q) (i : Nat) {w : WorkerState} (hw : w.Holds P Q)
    : { rt with workers := rt.workers.set i w }.Flows P Q := by
  refine { h with workers := ?_ }
  intro w' hmem
  cases List.mem_or_eq_of_mem_set hmem with
  | inl hmem => exact h.workers w' hmem
  | inr heq =>
    rw [heq]
    exact hw

theorem workerStep (h : rt.Flows P Q) {i : Nat} {env : TransferEnv} {alloc : Bool}
    (hanswers : rt.Answers P Q (.worker i env alloc)) : (rt.workerStep i env alloc).Flows P Q := by
  unfold Runtime.workerStep
  cases hw : rt.workers[i]? with
  | none => exact h
  | some w =>
    have hholds := h.workers w (List.mem_of_getElem? hw)
    cases w with
    | waiting =>
      dsimp only
      rcases pop_cases rt.requestQueue with ⟨task, tasks, hitems, hpop⟩ | ⟨_, _, hpop⟩ | ⟨_, _, hpop⟩
      . rw [hpop]
        have hqueue := h.requestQueue
        rw [hitems, List.forall_mem_cons] at hqueue
        have hset := h.setWorker i (w := .executing task) hqueue.1
        exact { hset with requestQueue := hqueue.2 }
      . rw [hpop]
        exact h.setWorker i trivial
      . rw [hpop]
        exact h
    | executing task =>
      dsimp only
      split
      . next resp hresp =>
        apply h.setWorker
        exact hanswers task hw hholds resp hresp
      . exact h.setWorker i trivial
    | pushing resp =>
      have hset := h.setWorker i (w := .waiting) trivial
      exact { hset with responseQueue := forall_mem_pushQueue h.responseQueue hholds alloc }
    | exited => exact h

theorem dispatcherStep (h : rt.Flows P Q) (alloc : Bool) : (rt.dispatcherStep alloc).Flows P Q := by
  unfold Runtime.dispatcherStep
  cases hd : rt.dispatcher with
  | waiting =>
    dsimp only
    rcases pop_cases rt.responseQueue with ⟨resp, resps, hitems, hpop⟩ | ⟨_, _, hpop⟩ | ⟨_, _, hpop⟩
    . rw [hpop]
      have hqueue := h.responseQueue
      rw [hitems, List.forall_mem_cons] at hqueue
      refine { h with responseQueue := hqueue.2, dispatcher := ?_ }
      intro task htask
      cases alloc with
      | false => cases htask
      | true =>
        cases htask
        intro resp' hresp'
        cases hresp'
        exact hqueue.1
    . rw [hpop]
      exact { h with dispatcher := by simp }
    . rw [hpop]
      exact h
  | pushing task =>
    exact {
      h with
      dispatcher := by simp
      dbQueue := forall_mem_pushQueue h.dbQueue (h.dispatcher task hd) alloc
    }
  | exited => exact h

theorem dbWorkerStep (h : rt.Flows P Q) (conn : Conn) (es : List CallEnv)
    : (rt.dbWorkerStep conn es).1.Flows P Q := by
  unfold Runtime.dbWorkerStep
  cases hd : rt.dbWorker with
  | waiting =>
    dsimp only
    rcases pop_cases rt.dbQueue with ⟨task, tasks, hitems, hpop⟩ | ⟨_, _, hpop⟩ | ⟨_, _, hpop⟩
    . rw [hpop]
      have hqueue := h.dbQueue
      rw [hitems, List.forall_mem_cons] at hqueue
      refine { h with dbQueue := hqueue.2, dbWorker := ?_ }
      intro task' htask
      cases htask
      exact hqueue.1
    . rw [hpop]
      exact { h with dbWorker := by simp }
    . rw [hpop]
      exact h
  | executing task =>
    dsimp only
    split <;> [skip; split]
    . exact { h with dbWorker := by simp }
    . exact { h with dbWorker := by simp }
    . exact h
  | exited => exact h

theorem step (h : rt.Flows P Q) {act : Action} (hanswers : rt.Answers P Q act) (conn : Conn)
    : (rt.step conn act).1.Flows P Q := by
  cases act with
  | worker i env alloc => exact h.workerStep hanswers
  | dispatcher alloc => exact h.dispatcherStep alloc
  | dbWorker es => exact h.dbWorkerStep conn es

/-- The rows that the DB worker stores hold what is asked of the responses. -/
theorem storedAs_step {rows : List (Nat × ResponseRow)} {conn : Conn} (h : rt.Flows P Q)
    (hstored : StoredAs (Holds Q) rows rt.saved conn) (act : Action)
    : StoredAs (Holds Q) rows (rt.step conn act).1.saved (rt.step conn act).2 := by
  apply hstored.step
  intro task resp rowId createdAt htask hitem
  exact ⟨⟨rfl, rfl⟩, resp, createdAt, h.dbWorker task htask resp hitem, rfl⟩

theorem dispatchTask (h : rt.Flows P Q) {task : Ticketed WorkerTask} (htask : P task) (alloc : Bool)
    : (rt.dispatchTask (.worker task) alloc).1.Flows P Q :=
  { h with requestQueue := forall_mem_pushQueue h.requestQueue htask alloc }

theorem destroyStart (h : rt.Flows P Q) : rt.destroyStart.1.Flows P Q := { h with }

theorem destroyStep (h : rt.Flows P Q) (phase : DestroyPhase) : (rt.destroyStep phase).1.Flows P Q := by
  unfold Runtime.destroyStep
  split
  . split
    . split <;> exact h
    . exact { h with }
  . split
    . exact { h with }
    . exact h
  . split <;> exact h
  . exact h

end Flows

end Runtime

end HttpRuntime
