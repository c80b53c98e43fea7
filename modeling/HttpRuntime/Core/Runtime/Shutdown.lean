import HttpRuntime.Core.Runtime.Carried

/-!
This module contains the order in which a runtime comes to rest: every thread ends after the queue
it reads from was closed and drained, and no queue is closed before the threads that fill it ended.
-/

open Lib

namespace HttpRuntime
namespace Runtime

structure Orderly (rt : Runtime) : Prop where
  workerExited : .exited ∈ rt.workers →
    rt.requestQueue.items = [] ∧ rt.requestQueue.closed = true
  responseClosed : rt.responseQueue.closed = true → ∀ w ∈ rt.workers, w = .exited
  dispatcherExited : rt.dispatcher = .exited →
    rt.responseQueue.items = [] ∧ rt.responseQueue.closed = true
  dbClosed : rt.dbQueue.closed = true → rt.dispatcher = .exited
  dbWorkerExited : rt.dbWorker = .exited → rt.dbQueue.items = [] ∧ rt.dbQueue.closed = true

structure DbTasks (P : DbTask → Prop) (rt : Runtime) : Prop where
  dbQueue : ∀ task ∈ rt.dbQueue.items, P task.item
  dispatcher : ∀ task, rt.dispatcher = .pushing task → P task.item
  dbWorker : ∀ task, rt.dbWorker = .executing task → P task.item

variable {rt : Runtime} {conn : Conn} {P : DbTask → Prop}

theorem pushQueue_closed {α : Type} (q : Fifo α) (x : α) (alloc : Bool)
    : (pushQueue q x alloc).1.closed = q.closed := by
  unfold pushQueue
  split
  . rw [Fifo.push_closed]
  . rfl

theorem items_pushQueue_of_closed {α : Type} {q : Fifo α} (x : α) (alloc : Bool)
    (h : q.closed = true) : (pushQueue q x alloc).1.items = q.items := by
  rcases pushQueue_cases q x alloc with ⟨_, _, hopen⟩ | ⟨hpush, _⟩
  . rw [h] at hopen
    cases hopen
  . rw [hpush]

theorem mem_items_pushQueue {α : Type} {q : Fifo α} {x y : α} {alloc : Bool}
    (h : y ∈ (pushQueue q x alloc).1.items) : y ∈ q.items ∨ y = x := by
  rcases pushQueue_cases q x alloc with ⟨hpush, _⟩ | ⟨hpush, _⟩
  . rw [hpush] at h
    simpa using h
  . rw [hpush] at h
    exact Or.inl h

theorem orderly_createRuntime {n : Int} (h : createRuntime n = some rt) : rt.Orderly := by
  unfold createRuntime at h
  split at h
  . cases h
  . cases h
    constructor
    all_goals simp [Fifo.empty]

theorem dbTasks_createRuntime {n : Int} (h : createRuntime n = some rt) : rt.DbTasks P := by
  unfold createRuntime at h
  split at h
  . cases h
  . cases h
    constructor
    all_goals simp [Fifo.empty]

section Step

theorem Orderly.setWorker (h : rt.Orderly) {i : Nat} {w w' : WorkerState}
    (hw : rt.workers[i]? = some w) (hne : w ≠ .exited)
    (hexited : w' = .exited → rt.requestQueue.items = [] ∧ rt.requestQueue.closed = true)
    : { rt with workers := rt.workers.set i w' }.Orderly where
  workerExited := by
    intro hmem
    rcases List.mem_or_eq_of_mem_set hmem with hmem | heq
    . exact h.workerExited hmem
    . exact hexited heq.symm
  responseClosed := by
    intro hclosed
    exact absurd (h.responseClosed hclosed w (List.mem_of_getElem? hw)) hne
  dispatcherExited := h.dispatcherExited
  dbClosed := h.dbClosed
  dbWorkerExited := h.dbWorkerExited

theorem Orderly.takeRequest (h : rt.Orderly) {task : Ticketed WorkerTask}
    {tasks : List (Ticketed WorkerTask)} (hitems : rt.requestQueue.items = task :: tasks)
    : { rt with requestQueue := { rt.requestQueue with items := tasks } }.Orderly where
  workerExited := by
    intro hmem
    rw [(h.workerExited hmem).1] at hitems
    cases hitems
  responseClosed := h.responseClosed
  dispatcherExited := h.dispatcherExited
  dbClosed := h.dbClosed
  dbWorkerExited := h.dbWorkerExited

theorem Orderly.pushRequest (h : rt.Orderly) (task : Ticketed WorkerTask) (alloc : Bool)
    : { rt with requestQueue := (pushQueue rt.requestQueue task alloc).1 }.Orderly where
  workerExited := by
    intro hmem
    have ⟨hitems, hclosed⟩ := h.workerExited hmem
    dsimp only
    rw [pushQueue_closed, items_pushQueue_of_closed task alloc hclosed]
    exact ⟨hitems, hclosed⟩
  responseClosed := h.responseClosed
  dispatcherExited := h.dispatcherExited
  dbClosed := h.dbClosed
  dbWorkerExited := h.dbWorkerExited

theorem Orderly.pushResponse (h : rt.Orderly) (resp : Ticketed Response) (alloc : Bool)
    : { rt with responseQueue := (pushQueue rt.responseQueue resp alloc).1 }.Orderly where
  workerExited := h.workerExited
  responseClosed := by
    dsimp only
    rw [pushQueue_closed]
    exact h.responseClosed
  dispatcherExited := by
    intro hexited
    have ⟨hitems, hclosed⟩ := h.dispatcherExited hexited
    dsimp only
    rw [pushQueue_closed, items_pushQueue_of_closed resp alloc hclosed]
    exact ⟨hitems, hclosed⟩
  dbClosed := h.dbClosed
  dbWorkerExited := h.dbWorkerExited

theorem Orderly.workerStep (h : rt.Orderly) (i : Nat) (env : TransferEnv) (alloc : Bool)
    : (rt.workerStep i env alloc).Orderly := by
  unfold Runtime.workerStep
  cases hw : rt.workers[i]? with
  | none => exact h
  | some w =>
    cases w with
    | waiting =>
      dsimp only
      rcases pop_cases rt.requestQueue with ⟨task, tasks, hitems, hpop⟩ | ⟨hitems, hclosed, hpop⟩ | ⟨_, _, hpop⟩
      . rw [hpop]
        exact (h.takeRequest hitems).setWorker hw (by simp) (by simp)
      . rw [hpop]
        exact h.setWorker hw (by simp) (fun _ => ⟨hitems, hclosed⟩)
      . rw [hpop]
        exact h
    | executing task =>
      dsimp only
      split
      . exact h.setWorker hw (by simp) (by simp)
      . exact h.setWorker hw (by simp) (by simp)
    | pushing resp => exact (h.pushResponse resp alloc).setWorker hw (by simp) (by simp)
    | exited => exact h

theorem Orderly.takeResponse (h : rt.Orderly) {resp : Ticketed Response}
    {resps : List (Ticketed Response)} (hitems : rt.responseQueue.items = resp :: resps)
    {d : DispatcherState} (hd : d ≠ .exited)
    : { rt with
        responseQueue := { rt.responseQueue with items := resps }
        dispatcher := d
      }.Orderly where
  workerExited := h.workerExited
  responseClosed := h.responseClosed
  dispatcherExited := fun hexited => absurd hexited hd
  dbClosed := by
    intro hclosed
    rw [(h.dispatcherExited (h.dbClosed hclosed)).1] at hitems
    cases hitems
  dbWorkerExited := h.dbWorkerExited

theorem Orderly.pushDbTask (h : rt.Orderly) (task : Ticketed DbTask) (alloc : Bool)
    : { rt with dbQueue := (pushQueue rt.dbQueue task alloc).1 }.Orderly where
  workerExited := h.workerExited
  responseClosed := h.responseClosed
  dispatcherExited := h.dispatcherExited
  dbClosed := by
    dsimp only
    rw [pushQueue_closed]
    exact h.dbClosed
  dbWorkerExited := by
    intro hexited
    have ⟨hitems, hclosed⟩ := h.dbWorkerExited hexited
    dsimp only
    rw [pushQueue_closed, items_pushQueue_of_closed task alloc hclosed]
    exact ⟨hitems, hclosed⟩

theorem Orderly.dispatcherStep (h : rt.Orderly) (alloc : Bool)
    : (rt.dispatcherStep alloc).Orderly := by
  unfold Runtime.dispatcherStep
  cases hd : rt.dispatcher with
  | waiting =>
    dsimp only
    rcases pop_cases rt.responseQueue with ⟨resp, resps, hitems, hpop⟩ | ⟨hitems, hclosed, hpop⟩ | ⟨_, _, hpop⟩
    . rw [hpop]
      apply h.takeResponse hitems
      cases alloc <;> simp
    . rw [hpop]
      exact {
        workerExited := h.workerExited
        responseClosed := h.responseClosed
        dispatcherExited := fun _ => ⟨hitems, hclosed⟩
        dbClosed := fun _ => rfl
        dbWorkerExited := h.dbWorkerExited
      }
    . rw [hpop]
      exact h
  | pushing task =>
    have hpush := h.pushDbTask task alloc
    exact {
      workerExited := hpush.workerExited
      responseClosed := hpush.responseClosed
      dispatcherExited := by simp
      dbClosed := by
        intro hclosed
        have := hpush.dbClosed hclosed
        rw [hd] at this
        cases this
      dbWorkerExited := hpush.dbWorkerExited
    }
  | exited => exact h

theorem Orderly.takeDbTask (h : rt.Orderly) (task : Ticketed DbTask) (tasks : List (Ticketed DbTask))
    : { rt with
        dbQueue := { rt.dbQueue with items := tasks }
        dbWorker := .executing task
      }.Orderly where
  workerExited := h.workerExited
  responseClosed := h.responseClosed
  dispatcherExited := h.dispatcherExited
  dbClosed := h.dbClosed
  dbWorkerExited := by simp

theorem Orderly.dbWorkerStep (h : rt.Orderly) (hnone : rt.DbTasks (· ≠ .shutdown)) (conn : Conn)
    (es : List CallEnv) : (rt.dbWorkerStep conn es).1.Orderly := by
  unfold Runtime.dbWorkerStep
  cases hd : rt.dbWorker with
  | waiting =>
    dsimp only
    rcases pop_cases rt.dbQueue with ⟨task, tasks, _, hpop⟩ | ⟨hitems, hclosed, hpop⟩ | ⟨_, _, hpop⟩
    . rw [hpop]
      exact h.takeDbTask task tasks
    . rw [hpop]
      exact { h with dbWorkerExited := fun _ => ⟨hitems, hclosed⟩ }
    . rw [hpop]
      exact h
  | executing task =>
    dsimp only
    split <;> [skip; split]
    . next hitem => exact absurd hitem (hnone.dbWorker task hd)
    . exact { h with dbWorkerExited := by simp }
    . exact h
  | exited => exact h

theorem DbTasks.workerStep (h : rt.DbTasks P) (i : Nat) (env : TransferEnv) (alloc : Bool)
    : (rt.workerStep i env alloc).DbTasks P := by
  rw [workerStep_frame]
  exact ⟨h.dbQueue, h.dispatcher, h.dbWorker⟩

theorem DbTasks.pushDbTask (h : rt.DbTasks P) {task : Ticketed DbTask} (htask : P task.item)
    (alloc : Bool) : { rt with dbQueue := (pushQueue rt.dbQueue task alloc).1 }.DbTasks P where
  dbQueue := by
    intro task' hmem
    cases mem_items_pushQueue hmem with
    | inl hmem => exact h.dbQueue task' hmem
    | inr heq =>
      rw [heq]
      exact htask
  dispatcher := h.dispatcher
  dbWorker := h.dbWorker

theorem DbTasks.dispatcherStep (h : rt.DbTasks P) (hP : ∀ resp, P (.saveResponse (some resp)))
    (alloc : Bool) : (rt.dispatcherStep alloc).DbTasks P := by
  unfold Runtime.dispatcherStep
  cases hd : rt.dispatcher with
  | waiting =>
    dsimp only
    rcases pop_cases rt.responseQueue with ⟨resp, resps, _, hpop⟩ | ⟨_, _, hpop⟩ | ⟨_, _, hpop⟩
    . rw [hpop]
      refine ⟨h.dbQueue, ?_, h.dbWorker⟩
      intro task htask
      dsimp only at htask
      split at htask
      . cases htask
        exact hP resp.item
      . cases htask
    . rw [hpop]
      exact ⟨h.dbQueue, by simp, h.dbWorker⟩
    . rw [hpop]
      exact h
  | pushing task =>
    have hpush := h.pushDbTask (h.dispatcher task hd) alloc
    exact ⟨hpush.dbQueue, by simp, hpush.dbWorker⟩
  | exited => exact h

theorem DbTasks.dbWorkerStep (h : rt.DbTasks P) (conn : Conn) (es : List CallEnv)
    : (rt.dbWorkerStep conn es).1.DbTasks P := by
  unfold Runtime.dbWorkerStep
  cases hd : rt.dbWorker with
  | waiting =>
    dsimp only
    rcases pop_cases rt.dbQueue with ⟨task, tasks, hitems, hpop⟩ | ⟨_, _, hpop⟩ | ⟨_, _, hpop⟩
    . rw [hpop]
      have hqueue := h.dbQueue
      rw [hitems] at hqueue
      refine ⟨fun task' hmem => hqueue task' (List.mem_cons_of_mem _ hmem), h.dispatcher, ?_⟩
      intro task' htask
      cases htask
      exact hqueue task (List.mem_cons_self ..)
    . rw [hpop]
      exact ⟨h.dbQueue, h.dispatcher, by simp⟩
    . rw [hpop]
      exact h
  | executing task =>
    dsimp only
    split <;> [skip; split]
    . exact ⟨h.dbQueue, h.dispatcher, by simp⟩
    . exact ⟨h.dbQueue, h.dispatcher, by simp⟩
    . exact h
  | exited => exact h

theorem DbTasks.dbWorkerStep_tables (h : rt.DbTasks (fun task => ∃ resp, task = .saveResponse (some resp)))
    (conn : Conn) (es : List CallEnv)
    : (rt.dbWorkerStep conn es).2.db.collections = conn.db.collections ∧
        (rt.dbWorkerStep conn es).2.db.requests = conn.db.requests := by
  unfold Runtime.dbWorkerStep
  cases hd : rt.dbWorker with
  | waiting =>
    dsimp only
    split <;> exact ⟨rfl, rfl⟩
  | executing task =>
    rcases h.dbWorker task hd with ⟨resp, hresp⟩
    simp only [hresp, dbTaskProg, Prog.run_map]
    rcases dbSaveResponse_cases resp es conn with hrun | ⟨env, _, hrun⟩
    . rw [hrun]
      exact ⟨rfl, rfl⟩
    . rw [hrun]
      exact ⟨rfl, rfl⟩
  | exited => exact ⟨rfl, rfl⟩

/-- Only an update without a payload and a row with lengths that are not its own make the DB worker crash. -/
def Safe (task : DbTask) : Prop := task ≠ .updateStatus none ∧ task ≠ .getNextRequest

theorem ne_crashed_of_safe {task : DbTask} (h : Safe task) (es : List CallEnv)
    : ((dbTaskProg task).run answer es conn).1 ≠ .crashed := by
  unfold dbTaskProg
  cases task with
  | updateStatus payload =>
    cases payload with
    | none => exact absurd rfl h.1
    | some payload => simp [Prog.run_map]
  | getNextRequest => exact absurd rfl h.2
  | shutdown => simp
  | _ => simp [Prog.run_map]

theorem DbTasks.not_crashes (h : rt.DbTasks P) (hP : ∀ task, P task → Safe task) (es : List CallEnv)
    : rt.crashes conn es = false := by
  unfold crashes
  cases hd : rt.dbWorker with
  | executing task =>
    dsimp only
    rw [decide_eq_false_iff_not]
    exact ne_crashed_of_safe (hP _ (h.dbWorker task hd)) es
  | waiting => rfl
  | exited => rfl

theorem Orderly.step (h : rt.Orderly) (hnone : rt.DbTasks (· ≠ .shutdown)) (act : Action)
    : (rt.step conn act).1.Orderly := by
  cases act with
  | worker i env alloc => exact h.workerStep i env alloc
  | dispatcher alloc => exact h.dispatcherStep alloc
  | dbWorker es => exact h.dbWorkerStep hnone conn es

theorem DbTasks.step (h : rt.DbTasks P) (hP : ∀ resp, P (.saveResponse (some resp))) (act : Action)
    : (rt.step conn act).1.DbTasks P := by
  cases act with
  | worker i env alloc => exact h.workerStep i env alloc
  | dispatcher alloc => exact h.dispatcherStep hP alloc
  | dbWorker es => exact h.dbWorkerStep conn es

theorem DbTasks.dispatchWorker (h : rt.DbTasks P) (task : Ticketed WorkerTask) (alloc : Bool)
    : (rt.dispatchTask (.worker task) alloc).1.DbTasks P :=
  ⟨h.dbQueue, h.dispatcher, h.dbWorker⟩

theorem DbTasks.of_some (h : rt.DbTasks P) : ∀ rt', some rt = some rt' → rt'.DbTasks P := by
  intro rt' heq
  cases heq
  exact h

theorem DbTasks.destroyStart (h : rt.DbTasks P) : rt.destroyStart.1.DbTasks P :=
  ⟨h.dbQueue, h.dispatcher, h.dbWorker⟩

theorem DbTasks.destroyStep (h : rt.DbTasks P) (phase : DestroyPhase)
    : (rt.destroyStep phase).1.DbTasks P := by
  unfold Runtime.destroyStep
  split
  . split
    . split <;> exact h
    . exact ⟨h.dbQueue, h.dispatcher, h.dbWorker⟩
  . split
    . exact ⟨h.dbQueue, h.dispatcher, h.dbWorker⟩
    . exact h
  . split <;> exact h
  . exact h

theorem carried_destroyStep (rt : Runtime) (phase : DestroyPhase)
    : (rt.destroyStep phase).1.carried = rt.carried ∧ (rt.destroyStep phase).1.saved = rt.saved := by
  unfold Runtime.destroyStep
  split
  . split
    . split <;> exact ⟨rfl, rfl⟩
    . exact ⟨rfl, rfl⟩
  . split <;> exact ⟨rfl, rfl⟩
  . split <;> exact ⟨rfl, rfl⟩
  . exact ⟨rfl, rfl⟩

end Step

section Ended

theorem length_workers_step (act : Action)
    : (rt.step conn act).1.workers.length = rt.workers.length := by
  rcases @workers_step rt conn act with hsame | ⟨i, w, w', _, _, hset⟩
  . rw [hsame]
  . rw [hset, List.length_set]

theorem exited_step {j : Nat} (h : rt.workers[j]? = some .exited) (act : Action)
    : (rt.step conn act).1.workers[j]? = some .exited := by
  rcases @workers_step rt conn act with hsame | ⟨i, w, w', hw, hne, hset⟩
  . rw [hsame]
    exact h
  . rw [hset, List.getElem?_set_ne]
    . exact h
    . intro heq
      rw [heq, h, Option.some.injEq] at hw
      exact hne hw.symm

theorem dbWorker_exited_step (h : rt.dbWorker = .exited) (act : Action)
    : (rt.step conn act).1.dbWorker = .exited := by
  cases act with
  | worker i env alloc =>
    unfold step
    dsimp only
    rw [workerStep_frame]
    exact h
  | dispatcher alloc =>
    unfold step
    dsimp only
    rw [dispatcherStep_frame]
    exact h
  | dbWorker es => simp only [step, dbWorkerStep, h]

-- When the DB worker ended, everything before it ended.
theorem Orderly.ended (h : rt.Orderly) (hworkers : rt.workers ≠ []) (hended : rt.dbWorker = .exited)
    : (∀ w ∈ rt.workers, w = .exited) ∧ rt.dispatcher = .exited ∧ rt.requestQueue.items = [] ∧
        rt.responseQueue.items = [] ∧ rt.dbQueue.items = [] := by
  have ⟨hdb, hdbClosed⟩ := h.dbWorkerExited hended
  have hdispatcher := h.dbClosed hdbClosed
  have ⟨hresponse, hresponseClosed⟩ := h.dispatcherExited hdispatcher
  have hall := h.responseClosed hresponseClosed
  have hmem : .exited ∈ rt.workers := by
    cases hlist : rt.workers with
    | nil => exact absurd hlist hworkers
    | cons w ws =>
      have := hall w (by simp [hlist])
      simp [this]
  exact ⟨hall, hdispatcher, (h.workerExited hmem).1, hresponse, hdb⟩

/-- When the DB worker ended, everything before it ended and nothing is under way. -/
theorem Orderly.rest (h : rt.Orderly) (hworkers : rt.workers ≠ []) (hended : rt.dbWorker = .exited)
    : rt.requestQueue.items = [] ∧ rt.responseQueue.items = [] ∧ rt.dbQueue.items = [] ∧
        rt.carried = rt.saved.map (fun entry => (entry.ticket, entry.requestId)) := by
  have ⟨hall, hdispatcher, hrequest, hresponse, hdb⟩ := h.ended hworkers hended
  refine ⟨hrequest, hresponse, hdb, ?_⟩
  have hnone : rt.workers.filterMap WorkerState.carried = [] := by
    rw [List.filterMap_eq_nil_iff]
    intro w hw
    rw [hall w hw]
    rfl
  have hsaved : rt.saved.filterMap carriedBySaved =
      rt.saved.map (fun entry => (entry.ticket, entry.requestId)) :=
    congrFun List.filterMap_eq_map' rt.saved
  unfold carried
  rw [hrequest, hresponse, hdb, hnone, hdispatcher, hended, hsaved]
  rfl

end Ended

/-- What the owner knows of the threads in a phase of `destroy_runtime`. -/
def Joined (rt : Runtime) (phase : DestroyPhase) : Prop :=
  match phase with
  | .joinWorkers i => ∀ j < i, rt.workers[j]? = some .exited
  | .joinDispatcher => True
  | .joinDbWorker => True
  | .returned => rt.dbWorker = .exited

section Destroy

variable {phase : DestroyPhase}

theorem Orderly.destroyStart (h : rt.Orderly) : rt.destroyStart.1.Orderly :=
  { h with workerExited := fun hmem => ⟨(h.workerExited hmem).1, rfl⟩ }

theorem Joined.destroyStart (rt : Runtime) : rt.destroyStart.1.Joined rt.destroyStart.2 :=
  fun j hj => absurd hj (Nat.not_lt_zero j)

theorem Orderly.destroyStep (h : rt.Orderly) (hjoined : rt.Joined phase)
    : (rt.destroyStep phase).1.Orderly := by
  cases phase with
  | joinWorkers i =>
    unfold Runtime.destroyStep
    dsimp only
    split
    . split <;> exact h
    . next hge =>
      exact {
        h with
        responseClosed := by
          intro _ w hw
          obtain ⟨j, hj⟩ := List.mem_iff_getElem?.mp hw
          have hlt : j < rt.workers.length := (List.getElem?_eq_some_iff.mp hj).1
          rw [hjoined j (by omega), Option.some.injEq] at hj
          exact hj.symm
        dispatcherExited := fun hexited => ⟨(h.dispatcherExited hexited).1, rfl⟩
      }
  | joinDispatcher =>
    unfold Runtime.destroyStep
    dsimp only
    split
    . next hexited =>
      exact {
        h with
        dbClosed := fun _ => hexited
        dbWorkerExited := fun hended => ⟨(h.dbWorkerExited hended).1, rfl⟩
      }
    . exact h
  | joinDbWorker =>
    unfold Runtime.destroyStep
    dsimp only
    split <;> exact h
  | returned => exact h

theorem Joined.destroyStep (h : rt.Joined phase)
    : (rt.destroyStep phase).1.Joined (rt.destroyStep phase).2 := by
  cases phase with
  | joinWorkers i =>
    unfold Runtime.destroyStep
    dsimp only
    split
    . split
      . next hexited =>
        intro j hj
        by_cases hji : j = i
        . rw [hji]
          exact hexited
        . exact h j (by omega)
      . exact h
    . trivial
  | joinDispatcher =>
    unfold Runtime.destroyStep
    dsimp only
    split <;> trivial
  | joinDbWorker =>
    unfold Runtime.destroyStep
    dsimp only
    split
    . next hended => exact hended
    . trivial
  | returned => exact h

theorem Joined.step (h : rt.Joined phase) (act : Action) : (rt.step conn act).1.Joined phase := by
  cases phase with
  | joinWorkers i => exact fun j hj => exited_step (h j hj) act
  | joinDispatcher => trivial
  | joinDbWorker => trivial
  | returned => exact dbWorker_exited_step h act

end Destroy

end Runtime
end HttpRuntime
