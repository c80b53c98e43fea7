import HttpRuntime.Core.DbManager.Responses
import HttpRuntime.Core.Runtime.Basic
import Mathlib.Data.List.Forall2

/-!
This module contains what a runtime carries: the ticket and the request id of every task, wherever
in the pipeline the task or its response is. A step moves them on and drops one only where an
allocation, a closed queue or the database gives it up.
-/

open Lib Lib.Sql

namespace HttpRuntime

abbrev Carried := Nat × Int

def carriedByTask (task : Ticketed WorkerTask) : Option Carried :=
  task.item.data.map (fun req => (task.ticket, req.id))

def carriedByResponse (resp : Ticketed Response) : Option Carried :=
  some (resp.ticket, resp.item.requestId)

def carriedByDbTask (task : Ticketed DbTask) : Option Carried :=
  match task.item with
  | .saveResponse (some resp) => some (task.ticket, resp.requestId)
  | _ => none

def carriedBySaved (entry : SavedResponse) : Option Carried :=
  some (entry.ticket, entry.requestId)

def WorkerState.carried (w : WorkerState) : Option Carried :=
  match w with
  | .executing task => carriedByTask task
  | .pushing resp => carriedByResponse resp
  | .waiting => none
  | .exited => none

def DispatcherState.carried (d : DispatcherState) : Option Carried :=
  match d with
  | .pushing task => carriedByDbTask task
  | .waiting => none
  | .exited => none

def DbWorkerState.carried (d : DbWorkerState) : Option Carried :=
  match d with
  | .executing task => carriedByDbTask task
  | .waiting => none
  | .exited => none

namespace Runtime

/-- Everything between `dispatch_task` and the responses table, and what arrived there. -/
def carried (rt : Runtime) : List Carried :=
  rt.requestQueue.items.filterMap carriedByTask ++
    rt.workers.filterMap WorkerState.carried ++
    rt.responseQueue.items.filterMap carriedByResponse ++
    rt.dispatcher.carried.toList ++
    rt.dbQueue.items.filterMap carriedByDbTask ++
    rt.dbWorker.carried.toList ++
    rt.saved.filterMap carriedBySaved

end Runtime

section Count

variable {α β : Type} [BEq β] {f : α → Option β} {p : β}

theorem count_filterMap_cons (a : α) (l : List α)
    : ((a :: l).filterMap f).count p = (f a).toList.count p + (l.filterMap f).count p := by
  cases h : f a with
  | none => simp [h]
  | some b =>
    rw [List.filterMap_cons_some h, Option.toList_some, List.count_cons, List.count_singleton]
    omega

theorem count_filterMap_append (l l' : List α)
    : ((l ++ l').filterMap f).count p = (l.filterMap f).count p + (l'.filterMap f).count p := by
  rw [List.filterMap_append, List.count_append]

theorem count_filterMap_set {l : List α} {i : Nat} {a : α} (h : l[i]? = some a) (b : α)
    : ((l.set i b).filterMap f).count p + (f a).toList.count p =
        (l.filterMap f).count p + (f b).toList.count p := by
  induction l generalizing i with
  | nil => simp at h
  | cons c l ih =>
    cases i with
    | zero =>
      rw [List.getElem?_cons_zero, Option.some.injEq] at h
      rw [List.set_cons_zero, count_filterMap_cons, count_filterMap_cons, h]
      omega
    | succ i =>
      rw [List.getElem?_cons_succ] at h
      rw [List.set_cons_succ, count_filterMap_cons, count_filterMap_cons]
      have := ih h
      omega

end Count

theorem pushQueue_cases {α : Type} (q : Fifo α) (x : α) (alloc : Bool)
    : pushQueue q x alloc = ({ q with items := q.items ++ [x] }, true) ∧ alloc = true ∧
          q.closed = false ∨
        pushQueue q x alloc = (q, false) ∧ ¬ (alloc = true ∧ q.closed = false) := by
  unfold pushQueue
  cases alloc with
  | false => simp
  | true =>
    cases hclosed : q.closed with
    | false => simp [Fifo.push_of_open hclosed, hclosed]
    | true => simp [Fifo.push_of_closed hclosed]

theorem pop_cases {α : Type} (q : Fifo α)
    : (∃ x xs, q.items = x :: xs ∧ q.pop = ({ q with items := xs }, .item x)) ∨
        (q.items = [] ∧ q.closed = true ∧ q.pop = (q, .closed)) ∨
        (q.items = [] ∧ q.closed = false ∧ q.pop = (q, .wait)) := by
  cases hitems : q.items with
  | cons x xs => exact Or.inl ⟨x, xs, rfl, Fifo.pop_of_cons hitems⟩
  | nil =>
    cases hclosed : q.closed with
    | true => simp [Fifo.pop_of_nil hitems, hclosed]
    | false => simp [Fifo.pop_of_nil hitems, hclosed]

namespace Runtime

variable {rt : Runtime} {conn : Conn} {p : Carried}

theorem count_carried (rt : Runtime) (p : Carried)
    : rt.carried.count p =
        (rt.requestQueue.items.filterMap carriedByTask).count p +
          (rt.workers.filterMap WorkerState.carried).count p +
          (rt.responseQueue.items.filterMap carriedByResponse).count p +
          rt.dispatcher.carried.toList.count p +
          (rt.dbQueue.items.filterMap carriedByDbTask).count p +
          rt.dbWorker.carried.toList.count p +
          (rt.saved.filterMap carriedBySaved).count p := by
  unfold carried
  simp only [List.count_append]

theorem carried_createRuntime {n : Int} (h : createRuntime n = some rt)
    : rt.carried = [] ∧ rt.saved = [] := by
  unfold createRuntime at h
  split at h
  . cases h
  . cases h
    have hnone : (List.replicate n.toNat WorkerState.waiting).filterMap WorkerState.carried = [] := by
      rw [List.filterMap_eq_nil_iff]
      intro w hw
      rw [List.eq_of_mem_replicate hw]
      rfl
    simp [carried, Fifo.empty, hnone, DispatcherState.carried, DbWorkerState.carried]

-- A response that the DB worker is about to save can be saved.
def dbWorkerSaves (rt : Runtime) (conn : Conn) (es : List CallEnv) : Bool :=
  match rt.dbWorker with
  | .executing ⟨_, .saveResponse (some resp)⟩ =>
    ((dbSaveResponse (some resp)).run answer es conn).1.1 == sqliteOk
  | _ => true

/-- Allocation and `db_save_response` do not fail in this step. -/
def Healthy (rt : Runtime) (conn : Conn) (act : Action) : Prop :=
  match act with
  | .worker _ env alloc => env.calloc = true ∧ alloc = true
  | .dispatcher alloc => alloc = true
  | .dbWorker es => rt.dbWorkerSaves conn es = true

instance (rt : Runtime) (conn : Conn) (act : Action) : Decidable (rt.Healthy conn act) :=
  match act with
  | .worker _ env alloc => inferInstanceAs (Decidable (env.calloc = true ∧ alloc = true))
  | .dispatcher alloc => inferInstanceAs (Decidable (alloc = true))
  | .dbWorker es => inferInstanceAs (Decidable (rt.dbWorkerSaves conn es = true))

def Accepting (rt : Runtime) (act : Action) : Prop :=
  match act with
  | .worker i _ _ =>
    (∃ resp, rt.workers[i]? = some (.pushing resp)) → rt.responseQueue.closed = false
  | .dispatcher _ => (∃ task, rt.dispatcher = .pushing task) → rt.dbQueue.closed = false
  | .dbWorker _ => True

theorem count_carried_workerStep (i : Nat) (env : TransferEnv) (alloc : Bool)
    : (rt.workerStep i env alloc).carried.count p ≤ rt.carried.count p ∧
        (rt.Healthy conn (.worker i env alloc) → rt.Accepting (.worker i env alloc) →
          (rt.workerStep i env alloc).carried.count p = rt.carried.count p) := by
  rw [count_carried, count_carried]
  unfold workerStep
  cases hworker : rt.workers[i]? with
  | none => simp
  | some w =>
    have hset (w' : WorkerState) :=
      count_filterMap_set (f := WorkerState.carried) (p := p) hworker w'
    cases w with
    | waiting =>
      dsimp only
      rcases pop_cases rt.requestQueue with ⟨task, tasks, hitems, hpop⟩ | ⟨_, _, hpop⟩ | ⟨_, _, hpop⟩
      . rw [hpop, hitems]
        dsimp only
        rw [count_filterMap_cons]
        have := hset (.executing task)
        simp only [WorkerState.carried, Option.toList_none, List.count_nil] at this ⊢
        omega
      . rw [hpop]
        have := hset .exited
        simp only [WorkerState.carried, Option.toList_none, List.count_nil] at this ⊢
        omega
      . rw [hpop]
        simp
    | executing task =>
      dsimp only
      cases hresp : httpWorkerTask env task.item.data with
      | some resp =>
        have hcarried : (WorkerState.executing task).carried =
            (WorkerState.pushing ⟨task.ticket, resp⟩).carried := by
          simp only [WorkerState.carried, carriedByTask, carriedByResponse]
          cases hdata : task.item.data with
          | none =>
            rw [hdata] at hresp
            cases hresp
          | some req =>
            rw [hdata] at hresp
            rw [Option.map_some, requestId_httpWorkerTask hresp]
        have := hset (.pushing ⟨task.ticket, resp⟩)
        rw [hcarried] at this
        dsimp only
        omega
      | none =>
        have := hset .waiting
        simp only [WorkerState.carried, Option.toList_none, List.count_nil] at this ⊢
        refine ⟨by omega, ?_⟩
        intro hhealthy _
        cases hdata : task.item.data with
        | none =>
          simp only [carriedByTask, hdata, Option.map_none, Option.toList_none, List.count_nil] at this
          omega
        | some req =>
          rw [hdata] at hresp
          exact absurd hresp (httpWorkerTask_ne_none hhealthy.1)
    | pushing resp =>
      dsimp only
      have := hset .waiting
      rcases pushQueue_cases rt.responseQueue resp alloc with ⟨hpush, _⟩ | ⟨hpush, hreject⟩
      . rw [hpush]
        dsimp only
        rw [count_filterMap_append, count_filterMap_cons]
        simp only [WorkerState.carried, Option.toList_none, List.count_nil, List.filterMap_nil] at this ⊢
        omega
      . rw [hpush]
        simp only [WorkerState.carried, Option.toList_none, List.count_nil] at this ⊢
        refine ⟨by omega, ?_⟩
        intro hhealthy haccepting
        exact absurd ⟨hhealthy.2, haccepting ⟨resp, hworker⟩⟩ hreject
    | exited => simp

theorem count_carried_dispatcherStep (alloc : Bool)
    : (rt.dispatcherStep alloc).carried.count p ≤ rt.carried.count p ∧
        (rt.Healthy conn (.dispatcher alloc) → rt.Accepting (.dispatcher alloc) →
          (rt.dispatcherStep alloc).carried.count p = rt.carried.count p) := by
  rw [count_carried, count_carried]
  unfold dispatcherStep
  cases hdispatcher : rt.dispatcher with
  | waiting =>
    dsimp only
    rcases pop_cases rt.responseQueue with ⟨resp, resps, hitems, hpop⟩ | ⟨_, _, hpop⟩ | ⟨_, _, hpop⟩
    . rw [hpop, hitems]
      dsimp only
      rw [count_filterMap_cons]
      cases alloc with
      | true =>
        simp only [if_true, DispatcherState.carried, carriedByDbTask, carriedByResponse,
          Option.toList_none, List.count_nil]
        omega
      | false =>
        simp only [Bool.false_eq_true, if_false, DispatcherState.carried, Option.toList_none,
          List.count_nil]
        refine ⟨by omega, ?_⟩
        intro hhealthy
        cases hhealthy
    . rw [hpop]
      simp [DispatcherState.carried]
    . rw [hpop]
      simp [hdispatcher]
  | pushing task =>
    dsimp only
    rcases pushQueue_cases rt.dbQueue task alloc with ⟨hpush, _⟩ | ⟨hpush, hreject⟩
    . rw [hpush]
      dsimp only
      rw [count_filterMap_append, count_filterMap_cons]
      simp only [DispatcherState.carried, Option.toList_none, List.count_nil, List.filterMap_nil]
      omega
    . rw [hpush]
      simp only [DispatcherState.carried, Option.toList_none, List.count_nil]
      refine ⟨by omega, ?_⟩
      intro hhealthy haccepting
      exact absurd ⟨hhealthy, haccepting ⟨task, hdispatcher⟩⟩ hreject
  | exited => simp [hdispatcher]

-- What a task carries is recorded, or it was lost.
theorem count_savedBy (task : Ticketed DbTask) (rc : Int) (conn : Conn)
    : ((savedBy task rc conn).filterMap carriedBySaved).count p ≤
          (carriedByDbTask task).toList.count p ∧
        ((∀ resp, task.item = .saveResponse (some resp) → rc = sqliteOk) →
          ((savedBy task rc conn).filterMap carriedBySaved).count p =
            (carriedByDbTask task).toList.count p) := by
  unfold savedBy carriedByDbTask
  generalize task.item = item
  split
  . next resp =>
    by_cases hrc : rc = sqliteOk
    . simp [hrc, carriedBySaved]
    . simp [hrc]
  . simp

theorem count_carried_dbWorkerStep (es : List CallEnv)
    : (rt.dbWorkerStep conn es).1.carried.count p ≤ rt.carried.count p ∧
        (rt.Healthy conn (.dbWorker es) →
          (rt.dbWorkerStep conn es).1.carried.count p = rt.carried.count p) := by
  rw [count_carried, count_carried]
  unfold dbWorkerStep
  cases hdbWorker : rt.dbWorker with
  | waiting =>
    dsimp only
    rcases pop_cases rt.dbQueue with ⟨task, tasks, hitems, hpop⟩ | ⟨_, _, hpop⟩ | ⟨_, _, hpop⟩
    . rw [hpop, hitems]
      dsimp only
      rw [count_filterMap_cons]
      simp only [DbWorkerState.carried, Option.toList_none, List.count_nil]
      omega
    . rw [hpop]
      simp [DbWorkerState.carried]
    . rw [hpop]
      simp [hdbWorker]
  | executing task =>
    dsimp only
    split <;> [skip; split]
    . next hitem =>
      simp [DbWorkerState.carried, carriedByDbTask, hitem]
    . next rc conn' hrun =>
      dsimp only
      rw [count_filterMap_append]
      have hcount := count_savedBy (p := p) task rc conn'
      simp only [DbWorkerState.carried, Option.toList_none, List.count_nil]
      refine ⟨by omega, ?_⟩
      intro hhealthy
      have := hcount.2 (by
        intro resp hitem
        have hexecuting : rt.dbWorker = .executing ⟨task.ticket, .saveResponse (some resp)⟩ := by
          rw [hdbWorker, ← hitem]
        unfold Healthy dbWorkerSaves at hhealthy
        rw [hexecuting] at hhealthy
        rw [hitem] at hrun
        unfold dbTaskProg at hrun
        rw [Prog.run_map, Prod.mk.injEq, Outcome.returned.injEq] at hrun
        rw [← hrun.1]
        exact eq_of_beq hhealthy)
      omega
    . simp [hdbWorker]
  | exited => simp [hdbWorker]

theorem dispatchTask_rejected {task : Ticketed WorkerTask} {alloc : Bool}
    (h : (rt.dispatchTask (.worker task) alloc).2 ≠ orchestratorSuccess)
    : (rt.dispatchTask (.worker task) alloc).1 = rt := by
  unfold dispatchTask at h ⊢
  dsimp only at h ⊢
  rcases pushQueue_cases rt.requestQueue task alloc with ⟨hpush, _⟩ | ⟨hpush, _⟩
  . rw [hpush] at h
    exact absurd rfl h
  . rw [hpush]

theorem mem_carried_dispatchTask {ticket : Nat} {req : Request} {alloc : Bool} {c : Carried}
    (h : c ∈ (rt.dispatchTask (.worker ⟨ticket, ⟨some req⟩⟩) alloc).1.carried)
    : c ∈ rt.carried ∨ c = (ticket, req.id) := by
  unfold dispatchTask at h
  dsimp only at h
  rcases pushQueue_cases rt.requestQueue ⟨ticket, ⟨some req⟩⟩ alloc with ⟨hpush, _⟩ | ⟨hpush, _⟩
  . rw [hpush, ← List.count_pos_iff, count_carried] at h
    dsimp only at h
    rw [count_filterMap_append, count_filterMap_cons] at h
    by_cases hc : c = (ticket, req.id)
    . exact Or.inr hc
    . left
      have hzero : (carriedByTask ⟨ticket, ⟨some req⟩⟩).toList.count c = 0 := by
        rw [List.count_eq_zero]
        simpa [carriedByTask] using hc
      rw [List.filterMap_nil, List.count_nil] at h
      rw [← List.count_pos_iff, count_carried]
      omega
  . rw [hpush] at h
    exact Or.inl h

theorem count_carried_step (act : Action)
    : (rt.step conn act).1.carried.count p ≤ rt.carried.count p ∧
        (rt.Healthy conn act → rt.Accepting act → (rt.step conn act).1.carried.count p = rt.carried.count p) := by
  cases act with
  | worker i env alloc => exact count_carried_workerStep i env alloc
  | dispatcher alloc => exact count_carried_dispatcherStep alloc
  | dbWorker es =>
    refine ⟨(count_carried_dbWorkerStep es).1, ?_⟩
    intro hhealthy _
    exact (count_carried_dbWorkerStep es).2 hhealthy

theorem mem_carried_step {act : Action} {c : Carried} (h : c ∈ (rt.step conn act).1.carried)
    : c ∈ rt.carried := by
  rw [← List.count_pos_iff] at h ⊢
  exact Nat.lt_of_lt_of_le h (count_carried_step act).1

section Saved

theorem responses_dbTaskProg {task : DbTask} (htask : ∀ resp, task ≠ .saveResponse (some resp))
    (es : List CallEnv)
    : ((dbTaskProg task).run answer es conn).2.db.responses = conn.db.responses := by
  cases task with
  | saveCollection coll => exact responses_run (by decide) (calls_dbSaveCollection coll).map es
  | saveRequest req => exact responses_run (by decide) (calls_dbSaveRequest req).map es
  | saveResponse resp =>
    cases resp with
    | none => rfl
    | some resp => exact absurd rfl (htask resp)
  | updateStatus payload =>
    cases payload with
    | none => rfl
    | some payload => exact responses_run (by decide) (calls_dbUpdateRequestStatus _ _).map es
  | getNextRequest =>
    unfold dbTaskProg
    rw [Prog.run_map]
    exact responses_dbGetNextPendingRequest es conn
  | shutdown => rfl

theorem savedBy_of_ne {task : Ticketed DbTask} (htask : ∀ resp, task.item ≠ .saveResponse (some resp))
    (rc : Int) : savedBy task rc conn = [] := by
  unfold savedBy
  split
  . next resp hitem => exact absurd hitem (htask resp)
  . rfl

theorem dbWorkerStep_cases (rt : Runtime) (conn : Conn) (es : List CallEnv)
    : ((rt.dbWorkerStep conn es).1.saved = rt.saved ∧
          (rt.dbWorkerStep conn es).2.db.responses = conn.db.responses) ∨
        ∃ task resp env,
          rt.dbWorker = .executing task ∧
          task.item = .saveResponse (some resp) ∧
          HasRequest conn.db resp.requestId ∧
          (rt.dbWorkerStep conn es).1.saved =
            rt.saved ++ [⟨task.ticket, resp.requestId, conn.db.responses.seq + 1⟩] ∧
          (rt.dbWorkerStep conn es).2 = insertedResponse conn resp env := by
  unfold dbWorkerStep
  cases hdbWorker : rt.dbWorker with
  | waiting =>
    left
    dsimp only
    rcases pop_cases rt.dbQueue with ⟨task, tasks, _, hpop⟩ | ⟨_, _, hpop⟩ | ⟨_, _, hpop⟩
    all_goals
      rw [hpop]
      exact ⟨rfl, rfl⟩
  | executing task =>
    dsimp only
    by_cases htask : ∃ resp, task.item = .saveResponse (some resp)
    . rcases htask with ⟨resp, hitem⟩
      rw [hitem]
      dsimp only
      unfold dbTaskProg savedBy
      rw [hitem]
      simp only [Prog.run_map]
      rcases dbSaveResponse_cases resp es conn with hrun | ⟨env, hhas, hrun⟩
      . left
        rw [hrun]
        exact ⟨by simp [sqliteError, sqliteOk], rfl⟩
      . right
        refine ⟨task, resp, env, rfl, hitem, hhas, ?_⟩
        rw [hrun]
        exact ⟨rfl, rfl⟩
    . left
      rw [not_exists] at htask
      split <;> [skip; split]
      . exact ⟨rfl, rfl⟩
      . next rc conn' hrun =>
        have hresponses := @responses_dbTaskProg conn task.item htask es
        rw [hrun] at hresponses
        dsimp only
        rw [savedBy_of_ne htask, List.append_nil]
        exact ⟨rfl, hresponses⟩
      . exact ⟨rfl, rfl⟩
  | exited => exact Or.inl ⟨rfl, rfl⟩

theorem dbWorkerStep_saveResponse {task : Ticketed DbTask} {resp : Response}
    (htask : rt.dbWorker = .executing task) (hitem : task.item = .saveResponse (some resp))
    (hhas : HasRequest conn.db resp.requestId) (es : List CallEnv)
    : rt.dbWorkerStep conn es =
        if calm 10 es = true ∧ none ∉ responseParams resp then
          ({
            rt with
            dbWorker := .waiting
            saved := rt.saved ++ [⟨task.ticket, resp.requestId, conn.db.responses.seq + 1⟩]
          }, insertedResponse conn resp ((es.drop 9).headD default))
        else
          ({ rt with dbWorker := .waiting }, conn) := by
  unfold dbWorkerStep
  rw [htask]
  dsimp only
  unfold savedBy
  rw [hitem]
  dsimp only
  unfold dbTaskProg
  dsimp only
  rw [Prog.run_map]
  by_cases h : calm 10 es = true ∧ none ∉ responseParams resp
  . rw [if_pos h, dbSaveResponse_of_calm h.1 h.2, if_pos hhas]
    rfl
  . rw [if_neg h]
    rw [not_and_or, Bool.not_eq_true, not_not] at h
    rw [dbSaveResponse_not_calm h]
    dsimp only
    rw [if_neg (by simp [sqliteError, sqliteOk]), List.append_nil]

def Records (entry : SavedResponse) (row : Nat × ResponseRow) : Prop :=
  row.1 = entry.rowId ∧ row.2.requestId = .integer entry.requestId

/-- What was saved since the table had the rows `rows`, one row for an entry. -/
def StoredAs (R : SavedResponse → Nat × ResponseRow → Prop) (rows : List (Nat × ResponseRow))
    (saved : List SavedResponse) (conn : Conn) : Prop :=
  ∃ added, conn.db.responses.rows = rows ++ added ∧ List.Forall₂ R saved added

def StoredSince (rows : List (Nat × ResponseRow)) (saved : List SavedResponse) (conn : Conn) : Prop :=
  StoredAs Records rows saved conn

theorem StoredAs.congr {R : SavedResponse → Nat × ResponseRow → Prop} {rows : List (Nat × ResponseRow)}
    {saved saved' : List SavedResponse} {conn' : Conn} (h : StoredAs R rows saved conn)
    (hsaved : saved' = saved) (hresponses : conn'.db.responses = conn.db.responses)
    : StoredAs R rows saved' conn' := by
  unfold StoredAs
  rw [hsaved, hresponses]
  exact h

theorem StoredSince.congr {rows : List (Nat × ResponseRow)} {saved saved' : List SavedResponse}
    {conn' : Conn} (h : StoredSince rows saved conn) (hsaved : saved' = saved)
    (hresponses : conn'.db.responses = conn.db.responses) : StoredSince rows saved' conn' :=
  StoredAs.congr h hsaved hresponses

theorem saved_workerStep (i : Nat) (env : TransferEnv) (alloc : Bool)
    : (rt.workerStep i env alloc).saved = rt.saved := by
  rw [workerStep_frame]

theorem saved_dispatcherStep (alloc : Bool) : (rt.dispatcherStep alloc).saved = rt.saved := by
  rw [dispatcherStep_frame]

theorem step_keeps (rt : Runtime) (conn : Conn) (act : Action)
    : (∀ entry ∈ rt.saved, entry ∈ (rt.step conn act).1.saved) ∧
        ∀ row ∈ conn.db.responses.rows, row ∈ (rt.step conn act).2.db.responses.rows := by
  cases act with
  | worker i env alloc =>
    simp only [Runtime.step, saved_workerStep]
    exact ⟨fun _ h => h, fun _ h => h⟩
  | dispatcher alloc =>
    simp only [Runtime.step, saved_dispatcherStep]
    exact ⟨fun _ h => h, fun _ h => h⟩
  | dbWorker es =>
    unfold Runtime.step
    dsimp only
    rcases dbWorkerStep_cases rt conn es with ⟨hsaved, hresponses⟩ | ⟨task, resp, env, _, _, _, hsaved, hconn⟩
    . rw [hsaved, hresponses]
      exact ⟨fun _ h => h, fun _ h => h⟩
    . rw [hsaved, hconn]
      refine ⟨fun _ h => List.mem_append_left _ h, ?_⟩
      intro row hrow
      unfold insertedResponse
      rw [Table.rows_insert]
      exact List.mem_append_left _ hrow

-- Only the DB worker stores, and what it stores is the response that it was given.
theorem StoredAs.step {R : SavedResponse → Nat × ResponseRow → Prop} {rows : List (Nat × ResponseRow)}
    (h : StoredAs R rows rt.saved conn)
    (hstores : ∀ task resp rowId createdAt, rt.dbWorker = .executing task →
      task.item = .saveResponse (some resp) →
        R ⟨task.ticket, resp.requestId, rowId⟩ (rowId, responseRow resp createdAt))
    (act : Action) : StoredAs R rows (rt.step conn act).1.saved (rt.step conn act).2 := by
  cases act with
  | worker i env alloc => exact h.congr (saved_workerStep i env alloc) rfl
  | dispatcher alloc => exact h.congr (saved_dispatcherStep alloc) rfl
  | dbWorker es =>
    rcases dbWorkerStep_cases rt conn es with
      ⟨hsaved, hresponses⟩ | ⟨task, resp, env, htask, hitem, _, hsaved, hconn⟩
    . exact h.congr hsaved hresponses
    . rcases h with ⟨added, hrows, hall⟩
      unfold Runtime.step
      dsimp only
      unfold StoredAs
      rw [hsaved, hconn]
      refine ⟨added ++ [(conn.db.responses.seq + 1, responseRow resp env.now)], ?_, ?_⟩
      . unfold insertedResponse
        rw [Table.rows_insert, hrows, List.append_assoc]
      . apply List.rel_append hall
        exact List.Forall₂.cons (hstores task resp _ _ htask hitem) List.Forall₂.nil

theorem StoredSince.step {rows : List (Nat × ResponseRow)} (h : StoredSince rows rt.saved conn)
    (act : Action) : StoredSince rows (rt.step conn act).1.saved (rt.step conn act).2 :=
  StoredAs.step h (fun _ _ _ _ _ _ => ⟨rfl, rfl⟩) act

end Saved

end Runtime

end HttpRuntime
