import HttpRuntime.Core.Runtime.Deadlock

/-!
This module contains a rank for what a runtime has left to do. Every step of a thread that changes the
runtime lowers it, and a thread that `destroy_runtime` waits for can always take such a step.
-/

open Lib

namespace HttpRuntime

theorem sum_map_set {α : Type} (f : α → Nat) {xs : List α} {i : Nat} {x : α} (h : xs[i]? = some x) (y : α)
    : ((xs.set i y).map f).sum + f x = (xs.map f).sum + f y := by
  induction xs generalizing i with
  | nil => cases h
  | cons a xs ih =>
    cases i with
    | zero =>
      rw [List.getElem?_cons_zero, Option.some.injEq] at h
      simp only [List.set_cons_zero, List.map_cons, List.sum_cons, h]
      omega
    | succ i =>
      have hrest := ih (i := i) h
      simp only [List.set_cons_succ, List.map_cons, List.sum_cons]
      omega

theorem length_pushQueue_le {α : Type} (q : Fifo α) (x : α) (alloc : Bool)
    : (pushQueue q x alloc).1.items.length ≤ q.items.length + 1 := by
  unfold pushQueue Fifo.push
  split
  . split
    . exact Nat.le_succ _
    . simp
  . exact Nat.le_succ _

namespace WorkerState

def rank (w : WorkerState) : Nat :=
  match w with
  | .waiting => 1
  | .executing _ => 7
  | .pushing _ => 6
  | .exited => 0

end WorkerState

namespace DispatcherState

def rank (d : DispatcherState) : Nat :=
  match d with
  | .waiting => 1
  | .pushing _ => 4
  | .exited => 0

end DispatcherState

namespace DbWorkerState

def rank (w : DbWorkerState) : Nat :=
  match w with
  | .waiting => 1
  | .executing _ => 2
  | .exited => 0

end DbWorkerState

namespace Runtime

-- A task passes through seven steps of the threads, a response through four, a DB task through two.
def rank (rt : Runtime) : Nat :=
  7 * rt.requestQueue.items.length + 4 * rt.responseQueue.items.length + 2 * rt.dbQueue.items.length +
    (rt.workers.map WorkerState.rank).sum + rt.dispatcher.rank + rt.dbWorker.rank

def Action.thread (act : Action) : Thread :=
  match act with
  | .worker i _ _ => .worker i
  | .dispatcher _ => .dispatcher
  | .dbWorker _ => .dbWorker

-- The thread that `destroy_runtime` waits for.
def awaited (rt : Runtime) (phase : DestroyPhase) : Option Thread :=
  match phase with
  | .joinWorkers i =>
    if i < rt.workers.length && !rt.exited (.worker i) then some (.worker i) else none
  | .joinDispatcher => if rt.exited .dispatcher then none else some .dispatcher
  | .joinDbWorker => if rt.exited .dbWorker then none else some .dbWorker
  | .returned => none

variable {rt : Runtime} {conn : Conn}

section Steps

theorem rank_workerStep (i : Nat) (env : TransferEnv) (alloc : Bool)
    : rt.workerStep i env alloc = rt ∨ (rt.workerStep i env alloc).rank < rt.rank := by
  unfold workerStep
  cases hw : rt.workers[i]? with
  | none => exact Or.inl rfl
  | some w =>
    have hset := fun w' => sum_map_set WorkerState.rank hw w'
    cases w with
    | waiting =>
      dsimp only
      rcases pop_cases rt.requestQueue with ⟨task, tasks, hitems, hpop⟩ | ⟨_, _, hpop⟩ | ⟨_, _, hpop⟩
      . right
        have hset' := hset (.executing task)
        rw [hpop]
        simp only [rank, hitems, List.length_cons, WorkerState.rank] at hset' ⊢
        omega
      . right
        have hset' := hset .exited
        rw [hpop]
        simp only [rank, WorkerState.rank] at hset' ⊢
        omega
      . left
        rw [hpop]
    | executing task =>
      dsimp only
      right
      split
      . next resp _ =>
        have hset' := hset (.pushing ⟨task.ticket, resp⟩)
        simp only [rank, WorkerState.rank] at hset' ⊢
        omega
      . have hset' := hset .waiting
        simp only [rank, WorkerState.rank] at hset' ⊢
        omega
    | pushing resp =>
      right
      have hset' := hset .waiting
      have hlength := length_pushQueue_le rt.responseQueue resp alloc
      simp only [rank, WorkerState.rank] at hset' ⊢
      omega
    | exited => exact Or.inl rfl

theorem rank_dispatcherStep (alloc : Bool)
    : rt.dispatcherStep alloc = rt ∨ (rt.dispatcherStep alloc).rank < rt.rank := by
  unfold dispatcherStep
  cases hd : rt.dispatcher with
  | waiting =>
    dsimp only
    rcases pop_cases rt.responseQueue with ⟨resp, resps, hitems, hpop⟩ | ⟨_, _, hpop⟩ | ⟨_, _, hpop⟩
    . right
      rw [hpop]
      have hnext : (if alloc then .pushing ⟨resp.ticket, .saveResponse (some resp.item)⟩
          else .waiting : DispatcherState).rank ≤ 4 := by
        cases alloc <;> simp [DispatcherState.rank]
      simp only [rank, hitems, hd, List.length_cons, DispatcherState.rank] at hnext ⊢
      omega
    . right
      rw [hpop]
      simp only [rank, hd, DispatcherState.rank]
      omega
    . left
      rw [hpop]
  | pushing task =>
    right
    have hlength := length_pushQueue_le rt.dbQueue task alloc
    simp only [rank, hd, DispatcherState.rank]
    omega
  | exited => exact Or.inl rfl

theorem rank_dbWorkerStep (es : List CallEnv)
    : rt.dbWorkerStep conn es = (rt, conn) ∨ (rt.dbWorkerStep conn es).1.rank < rt.rank := by
  unfold dbWorkerStep
  cases hd : rt.dbWorker with
  | waiting =>
    dsimp only
    rcases pop_cases rt.dbQueue with ⟨task, tasks, hitems, hpop⟩ | ⟨_, _, hpop⟩ | ⟨_, _, hpop⟩
    . right
      rw [hpop]
      simp only [rank, hitems, hd, List.length_cons, DbWorkerState.rank]
      omega
    . right
      rw [hpop]
      simp only [rank, hd, DbWorkerState.rank]
      omega
    . left
      rw [hpop]
  | executing task =>
    dsimp only
    split <;> [skip; split]
    . right
      simp only [rank, hd, DbWorkerState.rank]
      omega
    . right
      simp only [rank, hd, DbWorkerState.rank]
      omega
    . exact Or.inl rfl
  | exited => exact Or.inl rfl

theorem rank_step (act : Action)
    : rt.step conn act = (rt, conn) ∨ (rt.step conn act).1.rank < rt.rank := by
  cases act with
  | worker i env alloc =>
    cases @rank_workerStep rt i env alloc with
    | inl hsame =>
      left
      simp only [step, hsame]
    | inr hless => exact Or.inr hless
  | dispatcher alloc =>
    cases @rank_dispatcherStep rt alloc with
    | inl hsame =>
      left
      simp only [step, hsame]
    | inr hless => exact Or.inr hless
  | dbWorker es => exact rank_dbWorkerStep es

end Steps

section Moves

theorem pop_of_closed {α : Type} {q : Fifo α} (h : q.closed = true)
    : (∃ x xs, q.items = x :: xs ∧ q.pop = ({ q with items := xs }, .item x)) ∨ q.pop = (q, .closed) := by
  rcases pop_cases q with hitem | ⟨_, _, hpop⟩ | ⟨_, hopen, _⟩
  . exact Or.inl hitem
  . exact Or.inr hpop
  . rw [h] at hopen
    cases hopen

/-- A thread of a closed queue never waits: until it ends, each of its steps changes the runtime. -/
theorem step_ne_of_closed (act : Action) (hclosed : rt.queueClosed act.thread.queue = true)
    (hexists : ∀ i, act.thread = .worker i → i < rt.workers.length)
    (hexited : rt.exited act.thread = false) (hreturns : ∀ es, act = .dbWorker es → rt.crashes conn es = false)
    : (rt.step conn act).1 ≠ rt := by
  cases act with
  | worker i env alloc =>
    have hlt : i < rt.workers.length := hexists i rfl
    have hset : ∀ w', rt.workers[i] ≠ w' → rt.workers.set i w' ≠ rt.workers := by
      intro w' hne heq
      have hat := congrArg (fun ws => ws[i]?) heq
      simp only [List.getElem?_set_self hlt, List.getElem?_eq_getElem hlt, Option.some.injEq] at hat
      exact hne hat.symm
    have hat : rt.workers[i]? = some rt.workers[i] := List.getElem?_eq_getElem hlt
    unfold step workerStep
    intro heq
    have hworkers := congrArg Runtime.workers heq
    simp only [hat] at hworkers
    cases hw : rt.workers[i] with
    | waiting =>
      rcases pop_of_closed (q := rt.requestQueue) hclosed with ⟨task, tasks, _, hpop⟩ | hpop
      . rw [hw] at hworkers
        simp only [hpop] at hworkers
        exact hset _ (by simp [hw]) hworkers
      . rw [hw] at hworkers
        simp only [hpop] at hworkers
        exact hset _ (by simp [hw]) hworkers
    | executing task =>
      rw [hw] at hworkers
      dsimp only at hworkers
      split at hworkers
      . exact hset _ (by simp [hw]) hworkers
      . exact hset _ (by simp [hw]) hworkers
    | pushing resp =>
      rw [hw] at hworkers
      exact hset _ (by simp [hw]) hworkers
    | exited =>
      simp [exited, Action.thread, hat, hw] at hexited
  | dispatcher alloc =>
    unfold step dispatcherStep
    intro heq
    have hdispatcher := congrArg Runtime.dispatcher heq
    cases hd : rt.dispatcher with
    | waiting =>
      simp only [hd] at hdispatcher
      rcases pop_of_closed (q := rt.responseQueue) hclosed with ⟨resp, resps, hitems, hpop⟩ | hpop
      . have hqueue := congrArg Runtime.responseQueue heq
        simp only [hd, hpop] at hqueue
        have hlength := congrArg (fun q => q.items.length) hqueue
        simp only [hitems, List.length_cons] at hlength
        omega
      . simp only [hpop] at hdispatcher
        cases hdispatcher
    | pushing task =>
      simp only [hd] at hdispatcher
      cases hdispatcher
    | exited => simp [exited, Action.thread, hd] at hexited
  | dbWorker es =>
    unfold step
    intro heq
    have hdb := congrArg Runtime.dbWorker heq
    cases hd : rt.dbWorker with
    | waiting =>
      simp only [hd, dbWorkerStep] at hdb
      rcases pop_of_closed (q := rt.dbQueue) hclosed with ⟨task, tasks, _, hpop⟩ | hpop
      . simp only [hpop] at hdb
        cases hdb
      . simp only [hpop] at hdb
        cases hdb
    | executing task =>
      by_cases hitem : task.item = .shutdown
      . simp only [hd, dbWorkerStep, hitem] at hdb
        cases hdb
      . rcases dbWorkerStep_returned hd hitem (hreturns es rfl) with ⟨_, _, _, hstep⟩
        simp only [hstep, hd] at hdb
        cases hdb
    | exited => simp [exited, Action.thread, hd] at hexited

theorem rank_step_of_closed (act : Action) (hclosed : rt.queueClosed act.thread.queue = true)
    (hexists : ∀ i, act.thread = .worker i → i < rt.workers.length)
    (hexited : rt.exited act.thread = false) (hreturns : ∀ es, act = .dbWorker es → rt.crashes conn es = false)
    : (rt.step conn act).1.rank < rt.rank := by
  cases @rank_step rt conn act with
  | inl hsame =>
    have hne := @step_ne_of_closed rt conn act hclosed hexists hexited hreturns
    rw [hsame] at hne
    exact absurd rfl hne
  | inr hless => exact hless

end Moves

end Runtime
end HttpRuntime
