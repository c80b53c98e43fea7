import HttpRuntime.Core.Runtime.Rank
import HttpRuntime.Lib.Fairness
import Mathlib.Data.Prod.Lex

/-!
This module contains that the owner of a runtime gets to the end of `destroy_runtime`, or out of
`create_runtime` without a runtime: when it waits for a thread, the thread has only finitely much to
do, whatever sleeps, wakes up on its own or is dispatched in between.
-/

open Lib

namespace HttpRuntime

namespace Runtime

-- What is still to be taken from a queue that accepts nothing any more.
def rest {α : Type} (q : Fifo α) : Nat := if q.closed then q.items.length else 0

/-- What the threads of a queue have left to do once it is closed. -/
def stageRank (rt : Runtime) (q : QueueName) : Nat :=
  match q with
  | .request => 7 * rest rt.requestQueue + (rt.workers.map WorkerState.rank).sum
  | .response => 4 * rest rt.responseQueue + rt.dispatcher.rank
  | .db => 2 * rest rt.dbQueue + rt.dbWorker.rank

variable {rt : Runtime} {conn : Conn}

theorem rest_of_closed {α : Type} {q : Fifo α} (h : q.closed = true) : rest q = q.items.length := by
  unfold rest
  rw [if_pos h]

theorem rest_pushQueue {α : Type} (q : Fifo α) (x : α) (alloc : Bool)
    : rest (pushQueue q x alloc).1 = rest q := by
  unfold rest
  rw [pushQueue_closed]
  split
  . next hclosed => rw [items_pushQueue_of_closed x alloc hclosed]
  . rfl

theorem length_pushQueue_ge {α : Type} (q : Fifo α) (x : α) (alloc : Bool)
    : q.items.length ≤ (pushQueue q x alloc).1.items.length := by
  unfold pushQueue Fifo.push
  split
  . split
    . exact le_refl _
    . simp
  . exact le_refl _

theorem responseQueue_workerStep (i : Nat) (env : TransferEnv) (alloc : Bool)
    : (rt.workerStep i env alloc).responseQueue = rt.responseQueue ∨
        ∃ resp, (rt.workerStep i env alloc).responseQueue = (pushQueue rt.responseQueue resp alloc).1 := by
  unfold workerStep
  split
  . split <;> exact Or.inl rfl
  . split <;> exact Or.inl rfl
  . next resp _ => exact Or.inr ⟨resp, rfl⟩
  . exact Or.inl rfl
  . exact Or.inl rfl

theorem dbQueue_dispatcherStep (alloc : Bool)
    : (rt.dispatcherStep alloc).dbQueue = rt.dbQueue ∨
        ∃ task, (rt.dispatcherStep alloc).dbQueue = (pushQueue rt.dbQueue task alloc).1 := by
  unfold dispatcherStep
  split
  . split <;> exact Or.inl rfl
  . next task _ => exact Or.inr ⟨task, rfl⟩
  . exact Or.inl rfl

/-- A thread of a closed queue brings its stage further, or it changes nothing. -/
theorem stageRank_step (act : Action) (hclosed : rt.queueClosed act.thread.queue = true)
    : rt.step conn act = (rt, conn) ∨
        (rt.step conn act).1.stageRank act.thread.queue < rt.stageRank act.thread.queue := by
  cases @rank_step rt conn act with
  | inl hsame => exact Or.inl hsame
  | inr hless =>
    right
    have hclosed' := (@queueClosed_step rt conn act act.thread.queue).trans hclosed
    cases act with
    | worker i env alloc =>
      have hlength : rt.responseQueue.items.length ≤ (rt.workerStep i env alloc).responseQueue.items.length := by
        rcases @responseQueue_workerStep rt i env alloc with hsame | ⟨resp, hpush⟩
        . rw [hsame]
        . rw [hpush]
          exact length_pushQueue_ge _ _ _
      simp only [step, Action.thread, Thread.queue] at hless hclosed hclosed' ⊢
      simp only [stageRank, rest_of_closed hclosed, rest_of_closed hclosed']
      rw [workerStep_frame] at hless
      simp only [rank] at hless
      omega
    | dispatcher alloc =>
      have hlength : rt.dbQueue.items.length ≤ (rt.dispatcherStep alloc).dbQueue.items.length := by
        rcases @dbQueue_dispatcherStep rt alloc with hsame | ⟨task, hpush⟩
        . rw [hsame]
        . rw [hpush]
          exact length_pushQueue_ge _ _ _
      simp only [step, Action.thread, Thread.queue] at hless hclosed hclosed' ⊢
      simp only [stageRank, rest_of_closed hclosed, rest_of_closed hclosed']
      rw [dispatcherStep_frame] at hless
      simp only [rank] at hless
      omega
    | dbWorker es =>
      simp only [step, Action.thread, Thread.queue] at hless hclosed hclosed' ⊢
      simp only [stageRank, rest_of_closed hclosed, rest_of_closed hclosed']
      rw [dbWorkerStep_frame] at hless
      simp only [rank] at hless
      omega

/-- The threads of the other queues leave a stage as it is. -/
theorem stageRank_step_other (act : Action) {q : QueueName} (hother : act.thread.queue ≠ q)
    : (rt.step conn act).1.stageRank q = rt.stageRank q := by
  cases act with
  | worker i env alloc =>
    simp only [step]
    rw [workerStep_frame]
    cases q with
    | request => exact absurd rfl hother
    | response =>
      simp only [stageRank]
      rcases @responseQueue_workerStep rt i env alloc with hsame | ⟨resp, hpush⟩
      . rw [hsame]
      . rw [hpush, rest_pushQueue]
    | db => rfl
  | dispatcher alloc =>
    simp only [step]
    rw [dispatcherStep_frame]
    cases q with
    | request => rfl
    | response => exact absurd rfl hother
    | db =>
      simp only [stageRank]
      rcases @dbQueue_dispatcherStep rt alloc with hsame | ⟨task, hpush⟩
      . rw [hsame]
      . rw [hpush, rest_pushQueue]
  | dbWorker es =>
    simp only [step]
    rw [dbWorkerStep_frame]
    cases q with
    | request => rfl
    | response => rfl
    | db => exact absurd rfl hother

theorem stageRank_dispatchTask (message : Message) (alloc : Bool) (q : QueueName)
    : (rt.dispatchTask message alloc).1.stageRank q = rt.stageRank q := by
  cases message with
  | db task =>
    cases q with
    | request => rfl
    | response => rfl
    | db => simp only [stageRank, dispatchTask, rest_pushQueue]
  | worker task =>
    cases q with
    | request => simp only [stageRank, dispatchTask, rest_pushQueue]
    | response => rfl
    | db => rfl

/-- Only the thread itself comes to its end, and it stays there. -/
theorem exited_step_other (act : Action) {t : Thread} (hother : act.thread ≠ t)
    : (rt.step conn act).1.exited t = rt.exited t := by
  cases act with
  | worker i env alloc =>
    simp only [step]
    cases t with
    | worker j =>
      have hne : i ≠ j := fun heq => hother (congrArg Thread.worker heq)
      simp only [exited]
      rcases @workers_workerStep rt i env alloc with hsame | ⟨_, _, _, _, hset⟩
      . rw [hsame]
      . rw [hset, List.getElem?_set_ne hne]
    | dispatcher =>
      rw [workerStep_frame]
      rfl
    | dbWorker =>
      rw [workerStep_frame]
      rfl
  | dispatcher alloc =>
    simp only [step]
    rw [dispatcherStep_frame]
    cases t with
    | worker j => rfl
    | dispatcher => exact absurd rfl hother
    | dbWorker => rfl
  | dbWorker es =>
    simp only [step]
    rw [dbWorkerStep_frame]
    cases t with
    | worker j => rfl
    | dispatcher => rfl
    | dbWorker => exact absurd rfl hother

theorem exited_step_self (act : Action) (h : rt.exited act.thread = true)
    : (rt.step conn act).1 = rt := by
  cases act with
  | worker i env alloc =>
    have hw : rt.workers[i]? = some .exited := by simpa [exited, Action.thread] using h
    simp only [step, workerStep, hw]
  | dispatcher alloc =>
    have hd : rt.dispatcher = .exited := by simpa [exited, Action.thread] using h
    simp only [step, dispatcherStep, hd]
  | dbWorker es =>
    have hd : rt.dbWorker = .exited := by simpa [exited, Action.thread] using h
    simp only [step, dbWorkerStep, hd]

theorem exited_dispatchTask (message : Message) (alloc : Bool) (t : Thread)
    : (rt.dispatchTask message alloc).1.exited t = rt.exited t := by
  cases message <;> cases t <;> rfl

end Runtime

namespace OwnerPc

def rank (pc : OwnerPc) : Nat :=
  match pc with
  | .allocRuntime => 16
  | .createDbQueue => 15
  | .createRequestQueue => 14
  | .createResponseQueue => 13
  | .allocThreads => 12
  | .createDbWorker => 11
  | .createDispatcher => 10
  | .createWorkers => 9
  | .running => 8
  | .shutdownRequests => 7
  | .joinWorkers _ => 6
  | .shutdownResponses => 5
  | .joinDispatcher => 4
  | .shutdownDb => 3
  | .joinDbWorker => 2
  | .freeQueues => 1
  | .returned => 0
  | .noRuntime => 0

-- The queue whose threads the owner waits for.
def joins (pc : OwnerPc) : Option QueueName :=
  match pc with
  | .joinWorkers _ => some .request
  | .joinDispatcher => some .response
  | .joinDbWorker => some .db
  | _ => none

def ended (pc : OwnerPc) : Prop := pc = .returned ∨ pc = .noRuntime

theorem closed_of_joins {pc : OwnerPc} {q : QueueName} (h : pc.joins = some q) : pc.closed q = true := by
  cases pc <;> cases h <;> rfl

end OwnerPc

namespace Lifecycle

inductive Actor where
  | owner
  | thread (t : Thread)
  deriving DecidableEq

def Action.actor (act : Action) : Option Actor :=
  match act with
  | .owner _ => some .owner
  | .thread t _ => some (.thread t)
  | .dispatch _ _ _ => none
  | .spurious _ => none

-- The owner, and the threads that it may start.
def Actor.takesPart (numHttpWorker : Int) (actor : Actor) : Prop :=
  match actor with
  | .owner => True
  | .thread (.worker i) => i < numHttpWorker
  | .thread .dispatcher => True
  | .thread .dbWorker => True

def stepOrStay (numHttpWorker : Int) (s : Lifecycle) (act : Action) : Lifecycle :=
  (s.step numHttpWorker act).getD s

-- What is left to do until the owner leaves its place.
def stage (n : Int) (s : Lifecycle) : Nat :=
  match s.owner with
  | .createWorkers => (n - s.rt.workers.length).toNat
  | .joinWorkers i => s.rt.stageRank .request + (s.rt.workers.length - i)
  | .joinDispatcher => s.rt.stageRank .response
  | .joinDbWorker => s.rt.stageRank .db
  | _ => 0

def rank (n : Int) (s : Lifecycle) : ℕ ×ₗ ℕ := toLex (s.owner.rank, s.stage n)

-- The thread that the owner waits for.
def awaited (s : Lifecycle) : Option Thread :=
  match s.owner with
  | .joinWorkers i =>
    if i < s.rt.workers.length && !s.rt.exited (.worker i) then some (.worker i) else none
  | .joinDispatcher =>
    if s.dispatcherStarted && !s.rt.exited .dispatcher then some .dispatcher else none
  | .joinDbWorker =>
    if s.dbWorkerStarted && !s.rt.exited .dbWorker then some .dbWorker else none
  | _ => none

/-- Whose step brings the owner nearer to its end. -/
def Helpful (actor : Actor) (s : Lifecycle) : Prop :=
  match actor with
  | .owner => s.awaited = none
  | .thread t => s.awaited = some t

structure Going (n : Int) (s : Lifecycle) : Prop where
  inv : s.Inv
  workers : ∀ i, i < s.rt.workers.length → (i : Int) < n

variable {s s' : Lifecycle} {n : Int}

theorem rank_lt_of_owner (h : s'.owner.rank < s.owner.rank) : s'.rank n < s.rank n :=
  Prod.Lex.toLex_lt_toLex.mpr (Or.inl h)

theorem rank_lt_of_stage (howner : s'.owner = s.owner) (h : s'.stage n < s.stage n)
    : s'.rank n < s.rank n :=
  Prod.Lex.toLex_lt_toLex.mpr (Or.inr ⟨congrArg OwnerPc.rank howner, h⟩)

-- A stage depends only on the threads that the owner waits for.
theorem rank_frame_le {rt : Runtime} {conn : Conn} {asleep : List Thread}
    (hlength : rt.workers.length = s.rt.workers.length)
    (h : ∀ q, s.owner.joins = some q → rt.stageRank q ≤ s.rt.stageRank q)
    : rank n { s with rt := rt, conn := conn, asleep := asleep } ≤ s.rank n := by
  apply Prod.Lex.toLex_le_toLex.mpr
  right
  refine ⟨rfl, ?_⟩
  unfold stage
  dsimp only
  cases hpc : s.owner with
  | createWorkers => rw [hlength]
  | joinWorkers i =>
    have hle := h .request (by rw [hpc]; rfl)
    dsimp only
    omega
  | joinDispatcher => exact h .response (by rw [hpc]; rfl)
  | joinDbWorker => exact h .db (by rw [hpc]; rfl)
  | _ => exact le_refl _

theorem rank_frame_lt {rt : Runtime} {conn : Conn} {asleep : List Thread}
    (hlength : rt.workers.length = s.rt.workers.length) {q : QueueName}
    (hjoins : s.owner.joins = some q) (h : rt.stageRank q < s.rt.stageRank q)
    : rank n { s with rt := rt, conn := conn, asleep := asleep } < s.rank n := by
  apply Prod.Lex.toLex_lt_toLex.mpr
  right
  refine ⟨rfl, ?_⟩
  unfold stage
  dsimp only
  cases hpc : s.owner with
  | joinWorkers i =>
    rw [hpc] at hjoins
    cases hjoins
    dsimp only
    omega
  | joinDispatcher =>
    rw [hpc] at hjoins
    cases hjoins
    exact h
  | joinDbWorker =>
    rw [hpc] at hjoins
    cases hjoins
    exact h
  | _ =>
    rw [hpc] at hjoins
    cases hjoins

section Threads

theorem mem_threads_of_alive {t : Thread} (h : s.alive t = true) : t ∈ s.threads := by
  unfold alive at h
  cases t with
  | worker i =>
    simp only [Bool.and_eq_true, decide_eq_true_eq] at h
    exact mem_threads_worker h.1
  | dispatcher =>
    rw [Bool.and_eq_true] at h
    exact mem_threads_dispatcher h.1
  | dbWorker =>
    rw [Bool.and_eq_true] at h
    exact mem_threads_dbWorker h.1

theorem awaited_alive {t : Thread} (h : s.awaited = some t)
    : s.alive t = true ∧ s.owner.joins = some t.queue := by
  unfold awaited at h
  cases hpc : s.owner with
  | joinWorkers i =>
    simp only [hpc, Option.ite_none_right_eq_some, Option.some.injEq] at h
    rw [← h.2]
    exact ⟨h.1, rfl⟩
  | joinDispatcher =>
    simp only [hpc, Option.ite_none_right_eq_some, Option.some.injEq] at h
    rw [← h.2]
    exact ⟨h.1, rfl⟩
  | joinDbWorker =>
    simp only [hpc, Option.ite_none_right_eq_some, Option.some.injEq] at h
    rw [← h.2]
    exact ⟨h.1, rfl⟩
  | _ => simp [hpc] at h

theorem exited_of_alive {t : Thread} (h : s.alive t = true) : s.rt.exited t = false := by
  unfold alive at h
  cases t with
  | worker i =>
    rw [Bool.and_eq_true, Bool.not_eq_true'] at h
    exact h.2
  | dispatcher =>
    rw [Bool.and_eq_true, Bool.not_eq_true'] at h
    exact h.2
  | dbWorker =>
    rw [Bool.and_eq_true, Bool.not_eq_true'] at h
    exact h.2

theorem Inv.closed_of_joins (h : s.Inv) {t : Thread} (hmem : t ∈ s.threads)
    (hjoins : s.owner.joins = some t.queue) : s.rt.queueClosed t.queue = true :=
  h.closed t.queue (OwnerPc.closed_of_joins hjoins) (h.queues t hmem)

theorem threadStep_cases {t : Thread} {env : ThreadEnv} (h : s.threadStep t env = some s')
    : s.alive t = true ∧ (s' = { s with asleep := t :: s.asleep } ∨
        ∃ asleep, s' = { s with
          rt := (s.rt.step s.conn (env.action t)).1
          conn := (s.rt.step s.conn (env.action t)).2
          asleep := asleep
        }) := by
  unfold Lifecycle.threadStep at h
  split at h
  . cases h
  . next halive =>
    simp only [Bool.or_eq_true, Bool.not_eq_true', not_or, Bool.not_eq_false] at halive
    refine ⟨halive.1, ?_⟩
    split at h
    . rw [Option.some.injEq] at h
      exact Or.inl h.symm
    . rw [Option.some.injEq] at h
      exact Or.inr ⟨_, h.symm⟩

theorem dispatchStep_eq {message : Message} {alloc : Bool} {wake : Thread}
    (h : s.dispatchStep message alloc wake = some s')
    : ∃ asleep, s' = { s with rt := (s.rt.dispatchTask message alloc).1, asleep := asleep } := by
  unfold Lifecycle.dispatchStep at h
  split at h
  . cases h
  . rw [Option.some.injEq] at h
    exact ⟨_, h.symm⟩

theorem thread_action (env : ThreadEnv) (t : Thread) : (env.action t).thread = t := by
  cases t <;> rfl

theorem rank_threadStep (h : s.Inv) {t : Thread} {env : ThreadEnv} (hstep : s.threadStep t env = some s')
    : s'.rank n ≤ s.rank n := by
  have ⟨halive, hcases⟩ := threadStep_cases hstep
  cases hcases with
  | inl hsleeps =>
    rw [hsleeps]
    exact le_refl _
  | inr hmoves =>
    obtain ⟨asleep, hmoves⟩ := hmoves
    rw [hmoves]
    apply rank_frame_le (Runtime.length_workers_step _)
    intro q hjoins
    by_cases hq : t.queue = q
    . have hclosed := h.closed_of_joins (mem_threads_of_alive halive) (hq ▸ hjoins)
      have hrank := @Runtime.stageRank_step s.rt s.conn (env.action t) (by rw [thread_action]; exact hclosed)
      rw [thread_action, hq] at hrank
      cases hrank with
      | inl hsame => rw [hsame]
      | inr hless => exact Nat.le_of_lt hless
    . apply Nat.le_of_eq
      apply Runtime.stageRank_step_other
      rw [thread_action]
      exact hq

/-- The program crashes in this step. -/
def Crashes (s : Lifecycle) (act : Action) : Prop :=
  match act with
  | .thread .dbWorker env => s.rt.crashes s.conn env.calls = true
  | _ => False

theorem not_crashes_action {t : Thread} {env : ThreadEnv} (h : ¬ s.Crashes (.thread t env))
    : ∀ es, env.action t = .dbWorker es → s.rt.crashes s.conn es = false := by
  intro es hes
  cases t with
  | worker i => cases hes
  | dispatcher => cases hes
  | dbWorker =>
    cases hes
    exact Bool.eq_false_iff.mpr h

/-- The thread that the owner waits for is awake, and each of its steps brings it nearer to its end. -/
theorem rank_threadStep_awaited (h : s.Inv) {t : Thread} (hawaited : s.awaited = some t) {env : ThreadEnv}
    (hreturns : ¬ s.Crashes (.thread t env)) : (s.stepOrStay n (.thread t env)).rank n < s.rank n := by
  have ⟨halive, hjoins⟩ := awaited_alive hawaited
  have hclosed := h.closed_of_joins (mem_threads_of_alive halive) hjoins
  have hawake : t ∉ s.asleep := by
    intro hasleep
    rw [h.asleep t hasleep] at hclosed
    cases hclosed
  have hwaits : s.rt.waits t = false := by
    cases hwaits : s.rt.waits t with
    | false => rfl
    | true =>
      rw [Runtime.open_of_waits hwaits] at hclosed
      cases hclosed
  unfold stepOrStay Lifecycle.step
  dsimp only
  unfold Lifecycle.threadStep
  rw [if_neg (by simp [halive, hawake]), if_neg (by simp [hwaits])]
  rw [Option.getD_some]
  apply rank_frame_lt (Runtime.length_workers_step _) hjoins
  have hrank := @Runtime.stageRank_step s.rt s.conn (env.action t) (by rw [thread_action]; exact hclosed)
  rw [thread_action] at hrank
  cases hrank with
  | inr hless => exact hless
  | inl hsame =>
    have hne := @Runtime.step_ne_of_closed s.rt s.conn (env.action t) (by rw [thread_action]; exact hclosed)
      (by
        intro i hi
        rw [thread_action] at hi
        rw [hi] at halive
        simp only [alive, Bool.and_eq_true, decide_eq_true_eq] at halive
        exact halive.1)
      (by rw [thread_action]; exact exited_of_alive halive) (not_crashes_action hreturns)
    rw [hsame] at hne
    exact absurd rfl hne

end Threads

section Owner

theorem rank_ownerStep {ok : Bool} (hstep : s.ownerStep n ok = some s')
    : s'.rank n < s.rank n := by
  unfold Lifecycle.ownerStep at hstep
  cases hpc : s.owner with
  | createWorkers =>
    simp only [hpc] at hstep
    split at hstep
    . next hlt =>
      split at hstep
      . cases hstep
        apply rank_lt_of_owner
        simp [hpc, Lifecycle.goto, OwnerPc.rank]
      . cases hstep
        apply rank_lt_of_stage
        . rw [hpc]
        . simp only [stage, hpc, List.length_append, List.length_singleton]
          omega
    . cases hstep
      apply rank_lt_of_owner
      simp [hpc, OwnerPc.rank]
  | joinWorkers i =>
    simp only [hpc] at hstep
    split at hstep
    . split at hstep
      . cases hstep
        apply Prod.Lex.toLex_lt_toLex.mpr
        right
        refine ⟨by simp [hpc, OwnerPc.rank], ?_⟩
        simp only [stage, hpc]
        omega
      . cases hstep
    . cases hstep
      apply rank_lt_of_owner
      simp [hpc, Lifecycle.goto, OwnerPc.rank]
  | returned => simp [hpc] at hstep
  | noRuntime => simp [hpc] at hstep
  | running | freeQueues | shutdownRequests | shutdownResponses | shutdownDb =>
    simp only [hpc] at hstep
    cases hstep
    apply rank_lt_of_owner
    simp [hpc, Lifecycle.goto, OwnerPc.rank]
  | joinDispatcher | joinDbWorker =>
    simp only [hpc] at hstep
    split at hstep
    . split at hstep
      . cases hstep
        apply rank_lt_of_owner
        simp [hpc, OwnerPc.rank]
      . cases hstep
    . cases hstep
      apply rank_lt_of_owner
      simp [hpc, Lifecycle.goto, OwnerPc.rank]
  | _ =>
    simp only [hpc] at hstep
    split at hstep <;> [skip; try split at hstep]
    all_goals
      cases hstep
      apply rank_lt_of_owner
      simp [hpc, Lifecycle.goto, OwnerPc.rank]

theorem ownerStep_of_not_awaited (h : s.awaited = none) (hended : ¬ s.owner.ended) (ok : Bool)
    : ∃ s', s.ownerStep n ok = some s' := by
  unfold awaited at h
  rw [← Option.isSome_iff_exists]
  unfold Lifecycle.ownerStep
  unfold OwnerPc.ended at hended
  cases hpc : s.owner with
  | joinWorkers i =>
    by_cases hlt : i < s.rt.workers.length
    . simp [hpc, hlt] at h
      simp [hlt, h]
    . simp [hlt]
  | joinDispatcher =>
    cases hstarted : s.dispatcherStarted with
    | true =>
      simp [hpc, hstarted] at h
      simp [h]
    | false => simp
  | joinDbWorker =>
    cases hstarted : s.dbWorkerStarted with
    | true =>
      simp [hpc, hstarted] at h
      simp [h]
    | false => simp
  | returned => simp [hpc] at hended
  | noRuntime => simp [hpc] at hended
  | running | freeQueues | shutdownRequests | shutdownResponses | shutdownDb => simp
  | createWorkers =>
    dsimp only
    split
    . split <;> rfl
    . rfl
  | _ =>
    dsimp only
    split <;> [skip; try split]
    all_goals rfl

end Owner

section Going

theorem going_start (conn : Conn) : Going n (start conn) where
  inv := inv_start conn
  workers := fun i h => absurd h (Nat.not_lt_zero i)

theorem workers_ownerStep (h : ∀ i, i < s.rt.workers.length → (i : Int) < n) {ok : Bool}
    (hstep : s.ownerStep n ok = some s') : ∀ i, i < s'.rt.workers.length → (i : Int) < n := by
  have hshutdown : ∀ (has : Bool) q, (if has then s.queueShutdown q else s).rt.workers = s.rt.workers := by
    intro has q
    cases has with
    | false => rfl
    | true => exact Runtime.workers_close s.rt q
  unfold Lifecycle.ownerStep at hstep
  cases hpc : s.owner with
  | createWorkers =>
    simp only [hpc] at hstep
    split at hstep
    . next hlt =>
      split at hstep
      . cases hstep
        exact h
      . cases hstep
        intro i hi
        simp only [List.length_append, List.length_singleton] at hi
        omega
    . cases hstep
      exact h
  | shutdownRequests | shutdownResponses | shutdownDb =>
    simp only [hpc] at hstep
    cases hstep
    simp only [Lifecycle.goto, hshutdown]
    exact h
  | joinWorkers i | joinDispatcher | joinDbWorker =>
    simp only [hpc] at hstep
    split at hstep
    . split at hstep
      . cases hstep
        exact h
      . cases hstep
    . cases hstep
      exact h
  | running | freeQueues =>
    simp only [hpc] at hstep
    cases hstep
    exact h
  | returned | noRuntime =>
    simp only [hpc] at hstep
    cases hstep
  | allocRuntime =>
    simp only [hpc] at hstep
    split at hstep <;> [skip; split at hstep]
    all_goals
      cases hstep
      exact h
  | _ =>
    simp only [hpc] at hstep
    split at hstep
    all_goals
      cases hstep
      exact h

theorem Going.step (h : Going n s) (act : Action) : Going n (stepOrStay n s act) := by
  unfold stepOrStay
  cases hstep : s.step n act with
  | none => exact h
  | some s' =>
    refine ⟨h.inv.step hstep, ?_⟩
    rw [Option.getD_some]
    cases act with
    | owner ok => exact workers_ownerStep h.workers hstep
    | thread t env =>
      have ⟨_, hcases⟩ := threadStep_cases hstep
      cases hcases with
      | inl hsleeps =>
        rw [hsleeps]
        exact h.workers
      | inr hmoves =>
        obtain ⟨asleep, hmoves⟩ := hmoves
        rw [hmoves]
        dsimp only
        rw [Runtime.length_workers_step]
        exact h.workers
    | dispatch message alloc wake =>
      obtain ⟨asleep, hdispatched⟩ := dispatchStep_eq hstep
      rw [hdispatched]
      dsimp only
      rw [Runtime.workers_dispatchTask]
      exact h.workers
    | spurious t =>
      cases hstep
      exact h.workers

end Going

section Helps

theorem awaited_eq {rt : Runtime} {conn : Conn} {asleep : List Thread}
    (hlength : rt.workers.length = s.rt.workers.length)
    (h : ∀ t, s.awaited = some t → rt.exited t = false)
    (hexited : ∀ t, s.rt.exited t = true → rt.exited t = true)
    : awaited { s with rt := rt, conn := conn, asleep := asleep } = s.awaited := by
  have hsame : ∀ (here : Bool) t, (here && !s.rt.exited t → s.awaited = some t) →
      (here && !rt.exited t) = (here && !s.rt.exited t) := by
    intro here t hawaited
    cases hbefore : s.rt.exited t with
    | true => rw [hexited t hbefore]
    | false =>
      cases here with
      | false => rfl
      | true => rw [h t (hawaited (by simp [hbefore]))]
  unfold awaited at hsame ⊢
  cases hpc : s.owner with
  | joinWorkers i =>
    simp only [hpc] at hsame ⊢
    rw [hlength, hsame (i < s.rt.workers.length) (.worker i) (fun heq => if_pos heq)]
  | joinDispatcher =>
    simp only [hpc] at hsame ⊢
    rw [hsame s.dispatcherStarted .dispatcher (fun heq => if_pos heq)]
  | joinDbWorker =>
    simp only [hpc] at hsame ⊢
    rw [hsame s.dbWorkerStarted .dbWorker (fun heq => if_pos heq)]
  | _ => rfl

theorem Going.takesPart (h : Going n s) {t : Thread} (hawaited : s.awaited = some t)
    : Actor.takesPart n (.thread t) := by
  have ⟨halive, _⟩ := awaited_alive hawaited
  cases t with
  | worker i =>
    simp only [alive, Bool.and_eq_true, decide_eq_true_eq] at halive
    exact h.workers i halive.1
  | dispatcher => trivial
  | dbWorker => trivial

theorem Going.helpful_exists (h : Going n s) : ∃ actor : Actor, actor.takesPart n ∧ Helpful actor s := by
  cases hawaited : s.awaited with
  | none => exact ⟨.owner, trivial, hawaited⟩
  | some t => exact ⟨.thread t, h.takesPart hawaited, hawaited⟩

/-- The others do not keep a helpful thread from its step, and they never set the owner back. -/
theorem stays_helpful (h : Going n s) {act : Action} (hreturns : ¬ s.Crashes act) {actor : Actor}
    (hhelpful : Helpful actor s)
    : (stepOrStay n s act).rank n < s.rank n ∨
        (stepOrStay n s act).rank n ≤ s.rank n ∧ Helpful actor (stepOrStay n s act) := by
  have hkept : (stepOrStay n s act).awaited = s.awaited → Helpful actor (stepOrStay n s act) := by
    intro hsame
    cases actor with
    | owner => exact hsame.trans hhelpful
    | thread t => exact hsame.trans hhelpful
  cases hstep : s.step n act with
  | none =>
    have hstay : stepOrStay n s act = s := by
      unfold stepOrStay
      rw [hstep, Option.getD_none]
    rw [hstay]
    exact Or.inr ⟨le_refl _, hhelpful⟩
  | some s' =>
    have hnext : stepOrStay n s act = s' := by
      unfold stepOrStay
      rw [hstep, Option.getD_some]
    rw [hnext] at hkept ⊢
    cases act with
    | owner ok => exact Or.inl (rank_ownerStep hstep)
    | thread t env =>
      by_cases hawaited : s.awaited = some t
      . left
        rw [← hnext]
        exact rank_threadStep_awaited h.inv hawaited hreturns
      . refine Or.inr ⟨rank_threadStep h.inv hstep, hkept ?_⟩
        have ⟨_, hcases⟩ := threadStep_cases hstep
        cases hcases with
        | inl hsleeps => rw [hsleeps]; rfl
        | inr hmoves =>
          obtain ⟨asleep, hmoves⟩ := hmoves
          rw [hmoves]
          apply awaited_eq (Runtime.length_workers_step _)
          . intro u hu
            rw [Runtime.exited_step_other]
            . exact exited_of_alive (awaited_alive hu).1
            . rw [thread_action]
              exact fun heq => hawaited (heq ▸ hu)
          . intro u hu
            by_cases htu : t = u
            . rw [Runtime.exited_step_self]
              . exact hu
              . rw [thread_action, htu]
                exact hu
            . rw [Runtime.exited_step_other]
              . exact hu
              . rw [thread_action]
                exact htu
    | dispatch message alloc wake =>
      obtain ⟨asleep, hdispatched⟩ := dispatchStep_eq hstep
      rw [hdispatched] at hkept ⊢
      refine Or.inr ⟨?_, hkept ?_⟩
      . apply rank_frame_le
        . rw [Runtime.workers_dispatchTask]
        . intro q _
          rw [Runtime.stageRank_dispatchTask]
      . apply awaited_eq
        . rw [Runtime.workers_dispatchTask]
        . intro t ht
          rw [Runtime.exited_dispatchTask]
          exact exited_of_alive (awaited_alive ht).1
        . intro t ht
          rw [Runtime.exited_dispatchTask]
          exact ht
    | spurious t =>
      cases hstep
      exact Or.inr ⟨le_refl _, hkept rfl⟩

end Helps

theorem ranking (n : Int)
    : Fairness.Ranking (stepOrStay n) Action.actor (Actor.takesPart n) (fun s act => ¬ s.Crashes act)
        (Going n) (fun s => s.owner.ended) (rank n) Helpful where
  inv := fun s act h => h.step act
  falls := by
    intro s act hreturns h _
    obtain ⟨actor, _, hhelpful⟩ := h.helpful_exists
    cases stays_helpful h hreturns hhelpful with
    | inl hless => exact le_of_lt hless
    | inr hsame => exact hsame.1
  helps := fun s h _ => h.helpful_exists
  stays := by
    intro s act actor hreturns h _ hhelpful
    cases stays_helpful h hreturns hhelpful with
    | inl hless => exact Or.inl hless
    | inr hsame => exact Or.inr hsame.2
  moves := by
    intro s act actor hreturns h hended hhelpful hactor
    cases act with
    | owner ok =>
      cases hactor
      obtain ⟨s', hstep⟩ := ownerStep_of_not_awaited (n := n) hhelpful hended ok
      have hnext : stepOrStay n s (.owner ok) = s' := by
        unfold stepOrStay Lifecycle.step
        dsimp only
        rw [hstep, Option.getD_some]
      rw [hnext]
      exact rank_ownerStep hstep
    | thread t env =>
      cases hactor
      exact rank_threadStep_awaited h.inv hhelpful hreturns
    | dispatch message alloc wake => cases hactor
    | spurious t => cases hactor

/-- The owner and the threads of a runtime get to act again and again. -/
def FairSchedule (numHttpWorker : Int) (schedule : Nat → Action) : Prop :=
  Fairness.Fair Action.actor (Actor.takesPart numHttpWorker) schedule

/--
`destroy_runtime` returns: however `create_runtime` ends, and whatever sleeps, wakes up on its own or
is dispatched while the runtime is taken down, the owner comes to its end if no thread is left out for
ever and the program does not crash. The threads that were started are joined then.
-/
theorem destroy_returns (n : Int) (conn : Conn) (schedule : Nat → Action) (hfair : FairSchedule n schedule)
    (hreturns : ∀ k, ¬ (Fairness.stateAt (stepOrStay n) (start conn) schedule k).Crashes (schedule k))
    : ∃ k, (Fairness.stateAt (stepOrStay n) (start conn) schedule k).owner.ended ∧
        ((Fairness.stateAt (stepOrStay n) (start conn) schedule k).owner = .returned →
          ∀ t, t ∈ (Fairness.stateAt (stepOrStay n) (start conn) schedule k).joined ↔
            t ∈ (Fairness.stateAt (stepOrStay n) (start conn) schedule k).started) := by
  obtain ⟨k, hended⟩ := (ranking n).ends hreturns hfair (going_start conn)
  have hgoing := (ranking n).inv_stateAt (going_start conn) schedule k
  exact ⟨k, hended, fun hreturned => (hgoing.inv.joined_of_returned hreturned).2⟩

section Safe

theorem ownerStep_db {ok : Bool} (hstep : s.ownerStep n ok = some s')
    : s'.rt.dbQueue.items = s.rt.dbQueue.items ∧ s'.rt.dispatcher = s.rt.dispatcher ∧
        s'.rt.dbWorker = s.rt.dbWorker := by
  unfold Lifecycle.ownerStep at hstep
  split at hstep
  all_goals grind [Lifecycle.goto, Lifecycle.queueShutdown, Runtime.close, Fifo.close]

theorem safe_step (h : s.rt.DbTasks Runtime.Safe) {act : Action}
    (hact : ∀ task alloc wake, act = .dispatch (.db task) alloc wake → Runtime.Safe task.item)
    : (stepOrStay n s act).rt.DbTasks Runtime.Safe := by
  have hpushed : ∀ resp, Runtime.Safe (.saveResponse (some resp)) := by simp [Runtime.Safe]
  unfold stepOrStay
  cases hstep : s.step n act with
  | none => exact h
  | some s' =>
    rw [Option.getD_some]
    cases act with
    | owner ok =>
      have ⟨hitems, hdispatcher, hdbWorker⟩ := ownerStep_db hstep
      exact ⟨hitems ▸ h.dbQueue, hdispatcher ▸ h.dispatcher, hdbWorker ▸ h.dbWorker⟩
    | thread t env =>
      have ⟨_, hcases⟩ := threadStep_cases hstep
      cases hcases with
      | inl hsleeps =>
        rw [hsleeps]
        exact h
      | inr hmoves =>
        obtain ⟨asleep, hmoves⟩ := hmoves
        rw [hmoves]
        exact h.step hpushed _
    | dispatch message alloc wake =>
      obtain ⟨asleep, hdispatched⟩ := dispatchStep_eq hstep
      rw [hdispatched]
      cases message with
      | db task => exact h.pushDbTask (hact task alloc wake rfl) alloc
      | worker task => exact h.dispatchWorker task alloc
    | spurious t =>
      cases hstep
      exact h

/-- A program whose clients dispatch only safe tasks never crashes. -/
theorem never_crashes {conn : Conn} {schedule : Nat → Action}
    (hsafe : ∀ k task alloc wake, schedule k = .dispatch (.db task) alloc wake → Runtime.Safe task.item)
    (k : Nat) : ¬ (Fairness.stateAt (stepOrStay n) (start conn) schedule k).Crashes (schedule k) := by
  have htasks : ∀ k, (Fairness.stateAt (stepOrStay n) (start conn) schedule k).rt.DbTasks Runtime.Safe := by
    intro k
    induction k with
    | zero => exact ⟨by simp [Fairness.stateAt, start, Fifo.empty], by simp [Fairness.stateAt, start],
        by simp [Fairness.stateAt, start]⟩
    | succ k ih => exact safe_step ih (hsafe k)
  unfold Crashes
  split
  . rw [(htasks k).not_crashes (fun _ => id)]
    simp
  . exact id

end Safe

-- The owner, the only worker, the dispatcher and the DB worker take turns. The dispatcher cannot be created.
def failedTurns (k : Nat) : Action :=
  match k % 4 with
  | 0 => .owner (k < 24)
  | 1 => .thread (.worker 0) ⟨.ok [] 200, true, [], .dbWorker⟩
  | 2 => .thread .dispatcher ⟨.ok [] 200, true, [], .dbWorker⟩
  | _ => .thread .dbWorker ⟨.ok [] 200, true, [], .dbWorker⟩

theorem fair_failedTurns : FairSchedule 1 failedTurns := by
  intro actor hpart k
  cases actor with
  | owner =>
    refine ⟨4 * k, by omega, ?_⟩
    have hturn : 4 * k % 4 = 0 := by omega
    simp [failedTurns, hturn, Action.actor]
  | thread t =>
    cases t with
    | worker i =>
      have hi : (i : Int) < 1 := hpart
      have hzero : i = 0 := by omega
      refine ⟨4 * k + 1, by omega, ?_⟩
      have hturn : (4 * k + 1) % 4 = 1 := by omega
      simp [failedTurns, hturn, Action.actor, hzero]
    | dispatcher =>
      refine ⟨4 * k + 2, by omega, ?_⟩
      have hturn : (4 * k + 2) % 4 = 2 := by omega
      simp [failedTurns, hturn, Action.actor]
    | dbWorker =>
      refine ⟨4 * k + 3, by omega, ?_⟩
      have hturn : (4 * k + 3) % 4 = 3 := by omega
      simp [failedTurns, hturn, Action.actor]

theorem dispatches_failedTurns (k : Nat) (task : Ticketed DbTask) (alloc : Bool) (wake : Thread)
    (h : failedTurns k = .dispatch (.db task) alloc wake) : Runtime.Safe task.item := by
  unfold failedTurns at h
  split at h
  all_goals cases h

theorem destroy_returns_failedTurns
    : ∃ k, (Fairness.stateAt (stepOrStay 1) (start (.open .empty)) failedTurns k).owner.ended ∧
        ((Fairness.stateAt (stepOrStay 1) (start (.open .empty)) failedTurns k).owner = .returned →
          ∀ t, t ∈ (Fairness.stateAt (stepOrStay 1) (start (.open .empty)) failedTurns k).joined ↔
            t ∈ (Fairness.stateAt (stepOrStay 1) (start (.open .empty)) failedTurns k).started) :=
  destroy_returns 1 (.open .empty) failedTurns fair_failedTurns (never_crashes dispatches_failedTurns)

end Lifecycle
end HttpRuntime
