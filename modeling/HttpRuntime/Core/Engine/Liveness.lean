import HttpRuntime.Core.Engine.Wait
import HttpRuntime.Core.Runtime.Rank
import HttpRuntime.Lib.Fairness

/-!
This module contains that `run_plan` returns: the client and the threads of the runtime have a bounded
number of steps to take, and as long as the client did not return one of them can take one.
-/

open Lib

namespace HttpRuntime

namespace RunPlan

-- The number of worker threads of a run.
def threads (plan : RunPlan) : Nat :=
  (toInt (if plan.workerCount > 0 then plan.workerCount else 1 : Nat)).toNat

/-- The rounds of the client over the cases, where the first one waits since `elapsed`. -/
def rounds (plan : RunPlan) (cases : List RequestCase) (elapsed : Int) : Nat :=
  match cases with
  | [] => 0
  | requestCase :: cases =>
    ((waitTimeout plan requestCase - elapsed + (usleepMs - 1)) / usleepMs).toNat + 1 + plan.rounds cases 0

/-- What a run takes at most: nine steps for each request, the polls, and the life of the threads. -/
def stepBound (plan : RunPlan) : Nat :=
  9 * plan.cases.length + plan.rounds plan.cases 0 + 2 * plan.threads + 12

/-- The timeouts for which the time that the client waited stays an `int`. -/
def TimeoutsFit (plan : RunPlan) : Prop :=
  ∀ requestCase ∈ plan.cases, waitTimeout plan requestCase ≤ lastElapsed

end RunPlan

def ClientPc.rank (plan : RunPlan) (pc : ClientPc) : Nat :=
  let n := plan.threads
  let rounds := plan.rounds plan.cases 0
  match pc with
  | .init => 12 + 2 * n + rounds + 9 * plan.cases.length
  | .saveCollection => 11 + 2 * n + rounds + 9 * plan.cases.length
  | .createRuntime => 10 + 2 * n + rounds + 9 * plan.cases.length
  | .createRequest i => 7 + n + rounds + 9 * (plan.cases.length - i)
  | .dispatch i _ => 15 + n + rounds + 9 * (plan.cases.length - (i + 1))
  | .wait i elapsed => 6 + n + plan.rounds (plan.cases.drop i) elapsed
  | .cleanup => 5 + n
  | .destroy (.joinWorkers i) => 4 + (n - i)
  | .destroy .joinDispatcher => 3
  | .destroy .joinDbWorker => 2
  | .destroy .returned => 1
  | .returned => 0

namespace Runtime

-- The queue of the thread that `destroy_runtime` waits for is closed.
def ClosedFor (rt : Runtime) (phase : DestroyPhase) : Prop :=
  match phase with
  | .joinWorkers _ => rt.queueClosed .request = true
  | .joinDispatcher => rt.queueClosed .response = true
  | .joinDbWorker => rt.queueClosed .db = true
  | .returned => True

variable {rt : Runtime} {conn : Conn} {phase : DestroyPhase}

theorem ClosedFor.step (h : rt.ClosedFor phase) (act : Action) : (rt.step conn act).1.ClosedFor phase := by
  cases phase with
  | joinWorkers i => exact (queueClosed_step act .request).trans h
  | joinDispatcher => exact (queueClosed_step act .response).trans h
  | joinDbWorker => exact (queueClosed_step act .db).trans h
  | returned => trivial

theorem ClosedFor.destroyStep (h : rt.ClosedFor phase)
    : (rt.destroyStep phase).1.ClosedFor (rt.destroyStep phase).2 := by
  cases phase with
  | joinWorkers i =>
    unfold Runtime.destroyStep
    dsimp only
    split
    . split <;> exact h
    . exact Fifo.close_closed _
  | joinDispatcher =>
    unfold Runtime.destroyStep
    dsimp only
    split
    . exact Fifo.close_closed _
    . exact h
  | joinDbWorker =>
    unfold Runtime.destroyStep
    dsimp only
    split
    . trivial
    . exact h
  | returned => trivial

theorem workers_destroyStep (phase : DestroyPhase) : (rt.destroyStep phase).1.workers = rt.workers := by
  unfold destroyStep
  split
  . split <;> [split <;> rfl; rfl]
  . split <;> rfl
  . split <;> rfl
  . rfl

theorem destroyStep_of_awaited {t : Thread} (h : rt.awaited phase = some t)
    : rt.destroyStep phase = (rt, phase) := by
  unfold awaited at h
  unfold destroyStep
  cases phase with
  | joinWorkers i =>
    simp only [Option.ite_none_right_eq_some, Bool.and_eq_true, decide_eq_true_eq, exited,
      Bool.not_eq_true', decide_eq_false_iff_not] at h
    simp only [if_pos h.1.1, if_neg h.1.2]
  | joinDispatcher =>
    simp only [Option.ite_none_left_eq_some, exited, decide_eq_true_eq] at h
    simp only [if_neg h.1]
  | joinDbWorker =>
    simp only [Option.ite_none_left_eq_some, exited, decide_eq_true_eq] at h
    simp only [if_neg h.1]
  | returned => cases h

/-- A join that does not wait brings `destroy_runtime` further. -/
theorem rank_destroyStep {plan : RunPlan} (hthreads : rt.workers.length = plan.threads)
    (hreturned : phase ≠ .returned) (h : rt.awaited phase = none)
    : (rt.destroyStep phase).1.rank = rt.rank ∧
        ClientPc.rank plan (.destroy (rt.destroyStep phase).2) < ClientPc.rank plan (.destroy phase) := by
  unfold awaited at h
  unfold destroyStep
  cases phase with
  | joinWorkers i =>
    simp only [exited] at h ⊢
    by_cases hlt : i < rt.workers.length
    . have hexited : rt.workers[i]? = some .exited := by simpa [hlt] using h
      rw [if_pos hlt, if_pos hexited]
      refine ⟨rfl, ?_⟩
      simp only [ClientPc.rank]
      omega
    . rw [if_neg hlt]
      refine ⟨rfl, ?_⟩
      simp only [ClientPc.rank]
      omega
  | joinDispatcher =>
    have hexited : rt.dispatcher = .exited := by simpa [exited] using h
    dsimp only
    rw [if_pos hexited]
    exact ⟨rfl, by simp [ClientPc.rank]⟩
  | joinDbWorker =>
    have hexited : rt.dbWorker = .exited := by simpa [exited] using h
    dsimp only
    rw [if_pos hexited]
    exact ⟨rfl, by simp [ClientPc.rank]⟩
  | returned => exact absurd rfl hreturned

/-- The thread that `destroy_runtime` waits for gets further with each of its steps. -/
theorem rank_step_awaited (hclosed : rt.ClosedFor phase) {act : Action}
    (h : rt.awaited phase = some act.thread) (hreturns : ∀ es, rt.crashes conn es = false)
    : (rt.step conn act).1.rank < rt.rank := by
  unfold awaited at h
  cases phase with
  | joinWorkers i =>
    simp only [Option.ite_none_right_eq_some, Bool.and_eq_true, decide_eq_true_eq, Option.some.injEq,
      Bool.not_eq_true'] at h
    have hthread := h.2
    apply rank_step_of_closed act
    . rw [← hthread]
      exact hclosed
    . intro j hj
      rw [hj] at hthread
      cases hthread
      exact h.1.1
    . rw [← hthread]
      exact h.1.2
    . exact fun es _ => hreturns es
  | joinDispatcher =>
    simp only [Option.ite_none_left_eq_some, Option.some.injEq, Bool.not_eq_true] at h
    apply rank_step_of_closed act
    . rw [← h.2]
      exact hclosed
    . intro j hj
      rw [hj] at h
      cases h.2
    . rw [← h.2]
      exact h.1
    . exact fun es _ => hreturns es
  | joinDbWorker =>
    simp only [Option.ite_none_left_eq_some, Option.some.injEq, Bool.not_eq_true] at h
    apply rank_step_of_closed act
    . rw [← h.2]
      exact hclosed
    . intro j hj
      rw [hj] at h
      cases h.2
    . rw [← h.2]
      exact h.1
    . exact fun es _ => hreturns es
  | returned => cases h

theorem rank_dispatchTask_le (task : Ticketed WorkerTask) (alloc : Bool)
    : (rt.dispatchTask (.worker task) alloc).1.rank ≤ rt.rank + 7 := by
  have hlength := length_pushQueue_le rt.requestQueue task alloc
  unfold dispatchTask
  simp only [rank]
  omega

end Runtime

namespace Engine

inductive Actor where
  | client
  | thread (t : Thread)
  deriving DecidableEq

def Action.actor (act : Action) : Actor :=
  match act with
  | .client _ => .client
  | .runtime act => .thread act.thread

-- The threads of a run, as far as they are started.
def Actor.takesPart (plan : RunPlan) (actor : Actor) : Prop :=
  match actor with
  | .client => True
  | .thread (.worker i) => i < plan.threads
  | .thread .dispatcher => True
  | .thread .dbWorker => True

def rank (plan : RunPlan) (sys : Engine) : Nat :=
  sys.client.pc.rank plan + ((sys.runtime.map Runtime.rank).getD 0)

-- What `destroy_runtime` relies on in a runtime.
def Joinable (plan : RunPlan) (runtime : Option Runtime) (pc : ClientPc) : Prop :=
  match runtime with
  | none => ∀ phase, pc ≠ .destroy phase
  | some rt => rt.workers.length = plan.threads ∧ ∀ phase, pc = .destroy phase → rt.ClosedFor phase

/-- The time that the client waited is a number of polls, of which all but the last were in time. -/
def ElapsedFits (plan : RunPlan) (pc : ClientPc) : Prop :=
  ∀ i elapsed, pc = .wait i elapsed →
    ∃ polls : Nat, elapsed = usleepMs * polls ∧
      (0 < polls → ∃ requestCase ∈ plan.cases[i]?, elapsed - usleepMs < waitTimeout plan requestCase)

structure Going (plan : RunPlan) (sys : Engine) : Prop where
  joinable : Joinable plan sys.runtime sys.client.pc
  elapsed : ElapsedFits plan sys.client.pc
  safe : ∀ rt, sys.runtime = some rt → rt.DbTasks Runtime.Safe

variable {plan : RunPlan} {sys : Engine}

theorem Joinable.goto {runtime : Option Runtime} {pc : ClientPc} (h : Joinable plan runtime pc)
    {pc' : ClientPc} (hdestroy : ∀ phase, pc' ≠ .destroy phase) : Joinable plan runtime pc' := by
  cases runtime with
  | none => exact hdestroy
  | some rt => exact ⟨h.1, fun phase heq => absurd heq (hdestroy phase)⟩

theorem elapsedFits_of_ne {pc : ClientPc} (h : ∀ i elapsed, pc ≠ .wait i elapsed) : ElapsedFits plan pc :=
  fun i elapsed heq => absurd heq (h i elapsed)

theorem elapsedFits_zero (i : Nat) : ElapsedFits plan (.wait i 0) := by
  intro j elapsed heq
  cases heq
  exact ⟨0, rfl, fun hpos => absurd hpos (Nat.lt_irrefl 0)⟩

theorem going_start (conn : Conn) : Going plan (start conn) where
  joinable := by simp [Joinable, start, Client.start]
  elapsed := elapsedFits_of_ne (by simp [start, Client.start])
  safe := by simp [start]

-- The client goes on, with the runtime as it is.
theorem Going.goto (h : Going plan sys) {conn : Conn} {client : Client}
    (hdestroy : ∀ phase, client.pc ≠ .destroy phase) (helapsed : ElapsedFits plan client.pc)
    : Going plan { sys with conn := conn, client := client } where
  joinable := h.joinable.goto hdestroy
  elapsed := helapsed
  safe := h.safe

theorem Going.leave (h : Going plan sys) {conn : Conn} {client : Client}
    (hdestroy : ∀ phase, client.pc ≠ .destroy phase) (hwait : ∀ i elapsed, client.pc ≠ .wait i elapsed)
    : Going plan { sys with conn := conn, client := client } :=
  h.goto hdestroy (elapsedFits_of_ne hwait)

theorem length_workers_createRuntime {rt : Runtime} {n : Int} (h : createRuntime n = some rt)
    : rt.workers.length = n.toNat ∧ rt.rank = n.toNat + 2 := by
  unfold createRuntime at h
  split at h
  . cases h
  . rw [Option.some.injEq] at h
    rw [← h]
    simp [Runtime.rank, Fifo.empty, WorkerState.rank, DispatcherState.rank, DbWorkerState.rank]

theorem Going.clientStep (h : Going plan sys) (env : ClientEnv) : Going plan (sys.clientStep plan env) := by
  unfold Engine.clientStep
  dsimp only
  cases hpc : sys.client.pc with
  | init =>
    dsimp only
    split <;> [skip; split]
    all_goals
      apply h.leave
      all_goals simp [Client.goto]
  | saveCollection =>
    dsimp only
    split <;> [skip; split]
    all_goals
      apply h.leave
      all_goals simp [Client.goto]
  | createRuntime =>
    dsimp only
    split
    . apply h.leave
      all_goals simp [Client.goto]
    . next rt hrt =>
      split at hrt
      . exact {
          joinable := ⟨(length_workers_createRuntime hrt).1, by simp⟩
          elapsed := elapsedFits_of_ne (by simp)
          safe := (Runtime.dbTasks_createRuntime hrt).of_some
        }
      . cases hrt
  | createRequest i =>
    dsimp only
    split
    . apply h.goto
      . simp [Client.goto]
      . exact elapsedFits_zero 0
    . split
      . apply h.leave
        all_goals simp [Client.failRequests]
      . split
        all_goals
          apply h.leave
          all_goals simp [Client.failRequests]
  | dispatch i req =>
    dsimp only
    split
    . exact h
    . split
      . apply h.leave
        all_goals simp [Client.failRequests]
      . next rt hrt =>
        have hjoinable := h.joinable
        rw [hrt] at hjoinable
        have hworkers := hjoinable.1
        rw [← Runtime.workers_dispatchTask (.worker ⟨i, ⟨some req⟩⟩) env.node] at hworkers
        have hsafe := (h.safe rt hrt).dispatchWorker ⟨i, ⟨some req⟩⟩ env.node
        split
        . exact {
            joinable := ⟨hworkers, by simp [Client.failRequests]⟩
            elapsed := elapsedFits_of_ne (by simp [Client.failRequests])
            safe := hsafe.of_some
          }
        . exact {
            joinable := ⟨hworkers, by simp [Client.goto]⟩
            elapsed := elapsedFits_of_ne (by simp [Client.goto])
            safe := hsafe.of_some
          }
  | wait i elapsed =>
    dsimp only
    split
    . apply h.leave
      all_goals simp
    . next requestCase hcase =>
      split
      . next htime =>
        split
        . apply h.goto
          . simp
          . exact elapsedFits_zero (i + 1)
        . apply h.goto
          . simp [Client.goto]
          . intro j elapsed' heq
            cases heq
            obtain ⟨polls, hpolls, _⟩ := h.elapsed i elapsed hpc
            refine ⟨polls + 1, ?_, fun _ => ⟨requestCase, hcase, ?_⟩⟩
            . rw [hpolls, Int.natCast_succ, Int.mul_add, Int.mul_one]
            . rw [Int.add_sub_cancel]
              exact htime
      . apply h.goto
        . simp
        . exact elapsedFits_zero (i + 1)
  | cleanup =>
    dsimp only
    split
    . next rt hrt =>
      have hjoinable := h.joinable
      rw [hrt] at hjoinable
      refine ⟨⟨hjoinable.1, ?_⟩, elapsedFits_of_ne (by simp [Client.goto]),
        (h.safe rt hrt).destroyStart.of_some⟩
      intro phase heq
      cases heq
      exact Fifo.close_closed _
    . apply h.leave
      all_goals simp
  | destroy phase =>
    dsimp only
    split
    . next rt hrt =>
      have hjoinable := h.joinable
      rw [hrt] at hjoinable
      exact ⟨⟨hjoinable.1, by simp⟩, elapsedFits_of_ne (by simp), (h.safe rt hrt).of_some⟩
    . next rt hrt hne =>
      have hjoinable := h.joinable
      rw [hrt] at hjoinable
      refine ⟨⟨?_, ?_⟩, elapsedFits_of_ne (by simp [Client.goto]),
        ((h.safe rt hrt).destroyStep _).of_some⟩
      . rw [Runtime.workers_destroyStep]
        exact hjoinable.1
      . intro phase' heq
        cases heq
        exact (hjoinable.2 _ hpc).destroyStep
    . exact h
  | returned => exact h

theorem Going.step (h : Going plan sys) (act : Action) : Going plan (sys.step plan act) := by
  cases act with
  | client env => exact h.clientStep env
  | runtime act =>
    unfold Engine.step
    dsimp only
    cases hrt : sys.runtime with
    | none => exact h
    | some rt =>
      have hjoinable := h.joinable
      rw [hrt] at hjoinable
      have hsafe := @Runtime.DbTasks.step rt sys.conn _ (h.safe rt hrt) (by simp [Runtime.Safe]) act
      refine ⟨⟨?_, fun phase heq => (hjoinable.2 phase heq).step act⟩, h.elapsed, hsafe.of_some⟩
      rw [Runtime.length_workers_step]
      exact hjoinable.1

section Rank

-- The client waits in `destroy_runtime`, or it returned.
inductive Rests (sys : Engine) : Prop where
  | joining {phase : DestroyPhase} {rt : Runtime} {t : Thread} (hpc : sys.client.pc = .destroy phase)
      (hrt : sys.runtime = some rt) (hawaited : rt.awaited phase = some t)
  | returned (hpc : sys.client.pc = .returned)

theorem awaited_of_not_rests (h : ¬ Rests sys) {phase : DestroyPhase} {rt : Runtime}
    (hpc : sys.client.pc = .destroy phase) (hrt : sys.runtime = some rt) : rt.awaited phase = none := by
  cases hawaited : rt.awaited phase with
  | none => rfl
  | some t => exact absurd (.joining hpc hrt hawaited) h

theorem clientStep_of_rests (h : Rests sys) (env : ClientEnv) : sys.clientStep plan env = sys := by
  cases h with
  | returned hpc =>
    unfold Engine.clientStep
    dsimp only
    rw [hpc]
  | @joining phase rt t hpc hrt hawaited =>
    have hstep := Runtime.destroyStep_of_awaited hawaited
    have hphase : phase ≠ .returned := by
      intro heq
      rw [heq] at hawaited
      cases hawaited
    unfold Engine.clientStep
    dsimp only
    rw [hpc, hrt]
    cases phase with
    | returned => exact absurd rfl hphase
    | _ =>
      dsimp only
      rw [hstep]
      cases sys
      dsimp only at hpc hrt
      simp only [Client.goto, ← hpc, hrt]

theorem rounds_drop {i : Nat} {requestCase : RequestCase} (hcase : plan.cases[i]? = some requestCase)
    (elapsed : Int)
    : plan.rounds (plan.cases.drop i) elapsed =
        ((waitTimeout plan requestCase - elapsed + (usleepMs - 1)) / usleepMs).toNat + 1 +
          plan.rounds (plan.cases.drop (i + 1)) 0 := by
  obtain ⟨hlt, hget⟩ := List.getElem?_eq_some_iff.mp hcase
  rw [List.drop_eq_getElem_cons hlt, hget, RunPlan.rounds]

theorem clientStep_of_crashes {env : ClientEnv} (h : sys.Crashes env) : sys.clientStep plan env = sys := by
  rcases h with ⟨htask, i, req, hpc⟩
  unfold Engine.clientStep
  simp [hpc, htask]

theorem rank_clientStep (h : Going plan sys) (hrests : ¬ Rests sys) {env : ClientEnv}
    (hreturns : ¬ sys.Crashes env) : (sys.clientStep plan env).rank plan < sys.rank plan := by
  unfold Engine.clientStep
  dsimp only
  cases hpc : sys.client.pc with
  | init =>
    dsimp only
    split <;> [skip; split]
    all_goals
      simp only [rank, hpc, Client.goto, ClientPc.rank]
      omega
  | saveCollection =>
    dsimp only
    split <;> [skip; split]
    all_goals
      simp only [rank, hpc, Client.goto, ClientPc.rank]
      omega
  | createRuntime =>
    dsimp only
    split
    . simp only [rank, hpc, Client.goto, ClientPc.rank]
      omega
    . next rt hrt =>
      split at hrt
      . have hrank : rt.rank = plan.threads + 2 := (length_workers_createRuntime hrt).2
        simp only [rank, hpc, ClientPc.rank, Option.map_some, Option.getD_some, hrank]
        omega
      . cases hrt
  | createRequest i =>
    dsimp only
    split
    . simp only [rank, hpc, Client.goto, ClientPc.rank, List.drop_zero]
      omega
    . next requestCase hcase =>
      have hlt : i < plan.cases.length := (List.getElem?_eq_some_iff.mp hcase).1
      split
      . simp only [rank, hpc, Client.failRequests, ClientPc.rank]
        omega
      . split
        all_goals
          simp only [rank, hpc, Client.failRequests, ClientPc.rank]
          omega
  | dispatch i req =>
    dsimp only
    split
    . next htask => exact absurd ⟨by simpa using htask, i, req, hpc⟩ hreturns
    . split
      . simp only [rank, hpc, Client.failRequests, ClientPc.rank]
        omega
      . next rt hrt =>
        have hle := rt.rank_dispatchTask_le ⟨i, ⟨some req⟩⟩ env.node
        split
        all_goals
          simp only [rank, hpc, hrt, Client.failRequests, Client.goto, ClientPc.rank, Option.map_some,
            Option.getD_some]
          omega
  | wait i elapsed =>
    dsimp only
    split
    . simp only [rank, hpc, ClientPc.rank]
      omega
    . next requestCase hcase =>
      have hdrop := rounds_drop hcase
      split
      . next htime =>
        split
        . simp only [rank, hpc, ClientPc.rank, hdrop]
          omega
        . simp only [rank, hpc, Client.goto, ClientPc.rank, hdrop, usleepMs]
          omega
      . simp only [rank, hpc, ClientPc.rank, hdrop]
        omega
  | cleanup =>
    dsimp only
    split
    . next rt hrt =>
      have hsame : rt.destroyStart.1.rank = rt.rank := rfl
      simp only [rank, hpc, hrt, Client.goto, Runtime.destroyStart, ClientPc.rank, Option.map_some,
        Option.getD_some] at hsame ⊢
      omega
    . next hrt =>
      simp only [rank, hpc, ClientPc.rank]
      omega
  | destroy phase =>
    dsimp only
    split
    . next rt hrt =>
      simp only [rank, hpc, hrt, ClientPc.rank]
      omega
    . next rt hrt hne =>
      have hjoinable := h.joinable
      rw [hrt] at hjoinable
      have hawaited := awaited_of_not_rests hrests hpc hrt
      have ⟨hsame, hless⟩ := Runtime.rank_destroyStep hjoinable.1 hne hawaited
      simp only [rank, hpc, hrt, Client.goto, Option.map_some, Option.getD_some, hsame]
      omega
    . next hrt =>
      have hjoinable := h.joinable
      rw [hrt] at hjoinable
      exact absurd hpc (hjoinable _)
  | returned => exact absurd (.returned hpc) hrests

theorem rank_step (h : Going plan sys) (act : Action)
    : sys.step plan act = sys ∨ (sys.step plan act).rank plan < sys.rank plan := by
  cases act with
  | client env =>
    by_cases hrests : Rests sys
    . exact Or.inl (clientStep_of_rests hrests env)
    . by_cases hcrashes : sys.Crashes env
      . exact Or.inl (clientStep_of_crashes hcrashes)
      . exact Or.inr (rank_clientStep h hrests hcrashes)
  | runtime act =>
    unfold Engine.step
    dsimp only
    cases hrt : sys.runtime with
    | none => exact Or.inl rfl
    | some rt =>
      cases @Runtime.rank_step rt sys.conn act with
      | inl hsame =>
        left
        dsimp only
        rw [hsame, ← hrt]
      | inr hless =>
        right
        simp only [rank, hrt, Option.map_some, Option.getD_some]
        omega

/-- The program goes on after the action. -/
def Survives (sys : Engine) (act : Action) : Prop := ∀ env, act = .client env → ¬ sys.Crashes env

/-- An action of the actor brings the run nearer to its end. -/
def Helpful (plan : RunPlan) (actor : Actor) (sys : Engine) : Prop :=
  ∀ act : Action, act.actor = actor → sys.Survives act → (sys.step plan act).rank plan < sys.rank plan

theorem helpful_awaited (h : Going plan sys) {phase : DestroyPhase} {rt : Runtime} {t : Thread}
    (hpc : sys.client.pc = .destroy phase) (hrt : sys.runtime = some rt)
    (hawaited : rt.awaited phase = some t) : Helpful plan (.thread t) sys := by
  intro act hactor _
  cases act with
  | client env => cases hactor
  | runtime act =>
    have hjoinable := h.joinable
    rw [hrt] at hjoinable
    cases hactor
    have hless := @Runtime.rank_step_awaited rt sys.conn phase (hjoinable.2 phase hpc) act hawaited
      ((h.safe rt hrt).not_crashes (fun _ => id))
    unfold Engine.step
    simp only [rank, hrt, Option.map_some, Option.getD_some]
    omega

theorem takesPart_awaited (h : Going plan sys) {phase : DestroyPhase} {rt : Runtime} {t : Thread}
    (hrt : sys.runtime = some rt) (hawaited : rt.awaited phase = some t)
    : Actor.takesPart plan (.thread t) := by
  cases t with
  | worker i =>
    have hjoinable := h.joinable
    rw [hrt] at hjoinable
    show i < plan.threads
    rw [← hjoinable.1]
    unfold Runtime.awaited at hawaited
    cases phase with
    | joinWorkers j =>
      simp only [Option.ite_none_right_eq_some, Bool.and_eq_true, decide_eq_true_eq, Option.some.injEq,
        Thread.worker.injEq] at hawaited
      rw [← hawaited.2]
      exact hawaited.1.1
    | joinDispatcher => simp at hawaited
    | joinDbWorker => simp at hawaited
    | returned => cases hawaited
  | dispatcher => trivial
  | dbWorker => trivial

theorem helpful_exists (h : Going plan sys) (hreturned : sys.client.pc ≠ .returned)
    : ∃ actor : Actor, actor.takesPart plan ∧ Helpful plan actor sys := by
  by_cases hrests : Rests sys
  . cases hrests with
    | returned hpc => exact absurd hpc hreturned
    | joining hpc hrt hawaited =>
      exact ⟨.thread _, takesPart_awaited h hrt hawaited, helpful_awaited h hpc hrt hawaited⟩
  . refine ⟨.client, trivial, ?_⟩
    intro act hactor hsurvives
    cases act with
    | client env => exact rank_clientStep h hrests (hsurvives env rfl)
    | runtime act => cases hactor

end Rank

/-- The states of a run under a schedule. -/
def stateAt (plan : RunPlan) (conn : Conn) (schedule : Nat → Action) (k : Nat) : Engine :=
  Fairness.stateAt (step plan) (start conn) schedule k

/-- The client and every thread of the run get to act again and again. -/
def FairSchedule (plan : RunPlan) (schedule : Nat → Action) : Prop :=
  Fairness.Fair (fun act => some act.actor) (Actor.takesPart plan) schedule

-- The time that the client waited is an `int`.
def TimeIsInt (sys : Engine) : Prop :=
  ∀ i elapsed, sys.client.pc = .wait i elapsed → 0 ≤ elapsed ∧ elapsed < 2 ^ 31

theorem ranking (plan : RunPlan)
    : Fairness.Ranking (step plan) (fun act => some act.actor) (Actor.takesPart plan) Survives
        (Going plan) (fun sys => sys.client.pc = .returned) (rank plan) (Helpful plan) where
  inv := fun sys act h => h.step act
  falls := by
    intro sys act _ h _
    cases rank_step h act with
    | inl hsame => rw [hsame]
    | inr hless => exact Nat.le_of_lt hless
  helps := fun sys h hreturned => helpful_exists h hreturned
  stays := by
    intro sys act actor _ h _ hhelpful
    cases rank_step h act with
    | inl hsame =>
      right
      rw [hsame]
      exact hhelpful
    | inr hless => exact Or.inl hless
  moves := fun sys act actor hsurvives _ _ hhelpful hactor =>
    hhelpful act (Option.some.inj hactor) hsurvives

theorem Going.timeIsInt (h : Going plan sys) (hfits : plan.TimeoutsFit) : sys.TimeIsInt := by
  intro i elapsed hpc
  obtain ⟨polls, hpolls, htime⟩ := h.elapsed i elapsed hpc
  unfold usleepMs at hpolls htime
  cases polls with
  | zero => omega
  | succ polls =>
    obtain ⟨requestCase, hcase, hless⟩ := htime (Nat.succ_pos polls)
    have hfit := hfits requestCase (List.mem_of_getElem? hcase)
    unfold lastElapsed at hfit
    omega

/--
`run_plan` returns: whatever the transfers, the database and the allocator do, the client comes to its
end if no thread is left out for ever and `create_http_worker_task` does not crash, and the time that it
waits never overflows.
-/
theorem runPlan_returns (plan : RunPlan) (conn : Conn) (schedule : Nat → Action)
    (hfits : plan.TimeoutsFit) (hfair : FairSchedule plan schedule)
    (hsurvives : ∀ k, (stateAt plan conn schedule k).Survives (schedule k))
    : (∃ k, (stateAt plan conn schedule k).client.pc = .returned) ∧
        ∀ k, (stateAt plan conn schedule k).TimeIsInt := by
  constructor
  . exact (ranking plan).ends hsurvives hfair (going_start conn)
  . intro k
    have hgoing := (ranking plan).inv_stateAt (going_start conn) schedule k
    exact hgoing.timeIsInt hfits

-- The client, the only worker, the dispatcher and the DB worker take turns.
def takeTurns (k : Nat) : Action :=
  match k % 4 with
  | 0 => .client {}
  | 1 => .runtime (.worker 0 (.ok [] 200) true)
  | 2 => .runtime (.dispatcher true)
  | _ => .runtime (.dbWorker [])

theorem fair_takeTurns (cases : List RequestCase) : FairSchedule (planOf cases) takeTurns := by
  intro actor hpart k
  cases actor with
  | client =>
    refine ⟨4 * k, by omega, ?_⟩
    have hturn : 4 * k % 4 = 0 := by omega
    simp [takeTurns, hturn, Action.actor]
  | thread t =>
    cases t with
    | worker i =>
      have hi : i < (planOf cases).threads := hpart
      have hzero : i = 0 := by
        simp [RunPlan.threads, planOf, toInt] at hi
        exact hi
      refine ⟨4 * k + 1, by omega, ?_⟩
      have hturn : (4 * k + 1) % 4 = 1 := by omega
      simp [takeTurns, hturn, Action.actor, Runtime.Action.thread, hzero]
    | dispatcher =>
      refine ⟨4 * k + 2, by omega, ?_⟩
      have hturn : (4 * k + 2) % 4 = 2 := by omega
      simp [takeTurns, hturn, Action.actor, Runtime.Action.thread]
    | dbWorker =>
      refine ⟨4 * k + 3, by omega, ?_⟩
      have hturn : (4 * k + 3) % 4 = 3 := by omega
      simp [takeTurns, hturn, Action.actor, Runtime.Action.thread]

theorem survives_takeTurns (sys : Engine) (k : Nat) : sys.Survives (takeTurns k) := by
  intro env henv hcrashes
  unfold takeTurns at henv
  split at henv
  all_goals cases henv
  cases hcrashes.1

theorem runPlan_returns_takeTurns
    : (∃ k, (stateAt (planOf [postCase []]) (.open .empty) takeTurns k).client.pc = .returned) ∧
        ∀ k, (stateAt (planOf [postCase []]) (.open .empty) takeTurns k).TimeIsInt := by
  apply runPlan_returns
  . intro requestCase hmem
    rw [List.mem_singleton.mp hmem]
    decide
  . exact fair_takeTurns _
  . exact fun k => survives_takeTurns _ k

theorem Going.exec (h : Going plan sys) (acts : List Action) : Going plan (sys.exec plan acts) := by
  induction acts generalizing sys with
  | nil => exact h
  | cons act acts ih => exact ih (h.step act)

/--
The work of a run is bounded: of all the actions that the scheduler ever picks, no more than
`stepBound` of them matter, and the rest could have been left out.
-/
theorem runPlan_bounded (plan : RunPlan) (conn : Conn) (acts : List Action) (hfits : plan.TimeoutsFit)
    : ((start conn).exec plan acts).TimeIsInt ∧
        ∃ acts' : List Action,
          acts'.Sublist acts ∧ (start conn).exec plan acts' = (start conn).exec plan acts ∧
            acts'.length ≤ plan.stepBound := by
  refine ⟨((going_start conn).exec acts).timeIsInt hfits, ?_⟩
  have hrank : (start conn).rank plan = plan.stepBound := by
    simp only [rank, start, Client.start, ClientPc.rank, RunPlan.stepBound, Option.map_none,
      Option.getD_none]
    omega
  rw [← hrank]
  exact Fairness.bounded_of_rank (fun sys act h => h.step act) (fun sys act h => rank_step h act)
    (going_start conn) acts

theorem runPlan_bounded_oneCase
    : ((start (.open .empty)).exec (planOf [postCase []]) (oneCaseRun (.ok [] 200))).TimeIsInt ∧
        ∃ acts' : List Action,
          acts'.Sublist (oneCaseRun (.ok [] 200)) ∧
            (start (.open .empty)).exec (planOf [postCase []]) acts' =
              (start (.open .empty)).exec (planOf [postCase []]) (oneCaseRun (.ok [] 200)) ∧
            acts'.length ≤ (planOf [postCase []]).stepBound := by
  apply runPlan_bounded
  intro requestCase hmem
  rw [List.mem_singleton.mp hmem]
  decide

end Engine
end HttpRuntime
