import HttpRuntime.Core.Engine.Coherence
import HttpRuntime.Core.Runtime.Owned

/-!
This module contains what the client of a run knows of its runtime: which of its threads have ended,
and that the queue of the requests is open until the cleanup.
-/

open Lib

namespace HttpRuntime

namespace Runtime

/-- What the client relies on when it is at `pc`. -/
structure Tidy (rt : Runtime) (pc : ClientPc) : Prop where
  late : pc.phase ≠ .preparing
  orderly : rt.Orderly
  dbTasks : rt.DbTasks (· ≠ .shutdown)
  workers : rt.workers ≠ []
  opened : pc.phase = .creating → rt.requestQueue.closed = false
  joined : ∀ phase, pc = .destroy phase → rt.Joined phase
  ended : pc = .returned → rt.dbWorker = .exited

variable {rt : Runtime} {conn : Conn} {pc : ClientPc}

theorem tidy_createRuntime {n : Int} (h : createRuntime n = some rt) : rt.Tidy (.createRequest 0) := by
  have ⟨_, _, hworkers, hopened⟩ := owned_createRuntime h (fun _ => [])
  exact {
    late := by simp [ClientPc.phase]
    orderly := orderly_createRuntime h
    dbTasks := dbTasks_createRuntime h
    workers := hworkers
    opened := fun _ => hopened
    joined := by simp
    ended := by simp
  }

-- The client goes on before the cleanup, or to it.
theorem Tidy.goto (h : rt.Tidy pc) {pc' : ClientPc} (hlate : pc'.phase ≠ .preparing)
    (hopened : pc'.phase = .creating → pc.phase = .creating)
    (hdestroy : ∀ phase, pc' ≠ .destroy phase) (hreturned : pc' ≠ .returned) : rt.Tidy pc' where
  late := hlate
  orderly := h.orderly
  dbTasks := h.dbTasks
  workers := h.workers
  opened := fun hphase => h.opened (hopened hphase)
  joined := fun phase heq => absurd heq (hdestroy phase)
  ended := fun heq => absurd heq hreturned

theorem Tidy.dispatchTask (h : rt.Tidy pc) (task : Ticketed WorkerTask) (alloc : Bool)
    : (rt.dispatchTask (.worker task) alloc).1.Tidy pc where
  late := h.late
  orderly := h.orderly.pushRequest task alloc
  dbTasks := ⟨h.dbTasks.dbQueue, h.dbTasks.dispatcher, h.dbTasks.dbWorker⟩
  workers := h.workers
  opened := by
    intro hphase
    unfold Runtime.dispatchTask
    dsimp only
    rw [pushQueue_closed]
    exact h.opened hphase
  joined := by
    intro phase heq
    cases phase with
    | joinWorkers i => exact h.joined _ heq
    | joinDispatcher => trivial
    | joinDbWorker => trivial
    | returned => exact h.joined .returned heq
  ended := h.ended

theorem Tidy.destroyStart (h : rt.Tidy pc) : rt.destroyStart.1.Tidy (.destroy rt.destroyStart.2) where
  late := by simp [ClientPc.phase]
  orderly := h.orderly.destroyStart
  dbTasks := h.dbTasks.destroyStart
  workers := h.workers
  opened := by simp [ClientPc.phase]
  joined := by
    intro phase heq
    rw [ClientPc.destroy.injEq] at heq
    rw [← heq]
    exact .destroyStart rt
  ended := by simp

theorem Tidy.destroyStep {phase : DestroyPhase} (h : rt.Tidy (.destroy phase))
    : (rt.destroyStep phase).1.Tidy (.destroy (rt.destroyStep phase).2) := by
  have hjoined := h.joined phase rfl
  exact {
    late := by simp [ClientPc.phase]
    orderly := h.orderly.destroyStep hjoined
    dbTasks := h.dbTasks.destroyStep phase
    workers := by
      have hworkers : (rt.destroyStep phase).1.workers = rt.workers := by
        unfold Runtime.destroyStep
        split <;> [split <;> [split; skip]; split; split; skip]
        all_goals rfl
      rw [hworkers]
      exact h.workers
    opened := by simp [ClientPc.phase]
    joined := by
      intro phase' heq
      rw [ClientPc.destroy.injEq] at heq
      rw [← heq]
      exact hjoined.destroyStep
    ended := by simp
  }

theorem Tidy.finish (h : rt.Tidy (.destroy .returned)) : rt.Tidy .returned where
  late := by simp [ClientPc.phase]
  orderly := h.orderly
  dbTasks := h.dbTasks
  workers := h.workers
  opened := by simp [ClientPc.phase]
  joined := by simp
  ended := fun _ => h.joined .returned rfl

theorem closed_step (act : Action)
    : (rt.step conn act).1.requestQueue.closed = rt.requestQueue.closed := by
  cases act with
  | worker i env alloc =>
    unfold step workerStep
    dsimp only
    split
    . have hpop := Fifo.pop_closed rt.requestQueue
      split
      . next hitem =>
        rw [hitem] at hpop
        exact hpop
      . rfl
      . rfl
    . split <;> rfl
    . rfl
    . rfl
    . rfl
  | dispatcher alloc =>
    unfold step
    dsimp only
    rw [dispatcherStep_frame]
  | dbWorker es =>
    unfold step
    dsimp only
    rw [dbWorkerStep_frame]

theorem Tidy.step (h : rt.Tidy pc) (act : Action) : (rt.step conn act).1.Tidy pc where
  late := h.late
  orderly := h.orderly.step h.dbTasks act
  dbTasks := h.dbTasks.step (by simp) act
  workers := by
    rw [← List.length_pos_iff_ne_nil, length_workers_step, List.length_pos_iff_ne_nil]
    exact h.workers
  opened := by
    rw [closed_step]
    exact h.opened
  joined := fun phase heq => (h.joined phase heq).step act
  ended := fun heq => dbWorker_exited_step (h.ended heq) act

end Runtime

namespace Engine

/-- The client has a runtime when it dispatches, and none before it created one. -/
def Tidy (sys : Engine) : Prop :=
  match sys.runtime with
  | none => sys.client.pc.phase ≠ .creating
  | some rt => rt.Tidy sys.client.pc

namespace Tidy

variable {plan : RunPlan} {sys : Engine}

theorem start (conn : Conn) : (Engine.start conn).Tidy := by
  show ClientPc.phase .init ≠ .creating
  simp [ClientPc.phase]

theorem runtime_none (h : sys.Tidy) (hphase : sys.client.pc.phase = .preparing) : sys.runtime = none := by
  unfold Tidy at h
  cases hrt : sys.runtime with
  | none => rfl
  | some rt =>
    rw [hrt] at h
    exact absurd hphase h.late

theorem runtime_some (h : sys.Tidy) {rt : Runtime} (hrt : sys.runtime = some rt) : rt.Tidy sys.client.pc := by
  unfold Tidy at h
  rw [hrt] at h
  exact h

theorem creating (h : sys.Tidy) (hphase : sys.client.pc.phase = .creating)
    : ∃ rt, sys.runtime = some rt ∧ rt.requestQueue.closed = false := by
  unfold Tidy at h
  cases hrt : sys.runtime with
  | none =>
    rw [hrt] at h
    exact absurd hphase h
  | some rt =>
    rw [hrt] at h
    exact ⟨rt, rfl, h.opened hphase⟩

theorem goto (h : sys.Tidy) {conn : Conn} {client : Client}
    (hlate : client.pc.phase = .preparing → sys.client.pc.phase = .preparing)
    (hopened : client.pc.phase = .creating → sys.client.pc.phase = .creating)
    (hdestroy : ∀ phase, client.pc ≠ .destroy phase)
    (hreturned : client.pc = .returned → sys.runtime = none)
    : Engine.Tidy { sys with conn := conn, client := client } := by
  unfold Tidy at h ⊢
  dsimp only
  cases hrt : sys.runtime with
  | none =>
    rw [hrt] at h
    exact fun hphase => h (hopened hphase)
  | some rt =>
    rw [hrt] at h
    apply h.goto (fun hphase => h.late (hlate hphase)) hopened hdestroy
    intro heq
    have hnone := hreturned heq
    rw [hrt] at hnone
    cases hnone

theorem clientStep (h : sys.Tidy) (env : ClientEnv) : (sys.clientStep plan env).Tidy := by
  unfold Engine.clientStep
  dsimp only
  cases hpc : sys.client.pc with
  | init =>
    have hphase : sys.client.pc.phase = .preparing := by rw [hpc]; rfl
    dsimp only
    split <;> [skip; split]
    all_goals
      apply h.goto
      all_goals simp [Client.goto, ClientPc.phase, hpc]
  | saveCollection =>
    dsimp only
    split <;> [skip; split]
    all_goals
      apply h.goto
      all_goals simp [Client.goto, ClientPc.phase, hpc]
  | createRuntime =>
    dsimp only
    split
    . apply h.goto
      all_goals simp [Client.goto, ClientPc.phase]
    . next rt hrt =>
      split at hrt
      . exact Runtime.tidy_createRuntime hrt
      . cases hrt
  | createRequest i =>
    dsimp only
    split
    . apply h.goto
      all_goals simp [Client.goto, ClientPc.phase]
    . split
      . apply h.goto
        all_goals simp [Client.failRequests, ClientPc.phase]
      . split
        all_goals
          apply h.goto
          all_goals simp [Client.failRequests, ClientPc.phase, hpc]
  | dispatch i req =>
    dsimp only
    split
    . exact h
    . split
      . apply h.goto
        all_goals simp [Client.failRequests, ClientPc.phase]
      . next rt hrt =>
        have htidy := (h.runtime_some hrt).dispatchTask ⟨i, ⟨some req⟩⟩ env.node
        rw [hpc] at htidy
        split
        all_goals
          apply htidy.goto
          all_goals simp [Client.failRequests, Client.goto, ClientPc.phase]
  | wait i elapsed =>
    dsimp only
    split <;> [skip; split <;> [split; skip]]
    all_goals
      apply h.goto
      all_goals simp [Client.goto, ClientPc.phase]
  | cleanup =>
    dsimp only
    split
    . next rt hrt => exact (h.runtime_some hrt).destroyStart
    . next hrt =>
      apply h.goto
      all_goals simp [ClientPc.phase, hrt]
  | destroy phase =>
    dsimp only
    split
    . next rt hrt =>
      have htidy := h.runtime_some hrt
      rw [hpc] at htidy
      exact htidy.finish
    . next rt hrt hne =>
      have htidy := h.runtime_some hrt
      rw [hpc] at htidy
      exact htidy.destroyStep
    . exact h
  | returned => exact h

theorem step (h : sys.Tidy) (act : Action) : (sys.step plan act).Tidy := by
  cases act with
  | client env => exact h.clientStep env
  | runtime act =>
    unfold Engine.step
    dsimp only
    cases hrt : sys.runtime with
    | none => exact h
    | some rt => exact (h.runtime_some hrt).step act

theorem exec (h : sys.Tidy) (acts : List Action) : (sys.exec plan acts).Tidy := by
  induction acts generalizing sys with
  | nil => exact h
  | cons act acts ih => exact ih (h.step act)

end Tidy
end Engine
end HttpRuntime
