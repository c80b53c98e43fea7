import HttpRuntime.Core.DbManager.Reachable
import HttpRuntime.Core.Engine.Basic

/-!
This module contains that a run leaves a reachable database behind, so that what holds of reachable
databases holds after any number of runs.
-/

open Lib

namespace HttpRuntime

namespace Engine

variable {plan : RunPlan} {sys : Engine} {Saved : Request → Prop} (hsaved : ∀ req, Saved req)

include hsaved

theorem issued_dbTaskProg (task : DbTask) : (Runtime.dbTaskProg task).Calls (Issued Saved) := by
  cases task with
  | saveCollection coll => exact (issued_dbSaveCollection coll).map
  | saveRequest req =>
    cases req with
    | none => trivial
    | some req => exact (issued_dbSaveRequest (hsaved req)).map
  | saveResponse resp => exact (issued_dbSaveResponse resp).map
  | updateStatus payload =>
    cases payload with
    | none => trivial
    | some payload =>
      exact (issued_dbUpdateRequestStatus payload.requestId payload.newStatusCode).map
  | getNextRequest => exact issued_dbGetNextPendingRequest.map
  | shutdown => trivial

theorem reachable_runtimeStep {conn : Conn} (h : conn.Reachable Saved) (rt : Runtime)
    (act : Runtime.Action) : (rt.step conn act).2.Reachable Saved := by
  cases act with
  | worker i env alloc => exact h
  | dispatcher alloc => exact h
  | dbWorker es =>
    unfold Runtime.step Runtime.dbWorkerStep
    dsimp only
    split
    . split <;> exact h
    . next task _ =>
      have hrun := h.run (issued_dbTaskProg hsaved task.item) es
      split <;> [skip; split]
      . exact h
      . next heq =>
        rw [heq] at hrun
        exact hrun
      . exact h
    . exact h

theorem reachable_clientStep (h : sys.conn.Reachable Saved) (env : ClientEnv)
    : (sys.clientStep plan env).conn.Reachable Saved := by
  unfold Engine.clientStep
  dsimp only
  cases sys.client.pc with
  | saveCollection =>
    dsimp only
    split
    . exact h
    . split <;> exact h.run (issued_dbSaveCollection _) env.calls
  | createRequest i =>
    dsimp only
    split
    . exact h
    . split
      . exact h
      . next req _ => split <;> exact h.run (issued_dbSaveRequest (hsaved req)) env.calls
  | wait i elapsed =>
    dsimp only
    split
    . exact h
    . split
      . rw [run_dbGetLatestResponseByRequestId]
        split <;> exact h
      . exact h
  | init =>
    dsimp only
    split <;> [skip; split]
    all_goals exact h
  | createRuntime =>
    dsimp only
    split <;> exact h
  | dispatch i req =>
    dsimp only
    split <;> [skip; split <;> [skip; split]]
    all_goals exact h
  | cleanup =>
    dsimp only
    split <;> exact h
  | destroy phase =>
    dsimp only
    split <;> exact h
  | returned => exact h

theorem reachable_exec (h : sys.conn.Reachable Saved) (acts : List Action)
    : (sys.exec plan acts).conn.Reachable Saved := by
  induction acts generalizing sys with
  | nil => exact h
  | cons act acts ih =>
    apply ih
    cases act with
    | client env => exact reachable_clientStep hsaved h env
    | runtime act =>
      unfold Engine.step
      dsimp only
      split
      . exact reachable_runtimeStep hsaved h _ act
      . exact h

end Engine
end HttpRuntime
