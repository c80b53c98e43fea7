import HttpRuntime.Core.Engine.Attribution
import HttpRuntime.Core.Engine.Ideal
import HttpRuntime.Core.Engine.Reachable
import HttpRuntime.Core.Engine.Verdict

/-!
This module contains the history independence of a run: as long as no stored response belongs to a
request that the plan will make, a run goes like the one without ids and without a history.
-/

open Lib Lib.Sql

namespace HttpRuntime

namespace Engine

variable {plan : RunPlan} {db : Database} {sys : Engine}

def stored (db : Database) (sys : Engine) : List (Nat × ResponseRow) :=
  List.zipWith (fun entry row => (entry.ticket, row.2.erased)) sys.saved
    (sys.conn.db.responses.rows.drop db.responses.rows.length)

def ideal (db : Database) (sys : Engine) : Ideal := ⟨sys.erased, sys.stored db⟩

theorem stored_congr {sys' : Engine} (hsaved : sys'.saved = sys.saved)
    (hresponses : sys'.conn.db.responses = sys.conn.db.responses)
    : sys'.stored db = sys.stored db := by
  unfold Engine.stored
  rw [hsaved, hresponses]

section Poll

theorem filter_stored {saved : List SavedResponse} {added : List (Nat × ResponseRow)}
    (hall : List.Forall₂ Runtime.Records saved added) {p : Nat → Bool}
    {q : Nat × ResponseRow → Bool}
    (h : ∀ entry ∈ saved, ∀ row, Runtime.Records entry row → p entry.ticket = q row)
    : ((List.zipWith (fun entry row => (entry.ticket, row.2.erased)) saved added).filter
          (fun stored => p stored.1)).map Prod.snd =
        (added.filter q).map (fun row => row.2.erased) := by
  induction hall with
  | nil => rfl
  | cons hrecord hall ih =>
    have hhead := h _ List.mem_cons_self _ hrecord
    have ih := ih (fun entry hentry => h entry (List.mem_cons_of_mem _ hentry))
    rw [List.zipWith_cons_cons, List.filter_cons, List.filter_cons]
    dsimp only
    rw [hhead]
    split
    . rw [List.map_cons, List.map_cons, ih]
    . exact ih

/-- The latest row of a case is the last one that a case of the same identity got in this run. -/
theorem Inv.latest (h : Inv plan db sys) (hstale : ¬ Stale plan db) (hpollable : plan.Pollable) {i : Nat}
    (hi : sys.client.requestIds i ≠ -1)
    : Ideal.latest plan (sys.stored db) i =
        (latestResponse sys.conn.db (sys.client.requestIds i)).map (fun row => row.2.erased) := by
  rcases h.stored with ⟨added, hrows, hall⟩
  have hold : db.responses.rows.filter
      (fun row => row.2.requestId.same (.integer (sys.client.requestIds i))) = [] := by
    rw [List.filter_eq_nil_iff]
    intro row hrow
    rw [Value.same_iff]
    intro hsame
    exact h.fresh hstale hpollable hi hrow hsame.1
  have hsame : ∀ entry ∈ sys.saved, ∀ row, Runtime.Records entry row →
      Ideal.sameIdentity plan entry.ticket i =
        row.2.requestId.same (.integer (sys.client.requestIds i)) := by
    intro entry hentry row hrecord
    have ⟨hid, hne⟩ := h.carried _ (mem_carried_of_mem_saved hentry)
    dsimp only at hid hne
    have hidentity := h.identity_of_requestId (hid ▸ hne) hi
    unfold Ideal.sameIdentity
    rw [Bool.eq_iff_iff, beq_iff_eq, ← hidentity, Value.same_iff, hrecord.2, hid, Value.integer.injEq]
    simp
  have hfilter := filter_stored (p := fun ticket => Ideal.sameIdentity plan ticket i)
    (q := fun row => row.2.requestId.same (.integer (sys.client.requestIds i))) hall hsame
  unfold Ideal.latest Engine.stored latestResponse responsesOf
  rw [hrows, List.drop_left, hfilter, List.filter_append, hold, List.nil_append, List.getLast?_map]

end Poll

section ClientStep

theorem erased_clientStep {env : ClientEnv} (hcreate : ∀ i, sys.client.pc ≠ .createRequest i)
    (hwait : ∀ i elapsed, sys.client.pc ≠ .wait i elapsed)
    : (sys.clientStep plan env).erased =
        { sys.erased.clientStep plan env with conn := (sys.erased.clientStep plan env).conn.erased } := by
  rcases sys with ⟨conn, runtime, pc, collId, requestIds, result, exitCode⟩
  dsimp only at hcreate hwait
  unfold Engine.clientStep
  cases pc with
  | init =>
    dsimp only [Engine.erased, Client.erased, ClientPc.erased]
    split
    . rfl
    . split <;> rfl
  | saveCollection =>
    dsimp only [Engine.erased, Client.erased, ClientPc.erased]
    split
    . rfl
    . next coll hcoll =>
      have hsame : conn.db.collections = conn.erased.db.collections := rfl
      have ⟨hres, hcollections⟩ := dbSaveCollection_onCollections hsame coll env.calls
      have hconn := Conn.erased_eq hcollections
      rw [← hres]
      split
      . rw [hconn]
        rfl
      . rw [hconn]
  | createRuntime =>
    dsimp only [Engine.erased, Client.erased, ClientPc.erased]
    split
    . rfl
    . next rt hrt =>
      split at hrt
      . rw [Option.map_some, erased_createRuntime hrt]
        rfl
      . cases hrt
  | createRequest i => exact absurd rfl (hcreate i)
  | dispatch i req =>
    dsimp only [Engine.erased, Client.erased, ClientPc.erased]
    split
    . rfl
    . cases runtime with
      | none => rfl
      | some rt =>
        have hdispatch := rt.erased_dispatchTask ⟨i, ⟨some req⟩⟩ env.node
        dsimp only [Ticketed.map, WorkerTask.erased, Option.map_some] at hdispatch ⊢
        rw [hdispatch]
        split <;> rfl
  | wait i elapsed => exact absurd rfl (hwait i elapsed)
  | cleanup =>
    cases runtime with
    | none => rfl
    | some rt => rfl
  | destroy phase =>
    cases runtime with
    | none => rfl
    | some rt =>
      have hdestroy := rt.erased_destroyStep phase
      cases phase with
      | returned => rfl
      | _ =>
        dsimp only [Engine.erased, Client.erased, ClientPc.erased, Option.map_some]
        rw [hdestroy]
        rfl
  | returned => rfl

theorem pc_erased_ne {pc : ClientPc} (hpc : sys.client.pc ≠ pc) (hdispatch : ∀ i req, pc ≠ .dispatch i req)
    : (sys.ideal db).engine.client.pc ≠ pc := by
  unfold Engine.ideal Engine.erased Client.erased ClientPc.erased
  dsimp only
  split
  . exact (hdispatch _ _).symm
  . exact hpc

theorem pc_erased (db : Database) {pc : ClientPc} (hpc : sys.client.pc = pc) (hdispatch : pc.erased = pc)
    : (sys.ideal db).engine.client.pc = pc := by
  unfold Engine.ideal Engine.erased Client.erased
  dsimp only
  rw [hpc, hdispatch]

theorem Inv.ideal_createRequest (h : Inv plan db sys) {i : Nat}
    (hpc : sys.client.pc = .createRequest i) (env : ClientEnv)
    : (sys.clientStep plan env).erased = ((sys.ideal db).clientStep plan env).engine := by
  have hpc' := pc_erased db hpc rfl
  unfold Engine.clientStep Ideal.clientStep
  dsimp only
  rw [hpc']
  simp only [hpc]
  cases plan.cases[i]? with
  | none => rfl
  | some requestCase =>
    dsimp only
    have hcollId : (sys.ideal db).engine.client.collId = sys.client.collId := rfl
    rw [hcollId]
    cases hreq : createCaseRequest requestCase sys.client.collId env.alloc with
    | none => rfl
    | some req =>
      dsimp only
      have hcoll := h.collectionOf (by rw [hpc]; rfl) hreq
      have hcollections :=
        (stepped_dbSaveRequest req env.calls sys.conn).grown_insertRequest.2
      have hconn := Conn.erased_eq hcollections
      by_cases hsavable : Savable req env.calls
      . rcases dbSaveRequest_of_savable hcoll hsavable with ⟨row, hrun, _⟩
        rw [hrun] at hconn
        rw [if_pos hsavable, hrun]
        dsimp only
        rw [if_neg (by decide)]
        unfold Engine.erased
        dsimp only
        rw [hconn]
        simp only [Client.erased, ClientPc.erased, Option.getD_some]
        rw [Request.erased_withId, createCaseRequest_erased hreq]
        rfl
      . rw [if_neg hsavable, dbSaveRequest_of_not_savable hcoll hsavable]
        dsimp only
        rw [if_pos rfl]
        unfold Engine.erased
        dsimp only
        rw [hconn]
        rfl

theorem Inv.ideal_wait (h : Inv plan db sys) (hstale : ¬ Stale plan db) {i : Nat} {elapsed : Int}
    (hpc : sys.client.pc = .wait i elapsed) (env : ClientEnv)
    : (sys.clientStep plan env).erased = ((sys.ideal db).clientStep plan env).engine := by
  have hpc' := pc_erased db hpc rfl
  unfold Engine.clientStep Ideal.clientStep
  dsimp only
  rw [hpc']
  simp only [hpc]
  cases hcase : plan.cases[i]? with
  | none => rfl
  | some requestCase =>
    dsimp only
    split
    . have hi := h.requestIds_ne hpc (List.getElem?_eq_some_iff.mp hcase).1
      have hstored : (sys.ideal db).stored = sys.stored db := rfl
      rw [run_dbGetLatestResponseByRequestId, hstored, h.latest hstale (h.pollable hpc) hi]
      cases latestResponse sys.conn.db (sys.client.requestIds i) with
      | none => rfl
      | some row =>
        dsimp only [Option.map_some, Option.bind_some]
        rw [pollResponse_erased]
        cases pollResponse env.calls row with
        | none => rfl
        | some resp =>
          dsimp only [Option.map_some]
          unfold Engine.erased Client.erased
          dsimp only
          rw [← RunResult.erased_receive]
          rfl
    . unfold Engine.erased Client.erased
      dsimp only
      rw [← RunResult.erased_timeOut]
      rfl

theorem Inv.ideal_clientStep (h : Inv plan db sys) (hstale : ¬ Stale plan db) (env : ClientEnv)
    : (sys.clientStep plan env).ideal db = (sys.ideal db).clientStep plan env := by
  have ⟨hsaved, hresponses⟩ := h.clientStep_keeps env
  have hstored : ((sys.ideal db).clientStep plan env).stored = sys.stored db := by
    rw [Ideal.stored_clientStep]
    rfl
  have hengine : (sys.clientStep plan env).erased = ((sys.ideal db).clientStep plan env).engine := by
    by_cases hcreate : ∃ i, sys.client.pc = .createRequest i
    . rcases hcreate with ⟨i, hpc⟩
      exact h.ideal_createRequest hpc env
    . by_cases hwait : ∃ i elapsed, sys.client.pc = .wait i elapsed
      . rcases hwait with ⟨i, elapsed, hpc⟩
        exact h.ideal_wait hstale hpc env
      . rw [not_exists] at hcreate
        have hwait : ∀ i elapsed, sys.client.pc ≠ .wait i elapsed := by simpa using hwait
        rw [erased_clientStep hcreate hwait, Ideal.engine_clientStep]
        . rfl
        . exact fun i => pc_erased_ne (hcreate i) (by simp)
        . exact fun i elapsed => pc_erased_ne (hwait i elapsed) (by simp)
  exact Ideal.ext hengine ((stored_congr hsaved hresponses).trans hstored.symm)

end ClientStep

section RuntimeStep

variable {rt : Runtime}

theorem Inv.hasRequest (h : Inv plan db sys) (hrt : sys.runtime = some rt)
    {task : Ticketed DbTask} (htask : rt.dbWorker = .executing task) {resp : Response}
    (hitem : task.item = .saveResponse (some resp)) : HasRequest sys.conn.db resp.requestId := by
  have hmem : (task.ticket, resp.requestId) ∈ sys.carried := by
    unfold Engine.carried Runtime.carried
    rw [hrt, Option.map_some, Option.getD_some, htask]
    simp [DbWorkerState.carried, carriedByDbTask, hitem]
  have hid : sys.client.requestIds task.ticket = resp.requestId := (h.carried _ hmem).1
  have hne : resp.requestId ≠ -1 := (h.carried _ hmem).2
  rcases h.assigned task.ticket (hid ▸ hne) with ⟨_, row, _, _, hlookup, hrow⟩
  exact ⟨row, Table.mem_of_lookup hlookup, hid.symm.trans hrow⟩

theorem none_mem_responseParams_erased {resp : Response}
    : none ∈ responseParams resp.erased ↔ none ∈ responseParams resp := by
  simp [responseParams, Response.erased, bindInt]

theorem Inv.ideal_saveResponse (h : Inv plan db sys) (hrt : sys.runtime = some rt)
    {task : Ticketed DbTask} (htask : rt.dbWorker = .executing task) {resp : Response}
    (hitem : task.item = .saveResponse (some resp)) (es : List CallEnv)
    : Engine.ideal db {
          sys with
          runtime := some (rt.dbWorkerStep sys.conn es).1
          conn := (rt.dbWorkerStep sys.conn es).2
        } = (sys.ideal db).runtimeStep rt.erased (.dbWorker es) := by
  have hhas := h.hasRequest hrt htask hitem
  have htask' : rt.erased.dbWorker = .executing (task.map DbTask.erased) := by
    unfold Runtime.erased
    dsimp only
    rw [htask]
    rfl
  have hitem' : (task.map DbTask.erased).item = .saveResponse (some resp.erased) := by
    unfold Ticketed.map
    dsimp only
    rw [hitem]
    rfl
  rw [Ideal.runtimeStep_saveResponse htask' hitem', Runtime.dbWorkerStep_saveResponse htask hitem hhas]
  simp only [none_mem_responseParams_erased]
  rcases h.stored with ⟨added, hrows, hall⟩
  split
  . apply Ideal.ext
    . unfold Engine.ideal Engine.erased Ideal.setRuntime
      rfl
    . unfold Engine.ideal Engine.stored Engine.saved at *
      dsimp only [insertedResponse]
      rw [Table.rows_insert, hrows, List.append_assoc, List.drop_left, List.drop_left]
      rw [hrt, Option.map_some, Option.getD_some] at hall ⊢
      rw [Option.map_some, Option.getD_some, List.zipWith_append hall.length_eq]
      rfl
  . apply Ideal.ext
    . unfold Engine.ideal Engine.erased Ideal.setRuntime
      rfl
    . apply stored_congr
      . exact saved_eq_of_runtime hrt rfl
      . rfl

theorem Inv.ideal_runtimeStep (h : Inv plan db sys) (hrt : sys.runtime = some rt)
    (act : Runtime.Action)
    : Engine.ideal db {
          sys with
          runtime := some (rt.step sys.conn act).1
          conn := (rt.step sys.conn act).2
        } = (sys.ideal db).runtimeStep rt.erased act := by
  cases act with
  | worker i env alloc =>
    apply Ideal.ext
    . unfold Engine.ideal Engine.erased Ideal.runtimeStep Ideal.setRuntime Runtime.step
      dsimp only
      rw [Option.map_some, Runtime.erased_workerStep]
    . apply stored_congr
      . exact saved_eq_of_runtime hrt (Runtime.saved_workerStep i env alloc)
      . rfl
  | dispatcher alloc =>
    apply Ideal.ext
    . unfold Engine.ideal Engine.erased Ideal.runtimeStep Ideal.setRuntime Runtime.step
      dsimp only
      rw [Option.map_some, Runtime.erased_dispatcherStep]
    . apply stored_congr
      . exact saved_eq_of_runtime hrt (Runtime.saved_dispatcherStep alloc)
      . rfl
  | dbWorker es =>
    by_cases hexecuting : ∃ task, rt.dbWorker = .executing task
    . rcases hexecuting with ⟨task, htask⟩
      rcases (h.dbTasks rt hrt).dbWorker task htask with ⟨resp, hitem⟩
      exact h.ideal_saveResponse hrt htask hitem es
    . rw [not_exists] at hexecuting
      have ⟨hconn, hsaved⟩ := Runtime.dbWorkerStep_idle sys.conn hexecuting es
      rw [Ideal.runtimeStep_of_not_executing (Runtime.erased_dbWorker_ne_executing hexecuting)]
      unfold Runtime.step
      dsimp only
      apply Ideal.ext
      . unfold Engine.ideal Engine.erased Ideal.setRuntime
        dsimp only
        rw [Option.map_some, hconn, Runtime.erased_dbWorkerStep sys.conn.erased sys.conn hexecuting]
      . apply stored_congr
        . exact saved_eq_of_runtime hrt hsaved
        . exact congrArg (fun conn : Conn => conn.db.responses) hconn

/-- Every step of a run is one of the run without ids. -/
theorem Inv.ideal_step (h : Inv plan db sys) (hstale : ¬ Stale plan db) (act : Action)
    : (sys.step plan act).ideal db = (sys.ideal db).step plan act := by
  cases act with
  | client env => exact h.ideal_clientStep hstale env
  | runtime act =>
    unfold Engine.step Ideal.step
    have hruntime : (sys.ideal db).engine.runtime = sys.runtime.map Runtime.erased := rfl
    rw [hruntime]
    cases hrt : sys.runtime with
    | none => rfl
    | some rt => exact h.ideal_runtimeStep hrt act

end RuntimeStep

section Run

variable (hlinked : db.Linked) (hfit : db.IdsFit) (hstale : ¬ Stale plan db)

include hlinked hfit hstale

theorem Inv.ideal_exec (h : Inv plan db sys) (acts : List Action)
    : (sys.exec plan acts).ideal db = (sys.ideal db).exec plan acts := by
  induction acts generalizing sys with
  | nil => rfl
  | cons act acts ih =>
    unfold Engine.exec Ideal.exec at ih ⊢
    rw [List.foldl_cons, List.foldl_cons, ih (h.step hlinked hfit act),
      h.ideal_step hstale]

end Run

theorem ideal_start {conn conn' : Conn} (h : conn.db.collections = conn'.db.collections)
    : (start conn).ideal conn.db = (start conn').ideal conn'.db := by
  unfold Engine.ideal Engine.erased Engine.stored Engine.start
  dsimp only
  rw [Conn.erased_eq h]
  rfl

end Engine

/--
Two runs with the same collections, transfers and schedule end alike, whatever else is stored: the
clients differ at most in ids, and every response they have is a row of their own run.
-/
theorem runPlan_history_independent {plan : RunPlan} {Saved : Request → Prop} {conn conn' : Conn}
    (hreach : conn.Reachable Saved) (hreach' : conn'.Reachable Saved)
    (hcollections : conn.db.collections = conn'.db.collections)
    (hfit : conn.db.IdsFit) (hfit' : conn'.db.IdsFit)
    (hstale : ¬ Stale plan conn.db) (hstale' : ¬ Stale plan conn'.db) (acts : List Engine.Action)
    : let sys := (Engine.start (.open conn.db)).exec plan acts
      let sys' := (Engine.start (.open conn'.db)).exec plan acts
      sys.client.erased = sys'.client.erased ∧ sys.Attached ∧ sys'.Attached := by
  have hstart : Engine.Inv plan conn.db (Engine.start (.open conn.db)) := .start (.open conn.db)
  have hstart' : Engine.Inv plan conn'.db (Engine.start (.open conn'.db)) := .start (.open conn'.db)
  have hlinked := hreach.linked.1
  have hlinked' := hreach'.linked.1
  have hideal := hstart.ideal_exec hlinked hfit hstale acts
  have hideal' := hstart'.ideal_exec hlinked' hfit' hstale' acts
  have hsame : (Engine.start (.open conn.db)).ideal conn.db =
      (Engine.start (.open conn'.db)).ideal conn'.db := Engine.ideal_start hcollections
  rw [hsame, ← hideal'] at hideal
  refine ⟨congrArg (fun run : Ideal => run.engine.client) hideal, ?_, ?_⟩
  . exact (Engine.Attached.start _).exec hlinked hfit hstale hstart acts
  . exact (Engine.Attached.start _).exec hlinked' hfit' hstale' hstart' acts

-- After a run of a plan with another body.
def otherRun : Conn :=
  ((Engine.start (.open .empty)).exec (planOf [{ postCase [] with body := some [99] }])
    (oneCaseRun (.ok [] 200))).conn

-- After a run that stopped when it had its collection.
def stoppedRun : Conn := ((Engine.start (.open .empty)).exec statusPlan (clientSteps 2)).conn

-- The client polls before the transfer is done.
def earlyPollRun (env : TransferEnv) : List Engine.Action :=
  clientSteps 7 ++ processTask env ++ clientSteps 3 ++ shutDown

theorem runPlan_history_independent_other
    : let sys := (Engine.start (.open otherRun.db)).exec statusPlan (earlyPollRun (.ok [] 500))
      let sys' := (Engine.start (.open stoppedRun.db)).exec statusPlan (earlyPollRun (.ok [] 500))
      sys.client.erased = sys'.client.erased ∧ sys.Attached ∧ sys'.Attached := by
  have hreach : otherRun.Reachable (fun _ => True) := Engine.reachable_exec (fun _ => trivial) .first _
  have hreach' : stoppedRun.Reachable (fun _ => True) :=
    Engine.reachable_exec (fun _ => trivial) .first _
  apply runPlan_history_independent hreach hreach'
  . apply Table.ext <;> decide +kernel
  . constructor <;> decide +kernel
  . constructor <;> decide +kernel
  . decide +kernel
  . decide +kernel

/-- The response of the earlier run passes the assertion that the response of this run fails. -/
theorem runPlan_history_dependent
    : let sys := (Engine.start (.open earlierRun.db)).exec statusPlan (earlyPollRun (.ok [] 500))
      let sys' := (Engine.start (.open stoppedRun.db)).exec statusPlan (earlyPollRun (.ok [] 500))
      earlierRun.db.collections = stoppedRun.db.collections ∧
      sys.client.pc = .returned ∧ sys'.client.pc = .returned ∧
      sys.client.exitCode = 0 ∧ sys'.client.exitCode = 1 ∧ ¬ sys.Attached := by
  refine ⟨?_, by decide +kernel, by decide +kernel, by decide +kernel, by decide +kernel, ?_⟩
  . apply Table.ext <;> decide +kernel
  have hsaved : ((Engine.start (.open earlierRun.db)).exec statusPlan
      (earlyPollRun (.ok [] 500))).saved = [⟨0, 1, 2⟩] := by
    decide +kernel
  have hid : (((Engine.start (.open earlierRun.db)).exec statusPlan
      (earlyPollRun (.ok [] 500))).client.result.caseResults 0).response.map Response.id = some 1 := by
    decide +kernel
  intro h
  rw [Option.map_eq_some_iff] at hid
  rcases hid with ⟨resp, hresp, hid⟩
  rcases h 0 resp hresp with ⟨entry, hentry, row, _, hrecord, hdecode, _⟩
  rw [hsaved, List.mem_singleton] at hentry
  have hrow : row.1 = 2 := by
    rw [hrecord.1, hentry]
  have hdecodeId : resp.id = Lib.toInt row.1 := by
    rw [hdecode]
    rfl
  rw [hid, hrow] at hdecodeId
  revert hdecodeId
  decide

end HttpRuntime
