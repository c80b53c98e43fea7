import HttpRuntime.Core.Engine.History
import HttpRuntime.Core.Engine.Sequential
import HttpRuntime.Core.Runtime.Flows

/-!
This module contains that the schedule of a run does not matter: what is in the pipeline is always on the
way to what the sequential run computes, and the client finds nothing else. It may give up waiting for a
case, and that is all.
-/

open Lib Lib.Sql

namespace HttpRuntime

section Follows

variable {plan : RunPlan} {serve : Nat → TransferEnv} {run : Ideal}

def IsTask (plan : RunPlan) (task : Ticketed WorkerTask) : Prop :=
  ∃ requestCase collId alloc req, plan.cases[task.ticket]? = some requestCase ∧
    createCaseRequest requestCase collId alloc = some req ∧ task.item.data = some req

def IsAnswer (plan : RunPlan) (serve : Nat → TransferEnv) (resp : Ticketed Response) : Prop :=
  ∃ requestCase req, plan.cases[resp.ticket]? = some requestCase ∧
    createCaseRequest requestCase 0 true = some req ∧
    httpWorkerTask (serve resp.ticket) (some req) = some resp.item

theorem IsTask.isAnswer {task : Ticketed WorkerTask} (h : IsTask plan task) {resp : Response}
    (hresp : httpWorkerTask (serve task.ticket) task.item.data = some resp)
    : IsAnswer plan serve ⟨task.ticket, resp⟩ := by
  obtain ⟨requestCase, collId, alloc, req, hcase, hreq, hdata⟩ := h
  -- A transfer does not read the collection.
  refine ⟨requestCase, { req with collectionId := 0 }, hcase, (createCaseRequest_zero hreq).1, ?_⟩
  rw [hdata] at hresp
  exact hresp

theorem IsAnswer.answer {ticket : Nat} {resp : Response} (h : IsAnswer plan serve ⟨ticket, resp⟩)
    (hparams : none ∉ responseParams resp) (createdAt : Nat)
    : plan.answer serve ticket = some (decodeResponse (0, responseRow resp createdAt)) := by
  obtain ⟨requestCase, req, hcase, hreq, hresp⟩ := h
  unfold RunPlan.answer RequestCase.roundTrip
  dsimp only at hresp
  rw [hcase, Option.bind_some, hreq, hresp, Option.bind_some, if_neg (by simpa using hparams)]
  rfl

/-- All that a run without ids holds is what the sequential run would make of it. -/
structure Ideal.Follows (plan : RunPlan) (serve : Nat → TransferEnv) (run : Ideal) : Prop where
  flows : ∀ rt, run.engine.runtime = some rt → rt.Flows (IsTask plan) (IsAnswer plan serve)
  dispatching : ∀ i req, run.engine.client.pc = .dispatch i req → IsTask plan ⟨i, ⟨some req⟩⟩
  stored : ∀ entry ∈ run.stored, plan.answer serve entry.1 = some (decodeResponse (0, entry.2))
  results : ∀ i, (run.engine.client.result.caseResults i).response ≠ none →
    run.engine.client.result.caseResultCount = plan.cases.length ∧
      run.engine.client.result.caseResults i = (runSequentially plan serve).caseResults i

theorem Engine.clientStep_count (sys : Engine) (env : ClientEnv)
    : (sys.clientStep plan env).client.result.caseResultCount = sys.client.result.caseResultCount ∨
        (sys.clientStep plan env).client.result.caseResultCount = plan.cases.length := by
  unfold Engine.clientStep
  dsimp only
  cases sys.client.pc with
  | createRuntime =>
    dsimp only
    split
    . exact .inl rfl
    . exact .inr rfl
  | _ =>
    dsimp only
    left
    repeat' split
    all_goals rfl

namespace Ideal.Follows

theorem setClient (h : run.Follows plan serve) {client : Client}
    (hdispatching : ∀ i req, client.pc = .dispatch i req → IsTask plan ⟨i, ⟨some req⟩⟩)
    (hresults : ∀ i, (client.result.caseResults i).response ≠ none →
      client.result.caseResultCount = plan.cases.length ∧
        client.result.caseResults i = (runSequentially plan serve).caseResults i)
    : (run.setClient client).Follows plan serve where
  flows := h.flows
  dispatching := hdispatching
  stored := h.stored
  results := hresults

theorem createRequest (h : run.Follows plan serve) {i : Nat} (hpc : run.engine.client.pc = .createRequest i)
    (env : ClientEnv) : (run.clientStep plan env).Follows plan serve := by
  unfold Ideal.clientStep
  dsimp only
  rw [hpc]
  dsimp only
  cases hcase : plan.cases[i]? with
  | none => exact h.setClient (by simp [Client.goto]) h.results
  | some requestCase =>
    dsimp only
    split
    . exact h.setClient (by simp [Client.failRequests]) h.results
    . next req hreq =>
      split
      . refine h.setClient ?_ h.results
        intro j req' heq
        unfold Client.goto at heq
        rw [ClientPc.dispatch.injEq] at heq
        rw [← heq.1, ← heq.2]
        exact ⟨requestCase, _, _, req, hcase, hreq, rfl⟩
      . exact h.setClient (by simp [Client.failRequests]) h.results

theorem latest (h : run.Follows plan serve) (halike : AnsweredAlike plan serve) {i : Nat} {row : ResponseRow}
    (hrow : Ideal.latest plan run.stored i = some row) : plan.answer serve i = some (decodeResponse (0, row)) := by
  unfold Ideal.latest at hrow
  have hmem := List.mem_of_getLast? hrow
  rw [List.mem_map] at hmem
  obtain ⟨entry, hentry, heq⟩ := hmem
  rw [List.mem_filter] at hentry
  rw [← halike entry.1 i hentry.2, h.stored entry hentry.1, heq]

-- `hwaiting` is about the engine: the case that it waits for has no result yet.
theorem wait (h : run.Follows plan serve) (halike : AnsweredAlike plan serve) {i : Nat} {elapsed : Int}
    (hpc : run.engine.client.pc = .wait i elapsed)
    (hcount : run.engine.client.result.caseResultCount = plan.cases.length)
    (hnone : (run.engine.client.result.caseResults i).response = none) (env : ClientEnv)
    : (run.clientStep plan env).Follows plan serve := by
  unfold Ideal.clientStep
  dsimp only
  rw [hpc]
  dsimp only
  cases hcase : plan.cases[i]? with
  | none => exact h.setClient (by simp) h.results
  | some requestCase =>
    dsimp only
    split
    . cases hresp : (Ideal.latest plan run.stored i).bind (fun row => pollResponse env.calls (0, row)) with
      | none => exact h.setClient (by simp [Client.goto]) h.results
      | some resp =>
        rw [Option.bind_eq_some_iff] at hresp
        obtain ⟨row, hrow, hresp⟩ := hresp
        have hanswer := h.latest halike hrow
        have hdecode : decodeResponse (0, row) = resp := by
          unfold pollResponse at hresp
          split at hresp
          . exact Option.some.inj hresp
          . cases hresp
        rw [hdecode] at hanswer
        refine h.setClient (by simp) ?_
        intro j hj
        refine ⟨hcount, ?_⟩
        by_cases hji : j = i
        . rw [hji]
          exact (caseResults_runSequentially hcase hanswer _).symm
        . dsimp only at hj ⊢
          rw [caseResults_receive_of_ne _ hji] at hj ⊢
          exact (h.results j hj).2
    . refine h.setClient (by simp) ?_
      intro j hj
      refine ⟨hcount, ?_⟩
      by_cases hji : j = i
      . dsimp only at hj
        rw [hji] at hj
        unfold RunResult.timeOut RunResult.setCase at hj
        dsimp only at hj
        rw [Function.update_self] at hj
        exact absurd hnone hj
      . dsimp only at hj ⊢
        rw [caseResults_timeOut_of_ne _ hji] at hj ⊢
        exact (h.results j hj).2

theorem clientStep (h : run.Follows plan serve) (halike : AnsweredAlike plan serve) (env : ClientEnv)
    (hwaiting : ∀ i elapsed, run.engine.client.pc = .wait i elapsed →
      run.engine.client.result.caseResultCount = plan.cases.length ∧
        (run.engine.client.result.caseResults i).response = none)
    : (run.clientStep plan env).Follows plan serve := by
  by_cases hcreate : ∃ i, run.engine.client.pc = .createRequest i
  . obtain ⟨i, hpc⟩ := hcreate
    exact h.createRequest hpc env
  . by_cases hwait : ∃ i elapsed, run.engine.client.pc = .wait i elapsed
    . obtain ⟨i, elapsed, hpc⟩ := hwait
      obtain ⟨hcount, hnone⟩ := hwaiting i elapsed hpc
      exact h.wait halike hpc hcount hnone env
    . rw [not_exists] at hcreate
      have hwait : ∀ i elapsed, run.engine.client.pc ≠ .wait i elapsed := by simpa using hwait
      have hengine := @Ideal.engine_clientStep plan run env hcreate hwait
      have hframe := (Engine.clientStep_frame plan env hcreate hwait).1
      have hcount := @Engine.clientStep_count plan run.engine env
      constructor
      . rw [hengine]
        exact Engine.flows_clientStep h.flows h.dispatching env
      . rw [hengine]
        exact fun i req heq => h.dispatching i req (Engine.dispatch_of_clientStep hcreate heq)
      . rw [Ideal.stored_clientStep]
        exact h.stored
      . rw [hengine]
        dsimp only
        rw [hframe]
        intro i hi
        obtain ⟨hcounted, hresult⟩ := h.results i hi
        refine ⟨?_, hresult⟩
        cases hcount with
        | inl hsame => exact hsame.trans hcounted
        | inr hcount => exact hcount

theorem runtimeStep (h : run.Follows plan serve) {rt : Runtime} (hrt : run.engine.runtime = some rt)
    {act : Runtime.Action} (hanswers : rt.Answers (IsTask plan) (IsAnswer plan serve) act)
    : (run.runtimeStep rt act).Follows plan serve := by
  have hflows := h.flows rt hrt
  have hset {rt' : Runtime} (hflows' : rt'.Flows (IsTask plan) (IsAnswer plan serve))
      : (run.setRuntime rt').Follows plan serve :=
    ⟨hflows'.of_some, h.dispatching, h.stored, h.results⟩
  unfold Ideal.runtimeStep
  split
  . next es ticket resp hexecuting =>
    have hidle : { rt with dbWorker := .waiting }.Flows (IsTask plan) (IsAnswer plan serve) :=
      { hflows with dbWorker := by simp }
    have hwaiting := hset hidle
    dsimp only
    split
    . next hsaves =>
      refine { hwaiting with stored := ?_ }
      intro entry hmem
      cases List.mem_append.mp hmem with
      | inl hmem => exact h.stored entry hmem
      | inr hmem =>
        rw [List.mem_singleton] at hmem
        rw [hmem]
        exact (hflows.dbWorker _ hexecuting resp rfl).answer hsaves.2 _
    . exact hwaiting
  . exact hset (hflows.step hanswers _)

end Ideal.Follows

end Follows

namespace Engine

/-- A worker that executes the task of case `i` in this step gets the transfer `serve i`. -/
def Serves (serve : Nat → TransferEnv) (sys : Engine) (act : Action) : Prop :=
  match act with
  | .runtime (.worker i env _) =>
    ∀ rt task, sys.runtime = some rt → rt.workers[i]? = some (.executing task) → env = serve task.ticket
  | _ => True

def ServedBy (serve : Nat → TransferEnv) (plan : RunPlan) (sys : Engine) (acts : List Action) : Prop :=
  match acts with
  | [] => True
  | act :: acts => Serves serve sys act ∧ ServedBy serve plan (sys.step plan act) acts

variable {plan : RunPlan} {db : Database} {sys : Engine} {serve : Nat → TransferEnv}

theorem follows_start (conn : Conn) : ((start conn).ideal conn.db).Follows plan serve where
  flows := by simp [Engine.ideal, Engine.erased, start]
  dispatching := by simp [Engine.ideal, Engine.erased, Client.erased, ClientPc.erased, start, Client.start]
  stored := by
    intro entry hentry
    unfold Engine.ideal Engine.stored Engine.saved start at hentry
    cases hentry
  results := by
    intro i hi
    exact absurd rfl hi

theorem Serves.answers {rt : Runtime} (hrt : sys.runtime = some rt) {act : Runtime.Action}
    (h : Serves serve sys (.runtime act)) : rt.erased.Answers (IsTask plan) (IsAnswer plan serve) act := by
  cases act with
  | worker i env alloc =>
    intro task hexecuting htask resp hresp
    have hworker : (rt.workers[i]?).map WorkerState.erased = some (.executing task) := by
      rw [← hexecuting]
      exact List.getElem?_map.symm
    rw [Option.map_eq_some_iff] at hworker
    obtain ⟨w, hw, herased⟩ := hworker
    cases w with
    | executing task' =>
      have hticket : task'.ticket = task.ticket := by
        rw [← WorkerState.executing.inj herased]
        rfl
      rw [h rt task' hrt hw, hticket] at hresp
      exact htask.isAnswer hresp
    | _ => cases herased
  | dispatcher alloc => trivial
  | dbWorker es => trivial

theorem Inv.follows_step (hinv : Inv plan db sys) (hstale : ¬ Stale plan db) (htally : TallyInv plan sys.client)
    (h : (sys.ideal db).Follows plan serve) (halike : AnsweredAlike plan serve) {act : Action}
    (hserves : Serves serve sys act) : ((sys.step plan act).ideal db).Follows plan serve := by
  rw [hinv.ideal_step hstale]
  cases act with
  | client env =>
    apply h.clientStep halike
    intro i elapsed hpc
    have hphase : sys.client.pc.phase = .waiting i := by
      unfold Engine.ideal Engine.erased Client.erased at hpc
      cases hpc' : sys.client.pc with
      | wait i' elapsed' =>
        rw [hpc'] at hpc
        cases hpc
        rfl
      | _ =>
        rw [hpc'] at hpc
        cases hpc
    obtain ⟨_, _, htally⟩ := htally.of_waiting hphase
    refine ⟨htally.count, ?_⟩
    unfold Engine.ideal Engine.erased Client.erased RunResult.erased RequestCaseResult.erased
    dsimp only
    rw [htally.later i (Nat.le_refl i)]
    rfl
  | runtime act =>
    unfold Ideal.step
    dsimp only
    split
    . next rt hrt =>
      have hruntime : sys.runtime.map Runtime.erased = some rt := hrt
      rw [Option.map_eq_some_iff] at hruntime
      obtain ⟨rt', hrt', rfl⟩ := hruntime
      exact h.runtimeStep hrt (hserves.answers hrt')
    . exact h

section Run

variable (hlinked : db.Linked) (hfit : db.IdsFit) (hstale : ¬ Stale plan db)

include hlinked hfit hstale

theorem Inv.follows_exec (hinv : Inv plan db sys) (htally : TallyInv plan sys.client)
    (h : (sys.ideal db).Follows plan serve) (halike : AnsweredAlike plan serve) {acts : List Action}
    (hserved : ServedBy serve plan sys acts) : ((sys.exec plan acts).ideal db).Follows plan serve := by
  induction acts generalizing sys with
  | nil => exact h
  | cons act acts ih =>
    have hnext := hinv.follows_step hstale htally h halike hserved.1
    exact ih (hinv.step hlinked hfit act) (htally.step act) hnext hserved.2

end Run

end Engine

/-- A case that has a response passes without its ids as it does with them. -/
theorem RequestCaseResult.fine_erased (caseResult : RequestCaseResult)
    : caseResult.erased.Fine ↔ caseResult.Fine := by
  unfold RequestCaseResult.Fine RequestCaseResult.erased
  simp

/--
Whatever the interleaving of the threads and whatever fails, a run in which the transfers of the cases are
those of `serve` computes what the sequential program computes on every case that it answers. Its exit code
is that of a success just if the sequential one is and every case was answered.
-/
theorem runPlan_sequential {plan : RunPlan} {serve : Nat → TransferEnv} {Saved : Request → Prop} {conn : Conn}
    (hreach : conn.Reachable Saved) (hfit : conn.db.IdsFit) (hstale : ¬ Stale plan conn.db)
    (halike : AnsweredAlike plan serve) {acts : List Engine.Action}
    (hserved : Engine.ServedBy serve plan (Engine.start (.open conn.db)) acts)
    : let client := ((Engine.start (.open conn.db)).exec plan acts).client
      let sequential := runSequentially plan serve
      (∀ i, (client.result.caseResults i).response ≠ none →
        (client.result.caseResults i).erased = sequential.caseResults i) ∧
      (client.pc = .returned → plan.cases ≠ [] →
        (client.exitCode = 0 ↔ sequential.exitCode = 0 ∧
          ∀ i, i < plan.cases.length → (client.result.caseResults i).response ≠ none)) := by
  have hstart : Engine.Inv plan conn.db (Engine.start (.open conn.db)) := .start (.open conn.db)
  have hfollows := hstart.follows_exec hreach.linked.1 hfit hstale (.start plan)
    (Engine.follows_start (.open conn.db)) halike hserved
  have hsummed := @Engine.summed_of_returned plan (.open conn.db) acts
  dsimp only
  generalize (Engine.start (.open conn.db)).exec plan acts = sys at hfollows hsummed ⊢
  have hresults (i : Nat) (hi : (sys.client.result.caseResults i).response ≠ none)
      : sys.client.result.caseResultCount = plan.cases.length ∧
          (sys.client.result.caseResults i).erased = (runSequentially plan serve).caseResults i := by
    apply hfollows.results i
    unfold Engine.ideal Engine.erased Client.erased RunResult.erased RequestCaseResult.erased
    simpa using hi
  refine ⟨fun i hi => (hresults i hi).2, ?_⟩
  intro hreturned hne
  have hpos := List.length_pos_of_ne_nil hne
  rw [runSequentially_exitCode]
  have hfine (hanswered : ∀ i, i < plan.cases.length → (sys.client.result.caseResults i).response ≠ none)
      : (∀ i, i < plan.cases.length → (sys.client.result.caseResults i).Fine) ↔
          ∀ i, i < plan.cases.length → ((runSequentially plan serve).caseResults i).Fine := by
    apply forall_congr'
    intro i
    apply imp_congr_right
    intro hi
    rw [← (hresults i (hanswered i hi)).2, RequestCaseResult.fine_erased]
  cases hsummed hreturned with
  | early hcount hexit =>
    apply iff_of_false hexit
    intro h
    have := (hresults 0 (h.2 0 hpos)).1
    omega
  | all _ hexit _ =>
    rw [hexit hne]
    constructor
    . intro h
      have hanswered := fun i hi => (h i hi).1
      exact ⟨(hfine hanswered).mp h, hanswered⟩
    . intro h
      exact (hfine h.2).mpr h.1

theorem Engine.servedBy_const {plan : RunPlan} {sys : Engine} {acts : List Engine.Action} {env : TransferEnv}
    (h : ∀ act ∈ acts, ∀ i env' alloc, act = .runtime (.worker i env' alloc) → env' = env)
    : Engine.ServedBy (fun _ => env) plan sys acts := by
  induction acts generalizing sys with
  | nil => trivial
  | cons act acts ih =>
    rw [List.forall_mem_cons] at h
    refine ⟨?_, ih h.2⟩
    unfold Engine.Serves
    split
    . intro rt task _ _
      exact h.1 _ _ _ rfl
    . trivial

def twoWorkersPlan : RunPlan := { pairPlan with workerCount := 2 }

-- The second case overtakes the first one, and the client gives up polling once before they are there.
def outOfOrderRun : List Engine.Action :=
  clientSteps 8 ++
    [.runtime (.worker 0 (.ok [] 200) true), .runtime (.worker 1 (.ok [] 200) true),
      .runtime (.worker 1 (.ok [] 200) true), .runtime (.worker 1 (.ok [] 200) true)] ++
    clientSteps 2 ++
    [.runtime (.worker 0 (.ok [] 200) true), .runtime (.dispatcher true), .runtime (.dispatcher true),
      .runtime (.worker 0 (.ok [] 200) true), .runtime (.dbWorker []), .runtime (.dispatcher true),
      .runtime (.dbWorker []), .runtime (.dispatcher true), .runtime (.dbWorker []),
      .runtime (.dbWorker [])] ++
    clientSteps 3

theorem runPlan_sequential_outOfOrder
    : let client := ((Engine.start (.open stoppedRun.db)).exec twoWorkersPlan outOfOrderRun).client
      let sequential := runSequentially twoWorkersPlan (fun _ => .ok [] 200)
      (∀ i, (client.result.caseResults i).response ≠ none →
        (client.result.caseResults i).erased = sequential.caseResults i) ∧
      (client.pc = .returned → twoWorkersPlan.cases ≠ [] →
        (client.exitCode = 0 ↔ sequential.exitCode = 0 ∧
          ∀ i, i < twoWorkersPlan.cases.length → (client.result.caseResults i).response ≠ none)) := by
  have hreach : stoppedRun.Reachable (fun _ => True) := Engine.reachable_exec (fun _ => trivial) .first _
  apply runPlan_sequential hreach
  . constructor <;> decide +kernel
  . decide +kernel
  . exact .of_distinct (by decide +kernel) _
  . apply Engine.servedBy_const
    simp [outOfOrderRun, clientSteps]

example
    : let client := ((Engine.start (.open stoppedRun.db)).exec twoWorkersPlan outOfOrderRun).client
      (client.result.caseResults 0).response ≠ none ∧ (client.result.caseResults 1).response ≠ none := by
  decide +kernel

end HttpRuntime
