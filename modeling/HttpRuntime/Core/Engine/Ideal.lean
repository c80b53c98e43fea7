import HttpRuntime.Core.Engine.Erasure
import HttpRuntime.Core.Engine.Invariant

/-!
This module contains a run as it looks without ids and without what earlier runs left: a case finds
its response by the identity of its request, among the responses that this run stored.
-/

open Lib Lib.Sql

namespace HttpRuntime

def ClientPc.erased (pc : ClientPc) : ClientPc :=
  match pc with
  | .dispatch i req => .dispatch i req.erased
  | pc => pc

def RequestCaseResult.erased (caseResult : RequestCaseResult) : RequestCaseResult :=
  { caseResult with response := caseResult.response.map Response.erased }

def RunResult.erased (result : RunResult) : RunResult :=
  { result with caseResults := fun i => (result.caseResults i).erased }

def Client.erased (client : Client) : Client where
  pc := client.pc.erased
  collId := client.collId
  requestIds := fun _ => -1
  result := client.result.erased
  exitCode := client.exitCode

-- Of the database only the collections.
def Conn.erased (s : Conn) : Conn := .open { Database.empty with collections := s.db.collections }

def Engine.erased (sys : Engine) : Engine where
  conn := sys.conn.erased
  runtime := sys.runtime.map Runtime.erased
  client := sys.client.erased

def ResponseRow.erased (row : ResponseRow) : ResponseRow := { row with requestId := .integer 0 }

@[ext]
structure Ideal where
  engine : Engine
  stored : List (Nat × ResponseRow)

namespace Ideal

def sameIdentity (plan : RunPlan) (i j : Nat) : Bool :=
  (plan.cases[i]?).map RequestCase.identity == (plan.cases[j]?).map RequestCase.identity

def latest (plan : RunPlan) (stored : List (Nat × ResponseRow)) (i : Nat) : Option ResponseRow :=
  ((stored.filter (fun entry => sameIdentity plan entry.1 i)).map Prod.snd).getLast?

def setClient (run : Ideal) (client : Client) : Ideal :=
  { run with engine := { run.engine with client := client } }

def setRuntime (run : Ideal) (rt : Runtime) : Ideal :=
  { run with engine := { run.engine with runtime := some rt } }

def clientStep (plan : RunPlan) (run : Ideal) (env : ClientEnv) : Ideal :=
  let client := run.engine.client
  match client.pc with
  | .createRequest i =>
    match plan.cases[i]? with
    | none => run.setClient (client.goto (.wait 0 0))
    | some requestCase =>
      match createCaseRequest requestCase client.collId env.alloc with
      | none => run.setClient client.failRequests
      | some req =>
        if Savable req env.calls then run.setClient (client.goto (.dispatch i req))
        else run.setClient client.failRequests
  | .wait i elapsed =>
    match plan.cases[i]? with
    | none =>
      let exitCode := if client.result.allRequestsOk && client.result.allAssertionsOk then 0 else 1
      run.setClient { client with pc := .cleanup, exitCode := exitCode }
    | some requestCase =>
      if elapsed < waitTimeout plan requestCase then
        match (latest plan run.stored i).bind (fun row => pollResponse env.calls (0, row)) with
        | some resp =>
          let result := client.result.receive i requestCase.assertions resp
          run.setClient { client with pc := .wait (i + 1) 0, result := result }
        | none => run.setClient (client.goto (.wait i (elapsed + usleepMs)))
      else
        run.setClient { client with pc := .wait (i + 1) 0, result := client.result.timeOut i }
  | _ =>
    let sys := run.engine.clientStep plan env
    { run with engine := { sys with conn := sys.conn.erased } }

def runtimeStep (run : Ideal) (rt : Runtime) (act : Runtime.Action) : Ideal :=
  match act, rt.dbWorker with
  | .dbWorker es, .executing ⟨ticket, .saveResponse (some resp)⟩ =>
    let run := run.setRuntime { rt with dbWorker := .waiting }
    if calm 10 es = true ∧ none ∉ responseParams resp then
      let row := responseRow resp ((es.drop 9).headD default).now
      { run with stored := run.stored ++ [(ticket, row)] }
    else
      run
  | act, _ => run.setRuntime (rt.step run.engine.conn act).1

def step (plan : RunPlan) (run : Ideal) (act : Engine.Action) : Ideal :=
  match act with
  | .client env => run.clientStep plan env
  | .runtime act =>
    match run.engine.runtime with
    | some rt => run.runtimeStep rt act
    | none => run

def exec (plan : RunPlan) (run : Ideal) (acts : List Engine.Action) : Ideal :=
  acts.foldl (step plan) run

variable {plan : RunPlan} {run : Ideal} {env : ClientEnv}

theorem stored_clientStep : (run.clientStep plan env).stored = run.stored := by
  unfold clientStep
  dsimp only
  split
  . split <;> [skip; split <;> [skip; split]]
    all_goals rfl
  . split <;> [skip; split <;> [split; skip]]
    all_goals rfl
  . rfl

theorem engine_clientStep (hcreate : ∀ i, run.engine.client.pc ≠ .createRequest i)
    (hwait : ∀ i elapsed, run.engine.client.pc ≠ .wait i elapsed)
    : (run.clientStep plan env).engine =
        { run.engine.clientStep plan env with conn := (run.engine.clientStep plan env).conn.erased } := by
  unfold clientStep
  dsimp only
  split
  . next i hpc => exact absurd hpc (hcreate i)
  . next i elapsed hpc => exact absurd hpc (hwait i elapsed)
  . rfl

variable {rt : Runtime}

theorem runtimeStep_saveResponse {task : Ticketed DbTask} {resp : Response}
    (htask : rt.dbWorker = .executing task) (hitem : task.item = .saveResponse (some resp))
    (es : List CallEnv)
    : run.runtimeStep rt (.dbWorker es) =
        if calm 10 es = true ∧ none ∉ responseParams resp then
          let row := responseRow resp ((es.drop 9).headD default).now
          { run.setRuntime { rt with dbWorker := .waiting } with
            stored := run.stored ++ [(task.ticket, row)]
          }
        else
          run.setRuntime { rt with dbWorker := .waiting } := by
  rcases task with ⟨ticket, item⟩
  dsimp only at hitem
  unfold runtimeStep
  rw [htask, hitem]
  rfl

theorem runtimeStep_of_not_executing (h : ∀ task, rt.dbWorker ≠ .executing task)
    (act : Runtime.Action) : run.runtimeStep rt act = run.setRuntime (rt.step run.engine.conn act).1 := by
  unfold runtimeStep
  split
  . next hdbWorker => exact absurd hdbWorker (h _)
  . rfl

end Ideal

section Erased

theorem Request.erased_withId (req : Request) (id : Int) : { req with id := id }.erased = req.erased :=
  rfl

theorem createCaseRequest_erased {requestCase : RequestCase} {collId : Int} {alloc : Bool}
    {req : Request} (h : createCaseRequest requestCase collId alloc = some req) : req.erased = req := by
  unfold Request.erased
  rw [← (createCaseRequest_zero h).2.2]

theorem evalAssertions_erased (resp : Response) (assertions : List Assertion)
    (results : List AssertionResult) (ok : Bool)
    : evalAssertions resp.erased assertions results ok = evalAssertions resp assertions results ok := by
  induction assertions generalizing results ok with
  | nil => rfl
  | cons as assertions ih =>
    have hresult : evalAssertion (some resp.erased) (some as) = evalAssertion (some resp) (some as) := rfl
    unfold evalAssertions
    rw [hresult]
    simp only [ih]

theorem RunResult.erased_setCase (result : RunResult) (i : Nat) (caseResult : RequestCaseResult)
    : result.erased.setCase i caseResult.erased = (result.setCase i caseResult).erased := by
  have hcases : Function.update (fun j => (result.caseResults j).erased) i caseResult.erased =
      fun j => (Function.update result.caseResults i caseResult j).erased := by
    funext j
    by_cases hj : j = i
    . rw [hj, Function.update_self, Function.update_self]
    . rw [Function.update_of_ne hj, Function.update_of_ne hj]
  unfold RunResult.setCase RunResult.erased
  rw [hcases]

theorem RunResult.erased_receive (result : RunResult) (i : Nat) (assertions : List Assertion)
    (resp : Response)
    : result.erased.receive i assertions resp.erased = (result.receive i assertions resp).erased := by
  have hset := result.erased_setCase i {
    response := some resp
    assertionResults := (evalAssertions resp assertions [] true).1
    requestOk := true
    assertionsOk := (evalAssertions resp assertions [] true).2
  }
  unfold RequestCaseResult.erased at hset
  unfold RunResult.receive
  dsimp only [Option.map_some] at hset ⊢
  rw [evalAssertions_erased, hset]
  rfl

theorem RunResult.erased_timeOut (result : RunResult) (i : Nat)
    : result.erased.timeOut i = (result.timeOut i).erased := by
  have hset := result.erased_setCase i
    { result.caseResults i with requestOk := false, assertionsOk := false }
  unfold RunResult.timeOut
  dsimp only
  have hcase : { result.erased.caseResults i with requestOk := false, assertionsOk := false } =
      RequestCaseResult.erased
        { result.caseResults i with requestOk := false, assertionsOk := false } := rfl
  rw [hcase, hset]
  rfl

theorem erased_createRuntime {n : Int} {rt : Runtime} (h : createRuntime n = some rt)
    : rt.erased = rt := by
  unfold createRuntime at h
  split at h
  . cases h
  . rw [Option.some.injEq] at h
    rw [← h]
    simp [Runtime.erased, Fifo.map, Fifo.empty, WorkerState.erased, DispatcherState.erased,
      DbWorkerState.erased]

theorem Conn.erased_eq {s s' : Conn} (h : s.db.collections = s'.db.collections)
    : s.erased = s'.erased := by
  unfold Conn.erased
  rw [h]

theorem pollResponse_erased (es : List CallEnv) (row : Nat × ResponseRow)
    : pollResponse es (0, row.2.erased) = (pollResponse es row).map Response.erased := by
  have hzero : Lib.toInt 0 = 0 := by decide
  have hdecode : decodeResponse (0, row.2.erased) = (decodeResponse row).erased := by
    simp [decodeResponse, ResponseRow.erased, Response.erased, columnInt, hzero]
  have hallocs : responseAllocs row.2.erased = responseAllocs row.2 := rfl
  unfold pollResponse
  rw [hdecode, hallocs]
  split <;> rfl

end Erased

end HttpRuntime
