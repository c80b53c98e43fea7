import HttpRuntime.Core.DbManager.LatestResponse
import HttpRuntime.Core.RunPlan
import HttpRuntime.Core.Runtime.Basic

/-!
This module contains `run_plan` of `engine.c`. The client thread moves in steps of its own between
those of the threads of the runtime.

The calls of one function of `db_manager.c` are one step of the client here. No thread of a run
opens a transaction, and of the statements that the client and the DB worker execute only the two
of `db_save_request` belong together: they work on the requests, which the DB worker only reads.
-/

open Lib

namespace HttpRuntime

inductive ClientPc where
  | init
  | saveCollection
  | createRuntime
  | createRequest (i : Nat)
  | dispatch (i : Nat) (req : Request)
  | wait (i : Nat) (elapsed : Int)
  | cleanup
  | destroy (phase : DestroyPhase)
  | returned
  deriving DecidableEq

-- The client has not set the exit code yet.
def ClientPc.running (pc : ClientPc) : Bool :=
  match pc with
  | .cleanup => false
  | .destroy _ => false
  | .returned => false
  | _ => true

structure Client where
  pc : ClientPc
  collId : Int
  requestIds : Nat → Int
  result : RunResult
  exitCode : Int

structure Engine where
  conn : Conn
  runtime : Option Runtime
  client : Client

structure ClientEnv where
  -- the result of `db_init`
  dbInit : Int := sqliteOk
  -- whether what is allocated or created can be had
  alloc : Bool := true
  -- whether the `calloc` of `create_http_worker_task` succeeds, whose result is used unchecked
  task : Bool := true
  -- whether the queue node can be allocated
  node : Bool := true
  calls : List CallEnv := []

-- "default"
def defaultName : Bytes := [100, 101, 102, 97, 117, 108, 116]

def usleepMs : Int := 100

def waitTimeout (plan : RunPlan) (requestCase : RequestCase) : Int :=
  let timeoutMs :=
    if requestCase.timeoutMs > 0 then requestCase.timeoutMs else plan.defaultTimeoutMs
  if timeoutMs ≤ 0 then 5000 else timeoutMs

-- The loop over the assertions of a case, from the results and the flag so far.
def evalAssertions (resp : Response) (assertions : List Assertion) (results : List AssertionResult)
    (ok : Bool) : List AssertionResult × Bool :=
  match assertions with
  | [] => (results, ok)
  | as :: assertions =>
    if results.length ≥ maxCaseAssertions then
      (results, false)
    else
      let asResult := evalAssertion (some resp) (some as)
      evalAssertions resp assertions (results ++ [asResult]) (ok && asResult.passed)

namespace RunResult

def setCase (result : RunResult) (i : Nat) (caseResult : RequestCaseResult) : RunResult :=
  { result with caseResults := Function.update result.caseResults i caseResult }

-- What `run_plan` makes of the response to case `i`.
def receive (result : RunResult) (i : Nat) (assertions : List Assertion) (resp : Response)
    : RunResult :=
  let res := evalAssertions resp assertions [] true
  let caseResult : RequestCaseResult := {
    response := some resp
    assertionResults := res.1
    requestOk := true
    assertionsOk := res.2
  }
  { result.setCase i caseResult with allAssertionsOk := result.allAssertionsOk && res.2 }

-- What `run_plan` makes of case `i` when no response comes.
def timeOut (result : RunResult) (i : Nat) : RunResult :=
  let caseResult := { result.caseResults i with requestOk := false, assertionsOk := false }
  { result.setCase i caseResult with allRequestsOk := false, allAssertionsOk := false }

end RunResult

def createCaseRequest (requestCase : RequestCase) (collId : Int) (alloc : Bool) : Option Request :=
  createRequest requestCase.method collId requestCase.url requestCase.headers requestCase.body
    requestCase.bodyLen alloc

namespace Client

def start : Client where
  pc := .init
  collId := 0
  requestIds := fun _ => -1
  result := initRunResult
  exitCode := 1

def goto (client : Client) (pc : ClientPc) : Client := { client with pc := pc }

-- `result->all_requests_ok = false; goto cleanup;`
def failRequests (client : Client) : Client :=
  { client with pc := .cleanup, result := { client.result with allRequestsOk := false } }

end Client

namespace Engine

def start (conn : Conn) : Engine where
  conn := conn
  runtime := none
  client := .start

-- `create_http_worker_task` writes through the null pointer.
def Crashes (sys : Engine) (env : ClientEnv) : Prop :=
  env.task = false ∧ ∃ i req, sys.client.pc = .dispatch i req

def clientStep (plan : RunPlan) (sys : Engine) (env : ClientEnv) : Engine :=
  let client := sys.client
  match client.pc with
  | .init =>
    if plan.cases.length > maxRequestCases then
      { sys with client := client.goto .cleanup }
    else if env.dbInit = sqliteError then
      { sys with client := client.goto .cleanup }
    else
      { sys with client := client.goto .saveCollection }
  | .saveCollection =>
    match createCollection (some (plan.collectionName.getD defaultName)) env.alloc with
    | none => { sys with client := client.goto .cleanup }
    | some coll =>
      let res := (dbSaveCollection (some coll)).run answer env.calls sys.conn
      if res.1.1 = sqliteError then
        { sys with conn := res.2, client := client.goto .cleanup }
      else
        let collId := (res.1.2.map Collection.id).getD 0
        { sys with conn := res.2, client := { client with pc := .createRuntime, collId := collId } }
  | .createRuntime =>
    let workerCount := if plan.workerCount > 0 then plan.workerCount else 1
    match if env.alloc then createRuntime (Lib.toInt workerCount) else none with
    | none => { sys with client := client.goto .cleanup }
    | some rt =>
      let result := {
        client.result with
        allRequestsOk := true
        allAssertionsOk := true
        caseResultCount := plan.cases.length
      }
      { sys with runtime := some rt, client := { client with pc := .createRequest 0, result := result } }
  | .createRequest i =>
    match plan.cases[i]? with
    | none => { sys with client := client.goto (.wait 0 0) }
    | some requestCase =>
      match createCaseRequest requestCase client.collId env.alloc with
      | none => { sys with client := client.failRequests }
      | some req =>
        let res := (dbSaveRequest (some req)).run answer env.calls sys.conn
        if res.1.1 = sqliteError then
          { sys with conn := res.2, client := client.failRequests }
        else
          let req := res.1.2.getD req
          let requestIds := Function.update client.requestIds i req.id
          { sys with
            conn := res.2
            client := { client with pc := .dispatch i req, requestIds := requestIds }
          }
  | .dispatch i req =>
    if !env.task then
      -- the program crashes, so there is no step
      sys
    else
      match sys.runtime with
      | none => { sys with client := client.failRequests }
      | some rt =>
        let res := rt.dispatchTask (.worker ⟨i, ⟨some req⟩⟩) env.node
        if res.2 ≠ orchestratorSuccess then
          { sys with runtime := some res.1, client := client.failRequests }
        else
          { sys with runtime := some res.1, client := client.goto (.createRequest (i + 1)) }
  | .wait i elapsed =>
    match plan.cases[i]? with
    | none =>
      let exitCode := if client.result.allRequestsOk && client.result.allAssertionsOk then 0 else 1
      { sys with client := { client with pc := .cleanup, exitCode := exitCode } }
    | some requestCase =>
      if elapsed < waitTimeout plan requestCase then
        let res :=
          (dbGetLatestResponseByRequestId (client.requestIds i)).run answer env.calls sys.conn
        match res.1 with
        | some resp =>
          let result := client.result.receive i requestCase.assertions resp
          { sys with conn := res.2, client := { client with pc := .wait (i + 1) 0, result := result } }
        | none => { sys with conn := res.2, client := client.goto (.wait i (elapsed + usleepMs)) }
      else
        { sys with
          client := { client with pc := .wait (i + 1) 0, result := client.result.timeOut i }
        }
  | .cleanup =>
    match sys.runtime with
    | some rt =>
      { sys with runtime := some rt.destroyStart.1, client := client.goto (.destroy rt.destroyStart.2) }
    | none =>
      let result := { client.result with exitCode := client.exitCode }
      { sys with client := { client with pc := .returned, result := result } }
  | .destroy phase =>
    match sys.runtime, phase with
    | some rt, .returned =>
      let result := { client.result with exitCode := client.exitCode }
      { sys with runtime := some rt, client := { client with pc := .returned, result := result } }
    | some rt, _ =>
      let res := rt.destroyStep phase
      { sys with runtime := some res.1, client := client.goto (.destroy res.2) }
    | none, _ => sys
  | .returned => sys

inductive Action where
  | client (env : ClientEnv)
  | runtime (act : Runtime.Action)

def step (plan : RunPlan) (sys : Engine) (act : Action) : Engine :=
  match act with
  | .client env => sys.clientStep plan env
  | .runtime act =>
    match sys.runtime with
    | some rt =>
      let res := rt.step sys.conn act
      { sys with runtime := some res.1, conn := res.2 }
    | none => sys

def exec (plan : RunPlan) (sys : Engine) (acts : List Action) : Engine :=
  acts.foldl (step plan) sys

end Engine

section Runs

def postCase (assertions : List Assertion) : RequestCase where
  method := .post
  url := some [117]
  headers := none
  body := some [98]
  bodyLen := 1
  assertions := assertions
  timeoutMs := 0

def planOf (cases : List RequestCase) : RunPlan :=
  { initRunPlan with cases := cases, workerCount := 1 }

def clientSteps (n : Nat) : List Engine.Action := List.replicate n (.client {})

-- The way of one task through the runtime, up to its row.
def processTask (env : TransferEnv) : List Engine.Action :=
  [.runtime (.worker 0 env true), .runtime (.worker 0 env true), .runtime (.worker 0 env true),
    .runtime (.dispatcher true), .runtime (.dispatcher true), .runtime (.dbWorker []),
    .runtime (.dbWorker [])]

-- The end of a run whose runtime is idle, from the cleanup on.
def shutDown : List Engine.Action :=
  clientSteps 1 ++ [.runtime (.worker 0 (.ok [] 200) true)] ++ clientSteps 2 ++
    [.runtime (.dispatcher true)] ++ clientSteps 1 ++ [.runtime (.dbWorker [])] ++ clientSteps 2

-- A run with one case, whose response is there before the client polls for it.
def oneCaseRun (env : TransferEnv) : List Engine.Action :=
  clientSteps 6 ++ processTask env ++ clientSteps 2 ++ shutDown

end Runs
end HttpRuntime
