import HttpRuntime.Cli.Parser
import HttpRuntime.Core.Engine.Basic
import HttpRuntime.Dsl.Parser.Progress

/-!
This module contains the commands of the command line, `commands.c` and `main.c`. What is printed is
left out.
-/

open Lib

namespace HttpRuntime

-- Whether the next allocation succeeds, by default it does.
def dupString (s : Option Bytes) (allocs : List Bool) : Option Bytes × List Bool :=
  match s with
  | none => (none, allocs)
  | some s => (if allocs.headD true then some (cstring s) else none, allocs.tail)

-- The copy of one assertion into the plan.
def copyAssertion (as : Assertion) (allocs : List Bool) : Assertion × List Bool :=
  match as.type, as.expected with
  | .bodyContains, .bytes (some data) len =>
    let copy := if allocs.headD true then some (data.take len) else none
    ({ as with expected := .bytes copy len }, allocs.tail)
  | .headerContains, .header expected =>
    let name := dupString expected.name allocs
    let value := dupString expected.value name.2
    ({ as with expected := .header ⟨name.1, value.1⟩ }, value.2)
  | _, _ => (as, allocs)

def copyAssertions (assertions : List Assertion) (allocs : List Bool) : List Assertion :=
  match assertions with
  | [] => []
  | as :: assertions =>
    let res := copyAssertion as allocs
    res.1 :: copyAssertions assertions res.2

-- `none` is the result -1, after which the plan is only freed.
def cliOptionsToRunPlan (options : CliOptions) (allocs : List Bool) : Option RunPlan :=
  match options.url with
  | none => none
  | some url =>
    if strlen url = 0 then
      none
    else
      let dbPath := dupString (some (ascii "runner.db")) allocs
      let collectionName := dupString (some (ascii "DEFAULT")) dbPath.2
      if dbPath.1 = none ∨ collectionName.1 = none then
        none
      else
        let url := dupString (some url) collectionName.2
        if url.1 = none then
          none
        else if options.assertions.length > maxCaseAssertions then
          none
        else
          let requestCase : RequestCase := {
            method := .get
            url := url.1
            headers := none
            body := none
            bodyLen := 0
            assertions := copyAssertions options.assertions url.2
            timeoutMs := 5000
          }
          some {
            initRunPlan with
            workerCount := 1
            defaultTimeoutMs := 5000
            saveHistory := true
            dbPath := dbPath.1
            collectionName := collectionName.1
            cases := [requestCase]
          }

/-- What a run of the program depends on besides its arguments. -/
structure ProcessEnv where
  -- the allocations of `parse_cli_options` and of `cli_options_to_run_plan`
  parserAllocs : List Bool := []
  planAllocs : List Bool := []
  -- `none` where the file cannot be read
  file : Bytes → Option Bytes
  -- the database in the file at a path
  db : Bytes → Database
  -- the steps of `run_plan`
  acts : List Engine.Action

structure PlanRun where
  plan : RunPlan
  sys : Engine

/-- The exit code, and the call of `run_plan` if there was one. -/
structure Outcome where
  exitCode : Int
  run : Option PlanRun

-- "default.db"
def defaultDbPath : Bytes := ascii "default.db"

-- `none` as long as `run_plan` has not returned.
def runPlan (plan : RunPlan) (env : ProcessEnv) : Option Outcome :=
  let conn := Conn.open (env.db (plan.dbPath.getD defaultDbPath))
  let sys := (Engine.start conn).exec plan env.acts
  if sys.client.pc = .returned then
    some { exitCode := sys.client.exitCode, run := some { plan := plan, sys := sys } }
  else
    none

def runGetCommand (options : CliOptions) (env : ProcessEnv) : Option Outcome :=
  match cliOptionsToRunPlan options env.planAllocs with
  | none => some { exitCode := 1, run := none }
  | some plan => runPlan plan env

def dslParseOk : Int := 0
def dslParseError : Int := 1
def dslIoError : Int := 2

def DslParseError.zero : DslParseError := ⟨[], 0, 0⟩

-- The result with the plan. `none` where the parser would leave its arrays.
def dslParseRunPlanFile (path : Bytes) (env : ProcessEnv) : Option (Int × RunPlan) :=
  match env.file path with
  | none => some (dslIoError, .zero)
  | some text =>
    (dslParseRunPlan text (some .zero)).map fun res =>
      match res with
      | (.ok, plan, _) => (dslParseOk, plan)
      | (.error, plan, _) => (dslParseError, plan)

def runRunCommand (options : CliOptions) (env : ProcessEnv) : Option Outcome :=
  match dslParseRunPlanFile (options.url.getD []) env with
  | none => none
  | some (exitCode, plan) =>
    if exitCode ≠ 0 then some { exitCode := exitCode, run := none }
    else runPlan plan env

def runCommand (options : CliOptions) (env : ProcessEnv) : Option Outcome :=
  match options.command with
  | none => some { exitCode := 1, run := none }
  | some command =>
    if command = ascii "get" then runGetCommand options env
    else if command = ascii "post" then some { exitCode := 0, run := none }
    else if command = ascii "run" then runRunCommand options env
    else some { exitCode := 1, run := none }

/-- `none` as long as the program runs. -/
def main (argv : List Bytes) (env : ProcessEnv) : Option Outcome :=
  if argv.length < 3 then
    some { exitCode := -1, run := none }
  else
    let res := parseCliOptions argv .zero env.parserAllocs
    if res.1 = -1 then some { exitCode := -1, run := none }
    else runCommand res.2 env

end HttpRuntime
