import HttpRuntime.Cli.RunFile
import HttpRuntime.Dsl.Memory.Parser

/-!
This module contains the command line on a heap: the byte patterns that `cli_parser.c` decodes, the plan
into which `commands.c` copies the options, the text that `dsl.c` reads from a file, and who frees them.
-/

open Lib

namespace HttpRuntime
namespace OnHeap

/-- Where a pattern of bytes lies: nowhere, in an argument, or in a block of the options. -/
inductive Pattern where
  | null
  | arg (value : Bytes)
  | owned (bytes : Boxed Bytes)

inductive CliAssertion where
  | statusEq (n : Int)
  | bodyContains (data : Pattern) (len : Nat)
  | headerContains (name value : Bytes)

structure CliOptions where
  command : Option Bytes
  url : Option Bytes
  assertions : List CliAssertion
  ownedExpectedBody : List (Boxed Bytes)

-- The block is allocated before the digits are looked at.
def parseHexBytes (hex : Bytes) : HeapProg (Ptr Bytes) :=
  if strlen hex = 0 ∨ strlen hex % 2 ≠ 0 then
    pure none
  else do
    let data ← Heap.alloc
    match data with
    | none => pure none
    | some b =>
      match parseHexDigits (cstring hex) with
      | none => do
        Heap.free (some b)
        pure none
      | some bytes => pure (some ⟨b, bytes⟩)

namespace CliOptions

def zero : CliOptions where
  command := none
  url := none
  assertions := []
  ownedExpectedBody := []

def addAssertion (options : CliOptions) (as : CliAssertion) : CliOptions :=
  { options with assertions := options.assertions ++ [as] }

def addStatus (options : CliOptions) (value : Bytes) : Int × CliOptions :=
  if options.assertions.length ≥ maxAssertion then (-1, options)
  else (0, options.addAssertion (.statusEq (atoi value)))

def addBody (options : CliOptions) (value : Bytes) : HeapProg (Int × CliOptions) :=
  if options.assertions.length ≥ maxAssertion then
    pure (-1, options)
  else if value.take 4 = ascii "hex:" then do
    let data ← parseHexBytes (value.drop 4)
    match data with
    | none => pure (-1, options.addAssertion (.bodyContains .null 0))
    | some bytes =>
      if options.ownedExpectedBody.length ≥ maxAssertion then do
        Heap.free (some bytes.block)
        pure (-1, options.addAssertion (.bodyContains .null 0))
      else
        let owned := options.ownedExpectedBody ++ [bytes]
        let options := options.addAssertion (.bodyContains (.owned bytes) bytes.val.length)
        pure (0, { options with ownedExpectedBody := owned })
  else
    pure (0, options.addAssertion (.bodyContains (.arg value) (strlen value)))

def addHeader (options : CliOptions) (name value : Bytes) : Int × CliOptions :=
  if options.assertions.length ≥ maxAssertion then (-1, options)
  else (0, options.addAssertion (.headerContains name value))

end CliOptions

def parseOptions (args : List Bytes) (options : CliOptions) : HeapProg (Int × CliOptions) :=
  match args with
  | [] => pure (0, options)
  | option :: args =>
    if option = ascii "--expect-status" then
      match args with
      | [] => pure (-1, options)
      | value :: args =>
        let res := options.addStatus value
        if res.1 ≠ 0 then pure res else parseOptions args res.2
    else if option = ascii "--expect-body" then
      match args with
      | [] => pure (-1, options)
      | value :: args => do
        let res ← options.addBody value
        if res.1 ≠ 0 then pure res else parseOptions args res.2
    else if option = ascii "--expect-header" then
      match args with
      | name :: value :: args =>
        let res := options.addHeader name value
        if res.1 ≠ 0 then pure res else parseOptions args res.2
      | _ => pure (-1, options)
    else
      pure (-1, options)
termination_by args.length

def parseCliOptions (argv : List Bytes) (options : CliOptions) : HeapProg (Int × CliOptions) :=
  match argv with
  | _ :: command :: url :: args =>
    parseOptions args { options with command := some command, url := some url }
  | _ => pure (-1, options)

def freeBodies (owned : List (Boxed Bytes)) : HeapProg Unit :=
  match owned with
  | [] => pure ()
  | bytes :: owned => do
    Heap.free (some bytes.block)
    freeBodies owned

def freeCliOptions (options : CliOptions) : HeapProg Unit := freeBodies options.ownedExpectedBody

def dupString (s : Option Bytes) : HeapProg (Ptr Bytes) :=
  match s with
  | none => pure none
  | some s => Heap.new (cstring s)

-- `memcpy` reads the block of the options.
def copyPattern (data : Pattern) (len : Nat) : HeapProg (Ptr Bytes) :=
  match data with
  | .null => pure none
  | .arg value => Heap.new (value.take len)
  | .owned bytes => do
    let copy ← Heap.alloc
    match copy with
    | none => pure none
    | some b => do
      let data ← Heap.read (some bytes)
      pure (some ⟨b, data.take len⟩)

def copyAssertion (as : CliAssertion) : HeapProg Assertion :=
  match as with
  | .statusEq n => pure (.statusEq n)
  | .bodyContains data len => do
    let copy ← copyPattern data len
    pure (.bodyContains copy len)
  | .headerContains name value => do
    let name ← dupString (some name)
    let value ← dupString (some value)
    pure (.headerContains name value)

def copyAssertions (assertions : List CliAssertion) : HeapProg (List Assertion) :=
  match assertions with
  | [] => pure []
  | as :: assertions => do
    let copy ← copyAssertion as
    let copies ← copyAssertions assertions
    pure (copy :: copies)

-- With the result -1 comes the part of the plan that is there already.
def cliOptionsToRunPlan (options : CliOptions) (plan : RunPlan) : HeapProg (Int × RunPlan) :=
  match options.url with
  | none => pure (-1, plan)
  | some url =>
    if strlen url = 0 then
      pure (-1, plan)
    else do
      let plan := { initRunPlan with workerCount := 1, defaultTimeoutMs := 5000, saveHistory := true }
      let dbPath ← dupString (some (ascii "runner.db"))
      let collectionName ← dupString (some (ascii "DEFAULT"))
      let plan := { plan with dbPath := dbPath, collectionName := collectionName }
      if dbPath.val = none ∨ collectionName.val = none then
        pure (-1, plan)
      else do
        let url ← dupString (some url)
        let requestCase : RequestCase := {
          method := .get
          url := url
          headers := none
          body := none
          bodyLen := 0
          assertions := []
          timeoutMs := 5000
        }
        if url.val = none then
          pure (-1, { plan with cases := [requestCase] })
        else if options.assertions.length > maxCaseAssertions then
          pure (-1, { plan with cases := [requestCase] })
        else do
          let assertions ← copyAssertions options.assertions
          pure (0, { plan with cases := [{ requestCase with assertions := assertions }] })

section ReadPlan

def load (p : Ptr Bytes) : HeapProg (Option Bytes) :=
  match p with
  | none => pure none
  | some x => do
    let s ← Heap.read (some x)
    pure (some s)

def loadAssertion (as : Assertion) : HeapProg HttpRuntime.Assertion :=
  match as with
  | .statusEq n => pure ⟨.statusEq, .int n⟩
  | .bodyContains data len => do
    let data ← load data
    pure ⟨.bodyContains, .bytes data len⟩
  | .headerContains name value => do
    let name ← load name
    let value ← load value
    pure ⟨.headerContains, .header ⟨name, value⟩⟩

def loadCase (requestCase : RequestCase) : HeapProg HttpRuntime.RequestCase := do
  let url ← load requestCase.url
  let headers ← load requestCase.headers
  let body ← load requestCase.body
  let assertions ← requestCase.assertions.mapM loadAssertion
  pure {
    method := requestCase.method
    url := url
    headers := headers
    body := body
    bodyLen := requestCase.bodyLen
    assertions := assertions
    timeoutMs := requestCase.timeoutMs
  }

-- What `run_plan` reads of its plan.
def loadPlan (plan : RunPlan) : HeapProg HttpRuntime.RunPlan := do
  let cases ← plan.cases.mapM loadCase
  let dbPath ← load plan.dbPath
  let collectionName ← load plan.collectionName
  pure {
    cases := cases
    workerCount := plan.workerCount
    saveHistory := plan.saveHistory
    dbPath := dbPath
    collectionName := collectionName
    defaultTimeoutMs := plan.defaultTimeoutMs
  }

end ReadPlan

/--
`run_plan` as a reader of its plan. The blocks that it allocates for itself are not on this heap:
the runtime with its queues, tasks and responses is that of `Core/Runtime` and `Core/Engine`.
-/
def runPlan (plan : RunPlan) (env : ProcessEnv) : HeapProg (Option HttpRuntime.Outcome) := do
  let plan ← loadPlan plan
  pure (HttpRuntime.runPlan plan env)

-- As long as `run_plan` has not returned, nothing is freed.
def cleanup (out : Option HttpRuntime.Outcome) (free : HeapProg Unit) : HeapProg (Option HttpRuntime.Outcome) :=
  match out with
  | none => pure none
  | some out => do
    free
    pure (some out)

def freePlan (plan : RunPlan) : HeapProg Unit := do
  let _ ← freeRunPlan plan
  pure ()

-- `print_run_result` and `free_run_result`, which follow on `run_plan`, touch no block of this heap.
def runGetCommand (options : CliOptions) (env : ProcessEnv) : HeapProg (Option HttpRuntime.Outcome) := do
  let res ← cliOptionsToRunPlan options initRunPlan
  let out ← if res.1 ≠ 0 then pure (some { exitCode := 1, run := none }) else runPlan res.2 env
  cleanup out (freePlan res.2)

-- The field `alloc` of the file is left to the heap.
def readFile (file : FileRead) : HeapProg (Ptr Bytes) :=
  if !file.opens then pure none
  else if !file.sized then pure none
  else Heap.new (file.content.take file.bytesRead)

def dslParseRunPlanFile (file : FileRead) (error : DslParseError) : HeapProg (Int × RunPlan) := do
  let text ← readFile file
  match text with
  | none => pure (dslIoError, .zero)
  | some _ => do
    let source ← Heap.read text
    let res ← dslParseRunPlan source (some error)
    Heap.delete text
    pure (if res.1 = .ok then dslParseOk else dslParseError, res.2.1)

-- As in `runGetCommand`, without `print_run_result` and `free_run_result`.
def runRunCommand (options : CliOptions) (files : Bytes → FileRead) (env : ProcessEnv)
    : HeapProg (Option HttpRuntime.Outcome) := do
  let res ← dslParseRunPlanFile (files (options.url.getD [])) .zero
  let out ← if res.1 ≠ 0 then pure (some { exitCode := res.1, run := none }) else runPlan res.2 env
  cleanup out (freePlan res.2)

def runCommand (options : CliOptions) (files : Bytes → FileRead) (env : ProcessEnv)
    : HeapProg (Option HttpRuntime.Outcome) :=
  match options.command with
  | none => pure (some { exitCode := 1, run := none })
  | some command =>
    if command = ascii "get" then runGetCommand options env
    else if command = ascii "post" then pure (some { exitCode := 0, run := none })
    else if command = ascii "run" then runRunCommand options files env
    else pure (some { exitCode := 1, run := none })

def main (argv : List Bytes) (files : Bytes → FileRead) (env : ProcessEnv) : HeapProg (Option HttpRuntime.Outcome) :=
  if argv.length < 3 then
    pure (some { exitCode := -1, run := none })
  else do
    let res ← parseCliOptions argv .zero
    let out ← if res.1 = -1 then pure (some { exitCode := -1, run := none })
      else runCommand res.2 files env
    cleanup out (freeCliOptions res.2)

end OnHeap
end HttpRuntime
