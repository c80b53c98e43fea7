import HttpRuntime.Core.Assertion

/-!
This module contains the records of `run_plan.h`. The arrays of a plan are lists of the entries in
use, so `case_count` and `assertion_count` are their lengths.
-/

namespace HttpRuntime

def maxRequestCases : Nat := 128
def maxCaseAssertions : Nat := 32

structure RequestCase where
  method : Method
  url : Option Bytes
  headers : Option Bytes
  body : Option Bytes
  bodyLen : Nat
  assertions : List Assertion
  timeoutMs : Int
  deriving DecidableEq, Repr

structure RunPlan where
  cases : List RequestCase
  workerCount : Nat
  saveHistory : Bool
  dbPath : Option Bytes
  collectionName : Option Bytes
  defaultTimeoutMs : Int
  deriving DecidableEq, Repr

def RunPlan.zero : RunPlan where
  cases := []
  workerCount := 0
  saveHistory := false
  dbPath := none
  collectionName := none
  defaultTimeoutMs := 0

def initRunPlan : RunPlan :=
  { RunPlan.zero with workerCount := 4, saveHistory := true, defaultTimeoutMs := 5000 }

structure RequestCaseResult where
  response : Option Response
  assertionResults : List AssertionResult
  requestOk : Bool
  assertionsOk : Bool
  deriving DecidableEq, Repr

def RequestCaseResult.zero : RequestCaseResult where
  response := none
  assertionResults := []
  requestOk := false
  assertionsOk := false

structure RunResult where
  caseResults : Nat → RequestCaseResult
  caseResultCount : Nat
  allRequestsOk : Bool
  allAssertionsOk : Bool
  exitCode : Int

def initRunResult : RunResult where
  caseResults := fun _ => .zero
  caseResultCount := 0
  allRequestsOk := false
  allAssertionsOk := false
  exitCode := 1

end HttpRuntime
