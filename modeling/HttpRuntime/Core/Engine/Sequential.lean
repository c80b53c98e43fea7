import HttpRuntime.Core.Engine.Attribution
import HttpRuntime.Core.Engine.Ideal
import HttpRuntime.Core.Engine.Tally

/-!
This module contains what `run_plan` computes if nothing is done at the same time: one case after the other
is transferred, stored, read back and judged.
-/

open Lib Lib.Sql

namespace HttpRuntime

/-- What a case gets when nothing but its own transfer can fail, on a table that is empty. -/
def RequestCase.roundTrip (requestCase : RequestCase) (env : TransferEnv) : Option Response :=
  (httpWorkerTask env (createCaseRequest requestCase 0 true)).bind fun resp =>
    if (responseParams resp).contains none then none else some (decodeResponse (0, responseRow resp 0))

-- `serve i` is the transfer of case `i`.
def runCases (serve : Nat → TransferEnv) (cases : List RequestCase) (i : Nat) (result : RunResult)
    : RunResult :=
  match cases with
  | [] => result
  | requestCase :: cases =>
    match requestCase.roundTrip (serve i) with
    | some resp => runCases serve cases (i + 1) (result.receive i requestCase.assertions resp)
    | none => runCases serve cases (i + 1) (result.timeOut i)

/-- The plan as a sequential program. Its number of workers and its timeouts do not matter. -/
def runSequentially (plan : RunPlan) (serve : Nat → TransferEnv) : RunResult :=
  let result := runCases serve plan.cases 0 {
    initRunResult with
    allRequestsOk := true
    allAssertionsOk := true
    caseResultCount := plan.cases.length
  }
  { result with exitCode := if result.allRequestsOk && result.allAssertionsOk then 0 else 1 }

def RunPlan.answer (plan : RunPlan) (serve : Nat → TransferEnv) (i : Nat) : Option Response :=
  (plan.cases[i]?).bind (fun requestCase => requestCase.roundTrip (serve i))

/-- Cases that `run_plan` cannot tell apart get the same answer. There need not be any. -/
def AnsweredAlike (plan : RunPlan) (serve : Nat → TransferEnv) : Prop :=
  ∀ i j, Ideal.sameIdentity plan i j = true → plan.answer serve i = plan.answer serve j

section Sequential

variable {plan : RunPlan} {serve : Nat → TransferEnv}

theorem AnsweredAlike.of_distinct (h : plan.DistinctIdentities) (serve : Nat → TransferEnv)
    : AnsweredAlike plan serve := by
  intro i j hsame
  unfold Ideal.sameIdentity at hsame
  rw [beq_iff_eq, ← List.getElem?_map, ← List.getElem?_map] at hsame
  by_cases hi : i < (plan.cases.map RequestCase.identity).length
  . rw [(List.getElem?_inj hi h).mp hsame]
  . rw [Nat.not_lt] at hi
    have hj := hsame
    rw [List.getElem?_eq_none hi, eq_comm, List.getElem?_eq_none_iff, List.length_map] at hj
    rw [List.length_map] at hi
    unfold RunPlan.answer
    rw [List.getElem?_eq_none hi, List.getElem?_eq_none hj]
    rfl

theorem runCases_tally {cases : List RequestCase} {i : Nat} {result : RunResult}
    (hcases : plan.cases.drop i = cases) (h : result.Tally plan i)
    : (runCases serve cases i result).Tally plan (i + cases.length) := by
  induction cases generalizing i result with
  | nil => exact h
  | cons requestCase cases ih =>
    have hcase : plan.cases[i]? = some requestCase := by
      rw [← List.head?_drop, hcases]
      rfl
    have hrest : plan.cases.drop (i + 1) = cases := by
      rw [← List.tail_drop, hcases]
      rfl
    have hnext : i + (requestCase :: cases).length = i + 1 + cases.length := by
      rw [List.length_cons]
      omega
    rw [hnext]
    unfold runCases
    cases hresp : requestCase.roundTrip (serve i) with
    | none => exact ih hrest (h.timeOut hcase)
    | some resp =>
      apply ih hrest
      apply h.receive hcase
      unfold RequestCase.roundTrip at hresp
      rw [Option.bind_eq_some_iff] at hresp
      obtain ⟨_, _, hresp⟩ := hresp
      split at hresp
      . cases hresp
      . rw [← Option.some.inj hresp]
        exact readable_decodeResponse _

theorem runSequentially_exitCode
    : (runSequentially plan serve).exitCode = 0 ↔
        ∀ i, i < plan.cases.length → ((runSequentially plan serve).caseResults i).Fine := by
  have hstart : RunResult.Tally {
        initRunResult with
        allRequestsOk := true
        allAssertionsOk := true
        caseResultCount := plan.cases.length
      } plan 0 := by
    constructor
    . simp
    . intro i _
      rfl
    . intro i requestCase _ resp hresp
      cases hresp
    . rfl
  have htally := @runCases_tally plan serve plan.cases 0 _ rfl hstart
  rw [Nat.zero_add] at htally
  unfold runSequentially
  dsimp only
  rw [← htally.flags, ← Bool.and_eq_true]
  split <;> simp_all

theorem caseResults_receive_of_ne (result : RunResult) {i j : Nat} (hne : j ≠ i) (assertions : List Assertion)
    (resp : Response) : (result.receive i assertions resp).caseResults j = result.caseResults j :=
  Function.update_of_ne hne ..

theorem caseResults_timeOut_of_ne (result : RunResult) {i j : Nat} (hne : j ≠ i)
    : (result.timeOut i).caseResults j = result.caseResults j :=
  Function.update_of_ne hne ..

theorem caseResults_runCases_of_lt {cases : List RequestCase} {i j : Nat} {result : RunResult} (hlt : j < i)
    : (runCases serve cases i result).caseResults j = result.caseResults j := by
  induction cases generalizing i result with
  | nil => rfl
  | cons requestCase cases ih =>
    unfold runCases
    split
    . rw [ih (by omega)]
      apply caseResults_receive_of_ne
      omega
    . rw [ih (by omega)]
      apply caseResults_timeOut_of_ne
      omega

theorem caseResults_receive (result : RunResult) (i : Nat) (assertions : List Assertion) (resp : Response)
    : (result.receive i assertions resp).caseResults i = {
        response := some resp
        assertionResults := (evalAssertions resp assertions [] true).1
        requestOk := true
        assertionsOk := (evalAssertions resp assertions [] true).2
      } := by
  unfold RunResult.receive RunResult.setCase
  exact Function.update_self ..

theorem caseResults_runCases {cases : List RequestCase} {i k : Nat} {result : RunResult}
    {requestCase : RequestCase} (hcase : cases[k]? = some requestCase) {resp : Response}
    (hresp : requestCase.roundTrip (serve (i + k)) = some resp)
    : (runCases serve cases i result).caseResults (i + k) =
        (initRunResult.receive (i + k) requestCase.assertions resp).caseResults (i + k) := by
  induction cases generalizing i k result with
  | nil => cases hcase
  | cons first cases ih =>
    unfold runCases
    cases k with
    | zero =>
      rw [List.getElem?_cons_zero, Option.some.injEq] at hcase
      rw [hcase]
      simp only [Nat.add_zero] at hresp ⊢
      rw [hresp]
      dsimp only
      rw [caseResults_runCases_of_lt (Nat.lt_succ_self i), caseResults_receive, caseResults_receive]
    | succ k =>
      rw [List.getElem?_cons_succ] at hcase
      have hnext : i + (k + 1) = i + 1 + k := by omega
      rw [hnext] at hresp ⊢
      split
      . exact ih hcase hresp
      . exact ih hcase hresp

/-- A case that is answered fares in the sequential run as when it is received. -/
theorem caseResults_runSequentially {i : Nat} {requestCase : RequestCase}
    (hcase : plan.cases[i]? = some requestCase) {resp : Response} (hresp : plan.answer serve i = some resp)
    (result : RunResult)
    : (runSequentially plan serve).caseResults i =
        (result.receive i requestCase.assertions resp).caseResults i := by
  unfold RunPlan.answer at hresp
  rw [hcase, Option.bind_some] at hresp
  have hresult (result : RunResult) := @caseResults_runCases serve plan.cases 0 i result requestCase hcase resp
  unfold runSequentially
  dsimp only
  rw [caseResults_receive, ← caseResults_receive initRunResult]
  rw [Nat.zero_add] at hresult
  exact hresult _ hresp

end Sequential

end HttpRuntime
