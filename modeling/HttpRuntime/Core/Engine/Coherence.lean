import HttpRuntime.Core.Engine.Basic

/-!
This module contains when the result of `run_plan` is coherent: the flags agree with the exit code and
with the results of the cases. An early jump to the cleanup lowers one of the two flags only.
-/

open Lib

namespace HttpRuntime

/-- The case has a response. -/
def RequestCaseResult.Answered (caseResult : RequestCaseResult) : Prop :=
  caseResult.requestOk = true ∧ caseResult.response ≠ none

/-- Every assertion of the case was evaluated and passed. -/
structure RequestCaseResult.Passed (caseResult : RequestCaseResult) (requestCase : RequestCase)
    : Prop where
  assertionsOk : caseResult.assertionsOk = true
  count : caseResult.assertionResults.length = requestCase.assertions.length
  passed : ∀ res ∈ caseResult.assertionResults, res.passed = true

-- What the flags say about the first `n` cases.
structure RunResult.Judged (result : RunResult) (plan : RunPlan) (n : Nat) : Prop where
  requests : result.allRequestsOk = true → ∀ i, i < n → (result.caseResults i).Answered
  assertions : result.allAssertionsOk = true → ∀ i requestCase, i < n →
    plan.cases[i]? = some requestCase → (result.caseResults i).Passed requestCase

/-- The result that `run_plan` leaves behind, with the code it returns. -/
structure Client.Coherent (client : Client) (plan : RunPlan) : Prop where
  returned : client.exitCode = client.result.exitCode
  zero_iff : client.exitCode = 0 ↔
    client.result.allRequestsOk = true ∧ client.result.allAssertionsOk = true
  judged : client.result.Judged plan client.result.caseResultCount
  count : client.result.caseResultCount ≤ plan.cases.length

variable {plan : RunPlan} {resp : Response}

theorem evalAssertions_ok {assertions : List Assertion} {results : List AssertionResult} {ok : Bool}
    (h : (evalAssertions resp assertions results ok).2 = true)
    (hresults : ok = true → ∀ res ∈ results, res.passed = true)
    : (evalAssertions resp assertions results ok).1.length = results.length + assertions.length ∧
        ∀ res ∈ (evalAssertions resp assertions results ok).1, res.passed = true := by
  induction assertions generalizing results ok with
  | nil => exact ⟨rfl, hresults h⟩
  | cons as assertions ih =>
    unfold evalAssertions at h ⊢
    split at h
    . cases h
    . next hroom =>
      rw [if_neg hroom]
      dsimp only
      have hnext := ih h ?_
      . rw [List.length_append, List.length_singleton] at hnext
        rw [List.length_cons]
        exact ⟨by omega, hnext.2⟩
      . intro hok res hres
        rw [Bool.and_eq_true] at hok
        cases List.mem_append.mp hres with
        | inl hres => exact hresults hok.1 res hres
        | inr hres =>
          rw [List.mem_singleton] at hres
          rw [hres]
          exact hok.2

namespace RunResult.Judged

variable {result : RunResult} {i : Nat}

theorem zero (result : RunResult) (plan : RunPlan) : result.Judged plan 0 where
  requests := fun _ i hi => absurd hi (Nat.not_lt_zero i)
  assertions := fun _ i _ hi => absurd hi (Nat.not_lt_zero i)

theorem mono {n : Nat} (h : result.Judged plan n) (hle : i ≤ n) : result.Judged plan i where
  requests := fun hflag j hj => h.requests hflag j (by omega)
  assertions := fun hflag j requestCase hj => h.assertions hflag j requestCase (by omega)

theorem receive {requestCase : RequestCase} (h : result.Judged plan i)
    (hcase : plan.cases[i]? = some requestCase) (resp : Response)
    : (result.receive i requestCase.assertions resp).Judged plan (i + 1) where
  requests := by
    intro hflag j hj
    unfold RunResult.receive setCase
    dsimp only
    by_cases hji : j = i
    . rw [hji, Function.update_self]
      exact ⟨rfl, by simp⟩
    . rw [Function.update_of_ne hji]
      exact h.requests hflag j (by omega)
  assertions := by
    intro hflag j requestCase' hj hcase'
    unfold RunResult.receive at hflag
    rw [Bool.and_eq_true] at hflag
    unfold RunResult.receive setCase
    dsimp only
    by_cases hji : j = i
    . rw [hji, hcase, Option.some.injEq] at hcase'
      have hok := evalAssertions_ok hflag.2 (by simp)
      rw [hji, Function.update_self, ← hcase']
      exact ⟨hflag.2, by simpa using hok.1, hok.2⟩
    . rw [Function.update_of_ne hji]
      exact h.assertions hflag.1 j requestCase' (by omega) hcase'

theorem timeOut (result : RunResult) (plan : RunPlan) (i n : Nat) : (result.timeOut i).Judged plan n where
  requests := fun hflag => absurd hflag (by simp [RunResult.timeOut])
  assertions := fun hflag => absurd hflag (by simp [RunResult.timeOut])

end RunResult.Judged

/-- The parts of `run_plan`, with the number of cases that were waited for. -/
inductive ClientPhase where
  | preparing
  | creating
  | waiting (i : Nat)
  | leaving
  | returned
  deriving DecidableEq

def ClientPc.phase (pc : ClientPc) : ClientPhase :=
  match pc with
  | .init => .preparing
  | .saveCollection => .preparing
  | .createRuntime => .preparing
  | .createRequest _ => .creating
  | .dispatch _ _ => .creating
  | .wait i _ => .waiting i
  | .cleanup => .leaving
  | .destroy _ => .leaving
  | .returned => .returned

-- The end of the cleanup.
def Client.finish (client : Client) : Client :=
  { client with pc := .returned, result := { client.result with exitCode := client.exitCode } }

namespace Engine

/-- A step of the client that cannot create, save or dispatch the request of a case. -/
def FailsRequest (plan : RunPlan) (sys : Engine) (act : Action) : Prop :=
  match act, sys.client.pc with
  | .client env, .createRequest i =>
    ∃ requestCase, plan.cases[i]? = some requestCase ∧
      ∀ req, createCaseRequest requestCase sys.client.collId env.alloc = some req →
        ((dbSaveRequest (some req)).run answer env.calls sys.conn).1.1 = sqliteError
  | .client env, .dispatch i req =>
    env.task = true ∧ ∀ rt, sys.runtime = some rt →
      (rt.dispatchTask (.worker ⟨i, ⟨some req⟩⟩) env.node).2 ≠ orchestratorSuccess
  | _, _ => False

instance (plan : RunPlan) (sys : Engine) (act : Action) : Decidable (FailsRequest plan sys act) := by
  unfold FailsRequest
  split
  . next i _ =>
    exact inferInstanceAs (Decidable (∃ requestCase ∈ plan.cases[i]?,
      ∀ req ∈ createCaseRequest requestCase sys.client.collId _, _))
  . exact inferInstanceAs (Decidable (_ ∧ ∀ rt ∈ sys.runtime, _))
  . exact instDecidableFalse

/-- What a step of the client that fails no request makes of its state. -/
inductive Move (plan : RunPlan) (client : Client) : Client → Prop where
  | prepare {pc : ClientPc} {collId : Int} (hphase : client.pc.phase = .preparing)
      (hnext : pc.phase = .preparing ∨ pc = .cleanup)
    : Move plan client { client with pc := pc, collId := collId }
  | start (hphase : client.pc.phase = .preparing)
    : Move plan client {
        client with
        pc := .createRequest 0
        result := {
          client.result with
          allRequestsOk := true
          allAssertionsOk := true
          caseResultCount := plan.cases.length
        }
      }
  | create {pc : ClientPc} {requestIds : Nat → Int} (hphase : client.pc.phase = .creating)
      (hnext : (∃ i, pc = .createRequest i) ∨ ∃ i req, pc = .dispatch i req ∧ plan.cases ≠ [])
    : Move plan client { client with pc := pc, requestIds := requestIds }
  | await (hphase : client.pc.phase = .creating) : Move plan client (client.goto (.wait 0 0))
  | receive {i : Nat} {requestCase : RequestCase} (resp : Response)
      (hphase : client.pc.phase = .waiting i) (hcase : plan.cases[i]? = some requestCase)
    : Move plan client {
        client with
        pc := .wait (i + 1) 0
        result := client.result.receive i requestCase.assertions resp
      }
  | again {i : Nat} {elapsed : Int} (hphase : client.pc.phase = .waiting i)
    : Move plan client (client.goto (.wait i elapsed))
  | timeOut {i : Nat} (hphase : client.pc.phase = .waiting i)
    : Move plan client { client with pc := .wait (i + 1) 0, result := client.result.timeOut i }
  | judge {i : Nat} (hphase : client.pc.phase = .waiting i) (hcase : plan.cases[i]? = none)
    : Move plan client {
        client with
        pc := .cleanup
        exitCode := if client.result.allRequestsOk && client.result.allAssertionsOk then 0 else 1
      }
  | leave {phase : DestroyPhase} (hphase : client.pc.phase = .leaving)
    : Move plan client (client.goto (.destroy phase))
  | finish (hphase : client.pc.phase = .leaving) : Move plan client client.finish
  | stay : Move plan client client

variable {sys : Engine}

theorem clientStep_of_fails {env : ClientEnv} (h : FailsRequest plan sys (.client env))
    : sys.client.pc.phase = .creating ∧ (sys.clientStep plan env).client = sys.client.failRequests := by
  unfold FailsRequest at h
  unfold Engine.clientStep
  dsimp only at h ⊢
  cases hpc : sys.client.pc with
  | createRequest i =>
    rw [hpc] at h
    obtain ⟨requestCase, hcase, hfail⟩ := h
    refine ⟨rfl, ?_⟩
    dsimp only
    rw [hcase]
    dsimp only
    cases hreq : createCaseRequest requestCase sys.client.collId env.alloc with
    | none => rfl
    | some req =>
      dsimp only
      rw [if_pos (hfail req hreq)]
  | dispatch i req =>
    rw [hpc] at h
    dsimp only at h
    refine ⟨rfl, ?_⟩
    dsimp only
    rw [h.1, if_neg (by decide)]
    cases hrt : sys.runtime with
    | none => rfl
    | some rt =>
      dsimp only
      rw [if_pos (h.2 rt hrt)]
  | _ =>
    rw [hpc] at h
    cases h

theorem clientStep_move {env : ClientEnv} (h : ¬ FailsRequest plan sys (.client env))
    : Move plan sys.client (sys.clientStep plan env).client := by
  unfold FailsRequest at h
  unfold Engine.clientStep
  dsimp only at h ⊢
  cases hpc : sys.client.pc with
  | init =>
    dsimp only
    split
    . exact .prepare (by rw [hpc]; rfl) (.inr rfl)
    . split
      . exact .prepare (by rw [hpc]; rfl) (.inr rfl)
      . exact .prepare (by rw [hpc]; rfl) (.inl rfl)
  | saveCollection =>
    dsimp only
    split
    . exact .prepare (by rw [hpc]; rfl) (.inr rfl)
    . split
      . exact .prepare (by rw [hpc]; rfl) (.inr rfl)
      . exact .prepare (by rw [hpc]; rfl) (.inl rfl)
  | createRuntime =>
    dsimp only
    split
    . exact .prepare (by rw [hpc]; rfl) (.inr rfl)
    . exact .start (by rw [hpc]; rfl)
  | createRequest i =>
    rw [hpc] at h
    dsimp only at h ⊢
    cases hcase : plan.cases[i]? with
    | none => exact .await (by rw [hpc]; rfl)
    | some requestCase =>
      rw [hcase] at h
      dsimp only
      cases hreq : createCaseRequest requestCase sys.client.collId env.alloc with
      | none =>
        exfalso
        exact h ⟨requestCase, rfl, by rw [hreq]; simp⟩
      | some req =>
        have hne : plan.cases ≠ [] := by
          rintro hnil
          rw [hnil] at hcase
          cases hcase
        dsimp only
        rw [if_neg]
        . exact .create (by rw [hpc]; rfl) (.inr ⟨_, _, rfl, hne⟩)
        . intro herror
          apply h
          refine ⟨requestCase, rfl, ?_⟩
          intro req' hreq'
          rw [hreq, Option.some.injEq] at hreq'
          rw [← hreq']
          exact herror
  | dispatch i req =>
    rw [hpc] at h
    dsimp only at h ⊢
    cases htask : env.task with
    | false => exact .stay
    | true =>
      rw [if_neg (by decide)]
      cases hrt : sys.runtime with
      | none =>
        rw [hrt] at h
        exact absurd ⟨htask, fun _ hrt => by cases hrt⟩ h
      | some rt =>
        dsimp only
        rw [if_neg]
        . exact .create (by rw [hpc]; rfl) (.inl ⟨_, rfl⟩)
        . intro hfail
          apply h
          refine ⟨htask, ?_⟩
          intro rt' hrt'
          rw [hrt, Option.some.injEq] at hrt'
          rw [← hrt']
          exact hfail
  | wait i elapsed =>
    dsimp only
    cases hcase : plan.cases[i]? with
    | none => exact .judge (by rw [hpc]; rfl) hcase
    | some requestCase =>
      dsimp only
      split
      . split
        . next resp _ => exact .receive resp (by rw [hpc]; rfl) hcase
        . exact .again (by rw [hpc]; rfl)
      . exact .timeOut (by rw [hpc]; rfl)
  | cleanup =>
    dsimp only
    split
    . exact .leave (by rw [hpc]; rfl)
    . exact .finish (by rw [hpc]; rfl)
  | destroy phase =>
    dsimp only
    split
    . exact .finish (by rw [hpc]; rfl)
    . exact .leave (by rw [hpc]; rfl)
    . exact .stay
  | returned => exact .stay

/-- What holds in each part of a run that has failed no request. -/
inductive CoherenceInv (plan : RunPlan) (client : Client) : Prop where
  | preparing (hphase : client.pc.phase = .preparing) (hexit : client.exitCode = 1)
      (hresult : client.result = initRunResult)
  | creating (hphase : client.pc.phase = .creating) (hexit : client.exitCode = 1)
      (hassertions : client.result.allAssertionsOk = true)
      (hcount : client.result.caseResultCount = plan.cases.length)
      (hzero : ∀ i, client.result.caseResults i = .zero)
      (hdispatch : ∀ i req, client.pc = .dispatch i req → plan.cases ≠ [])
  | waiting {i : Nat} (hphase : client.pc.phase = .waiting i) (hexit : client.exitCode = 1)
      (hcount : client.result.caseResultCount = plan.cases.length)
      (hjudged : client.result.Judged plan i)
  | leaving (hphase : client.pc.phase = .leaving) (hfinish : client.finish.Coherent plan)
  | returned (hphase : client.pc.phase = .returned) (hcoherent : client.Coherent plan)

-- The way out of a run that failed a request: nothing lowered the flag of the assertions.
structure Failed (plan : RunPlan) (client : Client) : Prop where
  phase : client.pc.phase = .leaving ∨ client.pc.phase = .returned
  assertions : client.result.allAssertionsOk = true
  unevaluated : (client.result.caseResults 0).assertionsOk = false
  count : client.result.caseResultCount = plan.cases.length
  nonempty : plan.cases ≠ []

namespace CoherenceInv

variable {client client' : Client}

theorem start (plan : RunPlan) : CoherenceInv plan Client.start := .preparing rfl rfl rfl

theorem finish_of_preparing (hexit : client.exitCode = 1) (hresult : client.result = initRunResult)
    : client.finish.Coherent plan where
  returned := rfl
  zero_iff := by
    unfold Client.finish
    rw [hexit, hresult]
    exact iff_of_false (by decide) (by simp [initRunResult])
  judged := by
    unfold Client.finish
    rw [hresult]
    exact .zero _ plan
  count := by
    unfold Client.finish
    rw [hresult]
    exact Nat.zero_le _

theorem finish_of_judge {i : Nat} (hcount : client.result.caseResultCount = plan.cases.length)
    (hjudged : client.result.Judged plan i) (hcase : plan.cases[i]? = none)
    : Client.Coherent (Client.finish {
        client with
        pc := .cleanup
        exitCode := if client.result.allRequestsOk && client.result.allAssertionsOk then 0 else 1
      }) plan where
  returned := rfl
  zero_iff := by
    simp [Client.finish]
  judged := by
    rw [List.getElem?_eq_none_iff, ← hcount] at hcase
    have hall := hjudged.mono hcase
    exact ⟨hall.requests, hall.assertions⟩
  count := Nat.le_of_eq hcount

section Phases

variable (h : CoherenceInv plan client)

include h

theorem of_preparing (hphase : client.pc.phase = .preparing)
    : client.exitCode = 1 ∧ client.result = initRunResult := by
  cases h with
  | preparing _ hexit hresult => exact ⟨hexit, hresult⟩
  | _ => grind

theorem of_creating (hphase : client.pc.phase = .creating)
    : client.exitCode = 1 ∧ client.result.allAssertionsOk = true ∧
        client.result.caseResultCount = plan.cases.length ∧
        (∀ i, client.result.caseResults i = .zero) ∧
        ∀ i req, client.pc = .dispatch i req → plan.cases ≠ [] := by
  cases h with
  | creating _ hexit hassertions hcount hzero hdispatch =>
    exact ⟨hexit, hassertions, hcount, hzero, hdispatch⟩
  | _ => grind

theorem of_waiting {i : Nat} (hphase : client.pc.phase = .waiting i)
    : client.exitCode = 1 ∧ client.result.caseResultCount = plan.cases.length ∧
        client.result.Judged plan i := by
  cases h with
  | waiting _ hexit hcount hjudged => grind
  | _ => grind

theorem of_leaving (hphase : client.pc.phase = .leaving) : client.finish.Coherent plan := by
  cases h with
  | leaving _ hfinish => exact hfinish
  | _ => grind

theorem of_returned (hphase : client.pc.phase = .returned) : client.Coherent plan := by
  cases h with
  | returned _ hcoherent => exact hcoherent
  | _ => grind

end Phases

theorem move (h : CoherenceInv plan client) (hmove : Move plan client client')
    : CoherenceInv plan client' := by
  cases hmove with
  | prepare hphase hnext =>
    have ⟨hexit, hresult⟩ := h.of_preparing hphase
    cases hnext with
    | inl hnext => exact .preparing hnext hexit hresult
    | inr hnext =>
      subst hnext
      exact .leaving rfl (finish_of_preparing hexit hresult)
  | start hphase =>
    have ⟨hexit, hresult⟩ := h.of_preparing hphase
    refine .creating rfl hexit rfl rfl ?_ (by simp)
    intro i
    dsimp only
    rw [hresult]
    rfl
  | create hphase hnext =>
    have ⟨hexit, hassertions, hcount, hzero, _⟩ := h.of_creating hphase
    rcases hnext with ⟨i, rfl⟩ | ⟨i, req, rfl, hne⟩
    . exact .creating rfl hexit hassertions hcount hzero (by simp)
    . exact .creating rfl hexit hassertions hcount hzero (fun _ _ _ => hne)
  | await hphase =>
    have ⟨hexit, _, hcount, _, _⟩ := h.of_creating hphase
    exact .waiting rfl hexit hcount (.zero _ plan)
  | receive resp hphase hcase =>
    have ⟨hexit, hcount, hjudged⟩ := h.of_waiting hphase
    exact .waiting rfl hexit hcount (hjudged.receive hcase resp)
  | again hphase =>
    have ⟨hexit, hcount, hjudged⟩ := h.of_waiting hphase
    exact .waiting rfl hexit hcount hjudged
  | timeOut hphase =>
    have ⟨hexit, hcount, _⟩ := h.of_waiting hphase
    exact .waiting rfl hexit hcount (.timeOut _ plan _ _)
  | judge hphase hcase =>
    have ⟨_, hcount, hjudged⟩ := h.of_waiting hphase
    exact .leaving rfl (finish_of_judge hcount hjudged hcase)
  | leave hphase => exact .leaving rfl (h.of_leaving hphase)
  | finish hphase => exact .returned rfl (h.of_leaving hphase)
  | stay => exact h

end CoherenceInv

namespace Failed

variable {client client' : Client}

theorem of_failRequests (h : CoherenceInv plan client) (hphase : client.pc.phase = .creating)
    (hne : plan.cases ≠ []) : Failed plan client.failRequests := by
  have ⟨_, hassertions, hcount, hzero, _⟩ := h.of_creating hphase
  constructor
  . exact .inl rfl
  . exact hassertions
  . show (client.result.caseResults 0).assertionsOk = false
    rw [hzero 0]
    rfl
  . exact hcount
  . exact hne

theorem move (h : Failed plan client) (hmove : Move plan client client') : Failed plan client' := by
  have hphase := h.phase
  cases hmove with
  | leave _ => exact ⟨.inl rfl, h.assertions, h.unevaluated, h.count, h.nonempty⟩
  | finish _ => exact ⟨.inr rfl, h.assertions, h.unevaluated, h.count, h.nonempty⟩
  | stay => exact h
  | _ => grind

theorem not_coherent (h : Failed plan client) : ¬ client.Coherent plan := by
  intro hcoherent
  obtain ⟨requestCase, rest, hcases⟩ := List.exists_cons_of_ne_nil h.nonempty
  have hpos : 0 < client.result.caseResultCount := by
    rw [h.count, hcases]
    exact Nat.succ_pos _
  have hpassed := hcoherent.judged.assertions h.assertions 0 requestCase hpos (by rw [hcases]; rfl)
  have hok := hpassed.assertionsOk
  rw [h.unevaluated] at hok
  cases hok

end Failed

/-- No step of the run fails to create, save or dispatch the request of a case. -/
def NoRequestFails (plan : RunPlan) (sys : Engine) (acts : List Action) : Prop :=
  match acts with
  | [] => True
  | act :: acts => ¬ FailsRequest plan sys act ∧ NoRequestFails plan (sys.step plan act) acts

instance decidableNoRequestFails (plan : RunPlan) (sys : Engine) (acts : List Action)
    : Decidable (NoRequestFails plan sys acts) :=
  match acts with
  | [] => instDecidableTrue
  | act :: acts =>
    have := decidableNoRequestFails plan (sys.step plan act) acts
    inferInstanceAs (Decidable (¬ FailsRequest plan sys act ∧ NoRequestFails plan (sys.step plan act) acts))

theorem client_runtimeStep (plan : RunPlan) (sys : Engine) (act : Runtime.Action)
    : (sys.step plan (.runtime act)).client = sys.client := by
  unfold Engine.step
  dsimp only
  split <;> rfl

theorem CoherenceInv.step (h : CoherenceInv plan sys.client) {act : Action}
    (hact : ¬ FailsRequest plan sys act) : CoherenceInv plan (sys.step plan act).client := by
  cases act with
  | client env => exact h.move (clientStep_move hact)
  | runtime act =>
    rw [client_runtimeStep]
    exact h

theorem CoherenceInv.step_of_fails (h : CoherenceInv plan sys.client) {act : Action}
    (hact : FailsRequest plan sys act) : Failed plan (sys.step plan act).client := by
  cases act with
  | runtime act => cases hact
  | client env =>
    have ⟨hphase, hclient⟩ := clientStep_of_fails hact
    have hne : plan.cases ≠ [] := by
      unfold FailsRequest at hact
      cases hpc : sys.client.pc with
      | createRequest i =>
        rw [hpc] at hact
        obtain ⟨requestCase, hcase, _⟩ := hact
        rintro hnil
        rw [hnil] at hcase
        cases hcase
      | dispatch i req => exact (h.of_creating hphase).2.2.2.2 i req hpc
      | _ =>
        rw [hpc] at hact
        cases hact
    show Failed plan (sys.clientStep plan env).client
    rw [hclient]
    exact .of_failRequests h hphase hne

theorem Failed.step (h : Failed plan sys.client) (act : Action)
    : Failed plan (sys.step plan act).client := by
  cases act with
  | runtime act =>
    rw [client_runtimeStep]
    exact h
  | client env =>
    apply h.move
    apply clientStep_move
    intro hfails
    have hphase := (clientStep_of_fails hfails).1
    cases h.phase with
    | inl hleaving =>
      rw [hleaving] at hphase
      cases hphase
    | inr hreturned =>
      rw [hreturned] at hphase
      cases hphase

theorem Failed.exec (h : Failed plan sys.client) (acts : List Action)
    : Failed plan (sys.exec plan acts).client := by
  induction acts generalizing sys with
  | nil => exact h
  | cons act acts ih => exact ih (h.step act)

/-- A run fails no request and stays coherent, or it fails one and is on its way out. -/
theorem CoherenceInv.exec (h : CoherenceInv plan sys.client) (acts : List Action)
    : (NoRequestFails plan sys acts ∧ CoherenceInv plan (sys.exec plan acts).client) ∨
        (¬ NoRequestFails plan sys acts ∧ Failed plan (sys.exec plan acts).client) := by
  induction acts generalizing sys with
  | nil => exact .inl ⟨trivial, h⟩
  | cons act acts ih =>
    by_cases hact : FailsRequest plan sys act
    . exact .inr ⟨fun hnone => hnone.1 hact, (h.step_of_fails hact).exec acts⟩
    . cases ih (h.step hact) with
      | inl hgood => exact .inl ⟨⟨hact, hgood.1⟩, hgood.2⟩
      | inr hbad => exact .inr ⟨fun hnone => hbad.1 hnone.2, hbad.2⟩

end Engine

/-- A run that returns leaves a coherent result just if it created, saved and dispatched the requests
of all of its cases. -/
theorem runPlan_coherent_iff {plan : RunPlan} {conn : Conn} {acts : List Engine.Action}
    (hreturned : ((Engine.start conn).exec plan acts).client.pc = .returned)
    : ((Engine.start conn).exec plan acts).client.Coherent plan ↔
        Engine.NoRequestFails plan (Engine.start conn) acts := by
  have hphase : ((Engine.start conn).exec plan acts).client.pc.phase = .returned := by
    rw [hreturned]
    rfl
  have hstart : Engine.CoherenceInv plan (Engine.start conn).client := .start plan
  cases hstart.exec acts with
  | inl h => exact iff_of_true (h.2.of_returned hphase) h.1
  | inr h => exact iff_of_false h.2.not_coherent h.1

-- The first case passes, the second one fails one of its assertions, and the last one times out.
def mixedPlan : RunPlan :=
  planOf [
    postCase [⟨.statusEq, .int 200⟩, ⟨.statusEq, .int 200⟩],
    { postCase [⟨.statusEq, .int 200⟩, ⟨.statusEq, .int 404⟩] with body := some [99] },
    { postCase [⟨.statusEq, .int 200⟩] with body := some [100], timeoutMs := 100 }
  ]

def mixedRun : List Engine.Action :=
  clientSteps 10 ++ processTask (.ok [] 200) ++ processTask (.ok [] 200) ++ clientSteps 4 ++
    processTask (.ok [] 200) ++ clientSteps 1 ++ shutDown

theorem runPlan_coherent_mixed
    : ((Engine.start (.open .empty)).exec mixedPlan mixedRun).client.Coherent mixedPlan := by
  rw [runPlan_coherent_iff]
  . decide +kernel
  . decide +kernel

example
    : let result := ((Engine.start (.open .empty)).exec mixedPlan mixedRun).client.result
      result.allRequestsOk = false ∧ result.allAssertionsOk = false ∧
        (result.caseResults 0).assertionsOk = true ∧ (result.caseResults 1).requestOk = true ∧
        ((result.caseResults 1).assertionResults.map AssertionResult.passed) = [true, false] ∧
        (result.caseResults 2).requestOk = false := by
  decide +kernel

-- A request without a body is refused by `db_save_request`.
def getCase : RequestCase :=
  { postCase [⟨.statusEq, .int 200⟩] with method := .get, body := none, bodyLen := 0 }

def refusedRun : List Engine.Action := clientSteps 4 ++ shutDown

/-- All assertions are reported as passed, and not one of them was evaluated. -/
theorem runPlan_not_coherent
    : let sys := (Engine.start (.open .empty)).exec (planOf [getCase]) refusedRun
      sys.client.pc = .returned ∧ sys.client.result.allRequestsOk = false ∧
        sys.client.result.allAssertionsOk = true ∧ sys.client.result.caseResultCount = 1 ∧
        (sys.client.result.caseResults 0).assertionsOk = false ∧
        (sys.client.result.caseResults 0).assertionResults = [] ∧
        ¬ sys.client.Coherent (planOf [getCase]) := by
  refine ⟨by decide +kernel, by decide +kernel, by decide +kernel, by decide +kernel, by decide +kernel,
    by decide +kernel, ?_⟩
  intro hcoherent
  have hpassed := hcoherent.judged.assertions (by decide +kernel) 0 getCase (by decide +kernel) rfl
  have hok := hpassed.assertionsOk
  revert hok
  decide +kernel

end HttpRuntime
