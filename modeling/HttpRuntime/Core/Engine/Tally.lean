import HttpRuntime.Core.Engine.Coherence

/-!
This module contains what a run leaves behind: no case at all, when it did not come to them, or for each
case the response with the verdicts on it, and the exit code as their sum.
-/

open Lib

namespace HttpRuntime

/-- The response can be read up to the lengths that it has. -/
structure Response.Readable (resp : Response) : Prop where
  headers : ∀ headers ∈ resp.headers, resp.headersLen ≤ headers.length
  body : ∀ body ∈ resp.body, resp.bodyLen ≤ body.length

theorem readable_decodeResponse (row : Nat × ResponseRow) : (decodeResponse row).Readable where
  headers := fun headers _ => Nat.zero_le _
  body := by
    intro body hbody
    unfold decodeResponse at hbody ⊢
    dsimp only at hbody ⊢
    unfold safeCopyBlob at hbody
    split at hbody
    . cases hbody
    . rw [Option.mem_def, Option.map_eq_some_iff] at hbody
      obtain ⟨blob, hblob, hcopy⟩ := hbody
      have hlength : columnBytes row.2.body = blob.length := by
        unfold columnBlob at hblob
        unfold columnBytes
        split at hblob
        . split at hblob
          . cases hblob
          . rw [Option.some.inj hblob]
        . split at hblob
          . cases hblob
          . rw [Option.some.inj hblob]
        . cases hblob
      rw [← hcopy, hlength, List.take_length]

/-- What the result of a case says was found on the response that it holds. -/
def RequestCaseResult.Evaluated (caseResult : RequestCaseResult) (requestCase : RequestCase) : Prop :=
  ∀ resp, caseResult.response = some resp → resp.Readable ∧
    (caseResult.assertionResults, caseResult.assertionsOk) = evalAssertions resp requestCase.assertions [] true

/-- The case has a response that passes. -/
def RequestCaseResult.Fine (caseResult : RequestCaseResult) : Prop :=
  caseResult.response ≠ none ∧ caseResult.assertionsOk = true

-- The results after the first `n` cases were waited for.
structure RunResult.Tally (result : RunResult) (plan : RunPlan) (n : Nat) : Prop where
  flags : result.allRequestsOk = true ∧ result.allAssertionsOk = true ↔ ∀ i, i < n → (result.caseResults i).Fine
  later : ∀ i, n ≤ i → result.caseResults i = .zero
  evaluated : ∀ i requestCase, plan.cases[i]? = some requestCase → (result.caseResults i).Evaluated requestCase
  count : result.caseResultCount = plan.cases.length

/-- What is left of a run. -/
inductive Client.Summed (plan : RunPlan) (client : Client) : Prop where
  | early (hcount : client.result.caseResultCount = 0) (hexit : client.exitCode ≠ 0)
  | all (hcount : client.result.caseResultCount = plan.cases.length)
      (hexit : plan.cases ≠ [] →
        (client.exitCode = 0 ↔ ∀ i, i < plan.cases.length → (client.result.caseResults i).Fine))
      (hevaluated : ∀ i requestCase, plan.cases[i]? = some requestCase →
        (client.result.caseResults i).Evaluated requestCase)

namespace RunResult.Tally

variable {result : RunResult} {plan : RunPlan} {i : Nat} {requestCase : RequestCase}

theorem forall_update {caseResult : RequestCaseResult} {P : RequestCaseResult → Prop}
    : (∀ j, j < i + 1 → P (Function.update result.caseResults i caseResult j)) ↔
        (∀ j, j < i → P (result.caseResults j)) ∧ P caseResult := by
  constructor
  . intro h
    constructor
    . intro j hj
      have hnext := h j (by omega)
      rw [Function.update_of_ne (by omega)] at hnext
      exact hnext
    . have hlast := h i (by omega)
      rw [Function.update_self] at hlast
      exact hlast
  . intro h j hj
    by_cases hji : j = i
    . rw [hji, Function.update_self]
      exact h.2
    . rw [Function.update_of_ne hji]
      exact h.1 j (by omega)

theorem evaluated_update (h : result.Tally plan i) (hcase : plan.cases[i]? = some requestCase)
    {caseResult : RequestCaseResult} (hcaseResult : caseResult.Evaluated requestCase)
    : ∀ j requestCase, plan.cases[j]? = some requestCase →
        (Function.update result.caseResults i caseResult j).Evaluated requestCase := by
  intro j requestCase' hcase'
  by_cases hji : j = i
  . rw [hji, hcase, Option.some.injEq] at hcase'
    rw [hji, Function.update_self, ← hcase']
    exact hcaseResult
  . rw [Function.update_of_ne hji]
    exact h.evaluated j requestCase' hcase'

theorem receive (h : result.Tally plan i) (hcase : plan.cases[i]? = some requestCase) {resp : Response}
    (hresp : resp.Readable) : (result.receive i requestCase.assertions resp).Tally plan (i + 1) where
  flags := by
    unfold RunResult.receive setCase
    dsimp only
    rw [forall_update, ← h.flags, Bool.and_eq_true, ← and_assoc]
    simp [RequestCaseResult.Fine]
  later := by
    intro j hj
    unfold RunResult.receive setCase
    dsimp only
    rw [Function.update_of_ne (by omega)]
    exact h.later j (by omega)
  evaluated := by
    apply h.evaluated_update hcase
    intro resp' hresp'
    rw [← Option.some.inj hresp']
    exact ⟨hresp, rfl⟩
  count := h.count

theorem timeOut (h : result.Tally plan i) (hcase : plan.cases[i]? = some requestCase)
    : (result.timeOut i).Tally plan (i + 1) where
  flags := by
    unfold RunResult.timeOut setCase
    dsimp only
    rw [forall_update]
    simp [RequestCaseResult.Fine]
  later := by
    intro j hj
    unfold RunResult.timeOut setCase
    dsimp only
    rw [Function.update_of_ne (by omega)]
    exact h.later j (by omega)
  evaluated := by
    apply h.evaluated_update hcase
    intro resp hresp
    dsimp only at hresp
    rw [h.later i (Nat.le_refl i)] at hresp
    cases hresp
  count := h.count

end RunResult.Tally

namespace Engine

variable {plan : RunPlan} {sys : Engine} {client : Client}

/-- The way of a run to its sum. -/
inductive TallyInv (plan : RunPlan) (client : Client) : Prop where
  | preparing (hphase : client.pc.phase = .preparing) (hexit : client.exitCode = 1)
      (hresult : client.result = initRunResult)
  | creating (hphase : client.pc.phase = .creating) (hexit : client.exitCode = 1)
      (htally : client.result.Tally plan 0)
  | waiting {i : Nat} (hphase : client.pc.phase = .waiting i) (hexit : client.exitCode = 1)
      (hle : i ≤ plan.cases.length) (htally : client.result.Tally plan i)
  | ending (hphase : client.pc.phase = .leaving ∨ client.pc.phase = .returned) (hsummed : client.Summed plan)

namespace TallyInv

theorem of_preparing (h : TallyInv plan client) (hphase : client.pc.phase = .preparing)
    : client.exitCode = 1 ∧ client.result = initRunResult := by
  cases h with
  | preparing _ hexit hresult => exact ⟨hexit, hresult⟩
  | _ => grind

theorem of_creating (h : TallyInv plan client) (hphase : client.pc.phase = .creating)
    : client.exitCode = 1 ∧ client.result.Tally plan 0 := by
  cases h with
  | creating _ hexit htally => exact ⟨hexit, htally⟩
  | _ => grind

theorem of_waiting (h : TallyInv plan client) {i : Nat} (hphase : client.pc.phase = .waiting i)
    : client.exitCode = 1 ∧ i ≤ plan.cases.length ∧ client.result.Tally plan i := by
  cases h with
  | waiting _ hexit hle htally => grind
  | _ => grind

theorem of_ending (h : TallyInv plan client)
    (hphase : client.pc.phase = .leaving ∨ client.pc.phase = .returned) : client.Summed plan := by
  cases h with
  | ending _ hsummed => exact hsummed
  | _ => grind

theorem start (plan : RunPlan) : TallyInv plan .start := .preparing rfl rfl rfl

-- The sum does not depend on where the client is, and the result gets its exit code at last.
theorem summed_congr (h : client.Summed plan) {client' : Client} (hexit : client'.exitCode = client.exitCode)
    (hcount : client'.result.caseResultCount = client.result.caseResultCount)
    (hresults : client'.result.caseResults = client.result.caseResults) : client'.Summed plan := by
  cases h with
  | early hcount' hexit' => exact .early (hcount.trans hcount') (hexit ▸ hexit')
  | all hcount' hexit' hevaluated =>
    rw [← hexit, ← hresults] at hexit'
    rw [← hresults] at hevaluated
    exact .all (hcount.trans hcount') hexit' hevaluated

theorem summed_early (hexit : client.exitCode = 1) (hresult : client.result = initRunResult)
    : client.Summed plan := by
  apply Client.Summed.early
  . rw [hresult]
    rfl
  . rw [hexit]
    decide

theorem summed_failRequests (hexit : client.exitCode = 1) (htally : client.result.Tally plan 0)
    : client.failRequests.Summed plan := by
  refine .all htally.count ?_ htally.evaluated
  intro hne
  apply iff_of_false
  . unfold Client.failRequests
    dsimp only
    rw [hexit]
    decide
  . intro hfine
    have hfirst := (hfine 0 (List.length_pos_of_ne_nil hne)).1
    unfold Client.failRequests at hfirst
    dsimp only at hfirst
    rw [htally.later 0 (Nat.le_refl 0)] at hfirst
    exact hfirst rfl

theorem summed_judge {i : Nat} (hle : i ≤ plan.cases.length) (hcase : plan.cases[i]? = none)
    (htally : client.result.Tally plan i)
    : Client.Summed plan {
        client with
        pc := .cleanup
        exitCode := if client.result.allRequestsOk && client.result.allAssertionsOk then 0 else 1
      } := by
  rw [List.getElem?_eq_none_iff] at hcase
  refine .all htally.count ?_ htally.evaluated
  intro _
  dsimp only
  rw [Nat.le_antisymm hcase hle, ← htally.flags, ← Bool.and_eq_true]
  split <;> simp_all

theorem clientStep (h : TallyInv plan sys.client) (env : ClientEnv)
    : TallyInv plan (sys.clientStep plan env).client := by
  unfold Engine.clientStep
  dsimp only
  cases hpc : sys.client.pc with
  | init =>
    obtain ⟨hexit, hresult⟩ := h.of_preparing (by rw [hpc]; rfl)
    dsimp only
    split
    . exact .ending (.inl rfl) (summed_early hexit hresult)
    . split
      . exact .ending (.inl rfl) (summed_early hexit hresult)
      . exact .preparing rfl hexit hresult
  | saveCollection =>
    obtain ⟨hexit, hresult⟩ := h.of_preparing (by rw [hpc]; rfl)
    dsimp only
    split
    . exact .ending (.inl rfl) (summed_early hexit hresult)
    . split
      . exact .ending (.inl rfl) (summed_early hexit hresult)
      . exact .preparing rfl hexit hresult
  | createRuntime =>
    obtain ⟨hexit, hresult⟩ := h.of_preparing (by rw [hpc]; rfl)
    dsimp only
    split
    . exact .ending (.inl rfl) (summed_early hexit hresult)
    . refine .creating rfl hexit ?_
      dsimp only
      rw [hresult]
      constructor
      . simp
      . intro i _
        rfl
      . intro i requestCase _ resp hresp
        cases hresp
      . rfl
  | createRequest i =>
    obtain ⟨hexit, htally⟩ := h.of_creating (by rw [hpc]; rfl)
    dsimp only
    split
    . exact .waiting rfl hexit (Nat.zero_le _) htally
    . split
      . exact .ending (.inl rfl) (summed_failRequests hexit htally)
      . split
        . exact .ending (.inl rfl) (summed_failRequests hexit htally)
        . exact .creating rfl hexit htally
  | dispatch i req =>
    obtain ⟨hexit, htally⟩ := h.of_creating (by rw [hpc]; rfl)
    dsimp only
    split
    . exact h
    . split
      . exact .ending (.inl rfl) (summed_failRequests hexit htally)
      . split
        . exact .ending (.inl rfl) (summed_failRequests hexit htally)
        . exact .creating rfl hexit htally
  | wait i elapsed =>
    obtain ⟨hexit, hle, htally⟩ := h.of_waiting (by rw [hpc]; rfl)
    dsimp only
    cases hcase : plan.cases[i]? with
    | none => exact .ending (.inl rfl) (summed_judge hle hcase htally)
    | some requestCase =>
      have hlt := (List.getElem?_eq_some_iff.mp hcase).1
      dsimp only
      split
      . rw [run_dbGetLatestResponseByRequestId]
        dsimp only
        cases hresp : (latestResponse sys.conn.db (sys.client.requestIds i)).bind (pollResponse env.calls) with
        | none => exact .waiting rfl hexit hle htally
        | some resp =>
          obtain ⟨row, _, rfl⟩ := row_of_pollResponse hresp
          exact .waiting rfl hexit hlt (htally.receive hcase (readable_decodeResponse row))
      . exact .waiting rfl hexit hlt (htally.timeOut hcase)
  | cleanup =>
    have hsummed := h.of_ending (by rw [hpc]; exact .inl rfl)
    dsimp only
    split
    . exact .ending (.inl rfl) (summed_congr hsummed rfl rfl rfl)
    . exact .ending (.inr rfl) (summed_congr hsummed rfl rfl rfl)
  | destroy phase =>
    have hsummed := h.of_ending (by rw [hpc]; exact .inl rfl)
    dsimp only
    split
    . exact .ending (.inr rfl) (summed_congr hsummed rfl rfl rfl)
    . exact .ending (.inl rfl) (summed_congr hsummed rfl rfl rfl)
    . exact h
  | returned => exact h

theorem step (h : TallyInv plan sys.client) (act : Action) : TallyInv plan (sys.step plan act).client := by
  cases act with
  | client env => exact h.clientStep env
  | runtime act =>
    rw [client_runtimeStep]
    exact h

theorem exec (h : TallyInv plan sys.client) (acts : List Action)
    : TallyInv plan (sys.exec plan acts).client := by
  induction acts generalizing sys with
  | nil => exact h
  | cons act acts ih => exact ih (h.step act)

end TallyInv

theorem summed_of_returned {conn : Conn} {acts : List Action}
    (hreturned : ((Engine.start conn).exec plan acts).client.pc = .returned)
    : ((Engine.start conn).exec plan acts).client.Summed plan := by
  have hstart : TallyInv plan (Engine.start conn).client := .start plan
  apply (hstart.exec acts).of_ending
  rw [hreturned]
  exact .inr rfl

end Engine

end HttpRuntime
