import HttpRuntime.Core.HeaderLines
import HttpRuntime.Core.Worker.Buffers

/-!
This module contains which of the responses of a redirected transfer an assertion judges. libcurl hands
over the header lines of all of them, and reports the status of the last one.
-/

namespace HttpRuntime

/-- A header line as libcurl hands it over, up to its line feed. -/
structure HeaderLine where
  bytes : Bytes
  noLineFeed : 10 ∉ bytes
  noNul : 0 ∉ bytes

structure Received where
  status : Nat
  lines : List HeaderLine
  status_lt : status < 1000

-- One of the header lines is the expected header.
def Received.Has (received : Received) (expected : HeaderExpect) : Prop :=
  ∃ line ∈ received.lines, ∃ name ∈ expected.name, ∃ value ∈ expected.value,
    headerLineMatches line.bytes (cstring name) (cstring value) = true

structure Follows (env : TransferEnv) (redirects : List Received) (final : Received) : Prop where
  headers : headerChunks env.events =
    ((redirects ++ [final]).flatMap Received.lines).map (fun line => line.bytes ++ [10])
  responseCode : env.responseCode = final.status

/-- The header assertion and every status assertion are about `final`. -/
structure JudgesFinal (resp : Response) (final : Received) (expected : HeaderExpect) : Prop where
  header : (evalAssertion (some resp) (some ⟨.headerContains, .header expected⟩)).passed = true ↔
    final.Has expected
  status : ∀ n : Int,
    (evalAssertion (some resp) (some ⟨.statusEq, .int n⟩)).passed = true ↔ n = final.status

section Worker

variable {env : TransferEnv} {req : Request} {resp : Response}

theorem httpWorkerTask_ok (h : httpWorkerTask env (some req) = some resp) (hok : resp.result = .ok)
    : let res := runEvents { Response.zero with requestId := req.id } env.events
      res.2 = true ∧ resp.headers = res.1.headers ∧ resp.statusCode = Lib.toInt env.responseCode := by
  unfold httpWorkerTask at h
  dsimp only at h
  split at h
  . cases h
  . have hfailed {resp' : Response} (hresp : some resp' = some resp) (hbad : resp'.result = .curlError)
        : False := by
      rw [Option.some.injEq] at hresp
      rw [hresp, hok] at hbad
      cases hbad
    split at h
    . exact (hfailed h rfl).elim
    . split at h
      . exact (hfailed h rfl).elim
      . split at h
        . exact (hfailed h rfl).elim
        . split at h
          . exact (hfailed h rfl).elim
          . split at h
            . exact (hfailed h rfl).elim
            . next hperformed =>
              rw [Option.some.injEq] at h
              rw [Bool.not_eq_true', Bool.not_eq_false] at hperformed
              unfold easyPerform at hperformed
              rw [Bool.and_eq_true] at hperformed
              rw [← h]
              exact ⟨hperformed.1, rfl, rfl⟩

end Worker

section Headers

variable {resp : Response} {expected : HeaderExpect}

theorem ne_zero_of_lines {lines : List HeaderLine}
    : ∀ c ∈ lines.flatMap (fun line => line.bytes ++ [10]), c ≠ 0 := by
  intro c hc heq
  rw [heq, List.mem_flatMap] at hc
  rcases hc with ⟨line, _, hzero⟩
  rw [List.mem_append, List.mem_singleton] at hzero
  rcases hzero with hzero | hzero
  . exact line.noNul hzero
  . cases hzero

theorem evalAssertion_header {lines : List HeaderLine}
    (hheaders : resp.headers.getD [] = lines.flatMap (fun line => line.bytes ++ [10]))
    : (evalAssertion (some resp) (some ⟨.headerContains, .header expected⟩)).passed = true ↔
        ∃ line ∈ lines, ∃ name ∈ expected.name, ∃ value ∈ expected.value,
          headerLineMatches line.bytes (cstring name) (cstring value) = true := by
  have hne := @ne_zero_of_lines lines
  rw [← hheaders] at hne
  have hlines : ∀ line ∈ lines.map HeaderLine.bytes, 10 ∉ line := by
    intro line hline
    rw [List.mem_map] at hline
    rcases hline with ⟨line', _, heq⟩
    rw [← heq]
    exact line'.noLineFeed
  have hcontains (name value : Bytes) : headerLinesContain (resp.headers.getD []) name value =
      lines.any (fun line => headerLineMatches line.bytes name value) := by
    have hmap : lines.flatMap (fun line => line.bytes ++ [10]) =
        (lines.map HeaderLine.bytes).flatMap (fun line => line ++ [10]) :=
      (List.flatMap_map HeaderLine.bytes (fun line => line ++ [10]) lines).symm
    rw [hheaders, hmap, headerLinesContain_flatMap hlines, List.any_map]
    rfl
  rw [passed_headerContains]
  cases hresp : resp.headers with
  | none =>
    rw [hresp, Option.getD_none] at hheaders
    cases lines with
    | nil => simp [headerContains]
    | cons line lines => simp at hheaders
  | some text =>
    rw [hresp, Option.getD_some] at hne hcontains
    unfold headerContains
    cases expected.name with
    | none => simp
    | some name =>
      cases expected.value with
      | none => simp
      | some value =>
        dsimp only
        rw [cstring_eq_self hne, hcontains]
        simp

end Headers

variable {env : TransferEnv} {req : Request} {resp : Response} {redirects : List Received}
  {final : Received}

theorem evalAssertion_status {code : Nat} (hstatus : resp.statusCode = Lib.toInt (code : Int))
    (hlt : code < 1000) (n : Int)
    : (evalAssertion (some resp) (some ⟨.statusEq, .int n⟩)).passed = true ↔ n = code := by
  have hpassed : (evalAssertion (some resp) (some ⟨.statusEq, .int n⟩)).passed =
      (resp.statusCode == n) := rfl
  rw [hpassed, hstatus, Lib.toInt_ofNat (by omega), beq_iff_eq]
  exact eq_comm

/--
The assertions of a case judge the final response exactly if no redirect has the expected header, or
the final response has it as well.
-/
theorem headerContains_judgesFinal_iff (hfollows : Follows env redirects final)
    (h : httpWorkerTask env (some req) = some resp) (hok : resp.result = .ok) (expected : HeaderExpect)
    : JudgesFinal resp final expected ↔
        ((∃ redirect ∈ redirects, redirect.Has expected) → final.Has expected) := by
  have ⟨hperformed, hheaders, hstatus⟩ := httpWorkerTask_ok h hok
  have hfresh : { Response.zero with requestId := req.id }.Fresh := by
    constructor <;> rfl
  have hgathered := (runEvents_gathers hfresh.buffers hperformed).headers
  rw [← hheaders, hfollows.headers, ← List.flatMap_def] at hgathered
  have hpassed := @evalAssertion_header resp expected _ hgathered
  rw [hfollows.responseCode] at hstatus
  have hcases : (evalAssertion (some resp) (some ⟨.headerContains, .header expected⟩)).passed = true ↔
      (∃ redirect ∈ redirects, redirect.Has expected) ∨ final.Has expected := by
    rw [hpassed]
    unfold Received.Has
    simp only [List.mem_flatMap, List.mem_append, List.mem_singleton]
    constructor
    . rintro ⟨line, ⟨received, hreceived, hline⟩, hmatch⟩
      cases hreceived with
      | inl hmem => exact Or.inl ⟨received, hmem, line, hline, hmatch⟩
      | inr heq =>
        rw [heq] at hline
        exact Or.inr ⟨line, hline, hmatch⟩
    . intro hhas
      rcases hhas with ⟨redirect, hmem, line, hline, hmatch⟩ | ⟨line, hline, hmatch⟩
      . exact ⟨line, ⟨redirect, Or.inl hmem, hline⟩, hmatch⟩
      . exact ⟨line, ⟨final, Or.inr rfl, hline⟩, hmatch⟩
  constructor
  . intro hjudges hredirect
    exact hjudges.header.mp (hcases.mpr (Or.inl hredirect))
  . intro hfinal
    refine ⟨?_, evalAssertion_status hstatus final.status_lt⟩
    rw [hcases]
    constructor
    . intro hhas
      exact hhas.elim hfinal id
    . exact Or.inr

section Examples

-- "X: y\r"
def xLine : HeaderLine where
  bytes := [88, 58, 32, 121, 13]
  noLineFeed := by decide
  noNul := by decide

def expectX : HeaderExpect where
  name := some [120]
  value := some [121]

def movedWithX : Received where
  status := 301
  lines := [xLine]
  status_lt := by decide

def okWithX : Received where
  status := 200
  lines := [xLine]
  status_lt := by decide

def okWithoutX : Received where
  status := 200
  lines := []
  status_lt := by decide

def getTask : Request where
  id := 1
  collectionId := 1
  method := .get
  url := some [117]
  urlLen := 1
  headers := none
  headersLen := 0
  body := none
  bodyLen := 0
  status := 0

-- The header line comes with both responses, or with the first one only.
def bothEnv : TransferEnv :=
  .ok [.header (xLine.bytes ++ [10]) true, .header (xLine.bytes ++ [10]) true, .body [97] true] 200

def redirectEnv : TransferEnv := .ok [.header (xLine.bytes ++ [10]) true, .body [97] true] 200

theorem bothEnv_follows : Follows bothEnv [movedWithX] okWithX where
  headers := rfl
  responseCode := rfl

theorem redirectEnv_follows : Follows redirectEnv [movedWithX] okWithoutX where
  headers := rfl
  responseCode := rfl

theorem xLine_has {received : Received} (h : xLine ∈ received.lines) : received.Has expectX :=
  ⟨xLine, h, [120], rfl, [121], rfl, by decide +kernel⟩

theorem okWithoutX_has_not : ¬ okWithoutX.Has expectX := by
  rintro ⟨line, hline, _⟩
  cases hline

theorem headerContains_judgesFinal_both
    : ∃ resp, httpWorkerTask bothEnv (some getTask) = some resp ∧ JudgesFinal resp okWithX expectX := by
  refine ⟨_, rfl, ?_⟩
  apply (@headerContains_judgesFinal_iff _ getTask _ _ _ bothEnv_follows rfl rfl expectX).mpr
  intro _
  exact xLine_has (List.mem_singleton_self _)

/-- The header of the redirect passes the assertion, the final response has none. -/
theorem headerContains_not_judgesFinal
    : Follows redirectEnv [movedWithX] okWithoutX ∧
        ∃ resp, httpWorkerTask redirectEnv (some getTask) = some resp ∧ resp.result = .ok ∧
          resp.statusCode = 200 ∧
          (evalAssertion (some resp) (some ⟨.headerContains, .header expectX⟩)).passed = true ∧
          ¬ JudgesFinal resp okWithoutX expectX := by
  refine ⟨redirectEnv_follows, _, rfl, rfl, by decide, ?_, ?_⟩
  . decide +kernel
  . intro h
    have hpassed := h.header.mp (by decide +kernel)
    exact okWithoutX_has_not hpassed

end Examples

end HttpRuntime
