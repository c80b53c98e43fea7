import HttpRuntime.Cli.Exit
import HttpRuntime.Cli.Output
import HttpRuntime.Core.Engine.Tally
import HttpRuntime.Dsl.Parser.Congruence

/-!
This module contains what a reader of the output learns of a run: the response of every case and the
verdict on each of its assertions, in the order of the plan, and from these the exit code.
-/

open Lib

namespace HttpRuntime

/-- What a piece of the output tells. Only the text of the program tells anything. -/
inductive Event where
  | response
  | failedRequest
  | mark (passed : Bool)
  | verdict (ok : Bool)
  deriving DecidableEq, Repr

def Piece.event (piece : Piece) : Option Event :=
  match piece with
  | .text s =>
    if s = "Response ID: " then some .response
    else if s = " failed or timed out.\n" then some .failedRequest
    else if s = "  ✓ status == " ∨ s = "  ✓ body contains " ∨ s = "  ✓ header contains " then
      some (.mark true)
    else if s = "  ✗ status == " ∨ s = "  ✗ body contains " ∨ s = "  ✗ header contains " then
      some (.mark false)
    else if s = "PASS" then some (.verdict true)
    else if s = "FAIL" then some (.verdict false)
    else none
  | _ => none

def events (report : List Piece) : List Event := report.filterMap Piece.event

section Events

variable {report report' : List Piece}

theorem events_append (report report' : List Piece) : events (report ++ report') = events report ++ events report' :=
  List.filterMap_append

theorem events_printHeaderLines (p : Bytes) : events (printHeaderLines p) = [] := by
  fun_induction printHeaderLines p with
  | case1 => rfl
  | case2 c cs line ih =>
    rw [events_append, ih]
    simp [events, Piece.event]

theorem printPreview_events {title : String} (htitle : title = "Headers" ∨ title = "Body")
    {data : Option Bytes} {len : Nat} (hdata : ∀ bytes ∈ data, len ≤ bytes.length) (limit : Nat)
    : ∃ pieces, printPreview title data len limit = some pieces ∧ events pieces = [] := by
  have hempty : events [.text title, .text ": -\n"] = [] := by
    rcases htitle with rfl | rfl <;> simp [events, Piece.event]
  have htruncated (n : Nat) (long : Prop) [Decidable long]
      : events (if long then [.text "\n... [truncated, ", .size n, .text " bytes remaining]"] else []) = [] := by
    split
    . simp [events, Piece.event]
    . rfl
  unfold printPreview
  cases data with
  | none => exact ⟨_, rfl, hempty⟩
  | some bytes =>
    dsimp only
    have hlen := hdata bytes rfl
    split
    . exact ⟨_, rfl, hempty⟩
    . rw [if_neg (by split <;> omega)]
      refine ⟨_, rfl, ?_⟩
      rw [events_append, events_append, htruncated]
      rcases htitle with rfl | rfl <;> simp [events, Piece.event]

theorem Response.Readable.headersLength_le {resp : Response} (h : resp.Readable)
    : ∀ headers ∈ resp.headers, headersLength resp ≤ headers.length := by
  intro headers hheaders
  unfold headersLength
  split
  . exact h.headers headers hheaders
  . rw [Option.mem_def.mp hheaders]
    exact (List.takeWhile_sublist _).length_le

theorem printResponseSummary_events {resp : Response} (h : resp.Readable)
    : ∃ pieces, printResponseSummary resp = some pieces ∧ events pieces = [.response] := by
  have hheaders : ∃ pieces, printHeadersPart resp = some pieces ∧ events pieces = [] := by
    unfold printHeadersPart
    split
    . obtain ⟨preview, hpreview, hevents⟩ :=
        printPreview_events (.inl rfl) h.headersLength_le headerPreviewLimit
      rw [hpreview]
      refine ⟨_, rfl, ?_⟩
      rw [events_append, hevents]
      simp [events, Piece.event]
    . refine ⟨_, rfl, ?_⟩
      simp [events, Piece.event]
  have hbody : ∃ pieces, printBodyPart resp = some pieces ∧ events pieces = [] := by
    unfold printBodyPart
    split
    . exact ⟨_, rfl, rfl⟩
    . split
      . refine ⟨_, rfl, ?_⟩
        simp [events, Piece.event]
      . exact printPreview_events (.inr rfl) h.body bodyPreviewLimit
  obtain ⟨headers, hheaders, hheaders'⟩ := hheaders
  obtain ⟨body, hbody, hbody'⟩ := hbody
  unfold printResponseSummary
  rw [hheaders, Option.bind_eq_bind, Option.bind_some, hbody]
  refine ⟨_, rfl, ?_⟩
  rw [events_append, events_append, hheaders', hbody']
  cases resp.result <;> simp [events, Piece.event, responseResultToChar]

/-- The expected value is the one that its type asks for, and can be read. -/
def Assertion.Printable (as : Assertion) : Prop :=
  match as.type, as.expected with
  | .statusEq, .int _ => True
  | .bodyContains, .bytes data len => ∀ bytes ∈ data, len ≤ bytes.length
  | .headerContains, .header _ => True
  | _, _ => False

theorem printStatus_events {as : Assertion} (h : as.Printable) (htype : as.type = .statusEq) (resp : Response)
    : ∃ pieces, printStatus (evalAssertion (some resp) (some as)) = some pieces ∧
        events pieces = [.mark (evalAssertion (some resp) (some as)).passed] := by
  obtain ⟨type, expected⟩ := as
  dsimp only at htype
  rw [htype] at h ⊢
  cases expected with
  | int n =>
    unfold printStatus evalAssertion
    dsimp only
    split
    . next hpassed =>
      refine ⟨_, rfl, ?_⟩
      rw [hpassed]
      simp [events, Piece.event]
    . next hpassed =>
      refine ⟨_, rfl, ?_⟩
      rw [Bool.eq_false_iff.mpr hpassed]
      simp [events, Piece.event]
  | _ => exact h.elim

theorem printBodyContains_events {as : Assertion} (h : as.Printable) (htype : as.type = .bodyContains)
    (resp : Response)
    : ∃ pieces, printBodyContains (evalAssertion (some resp) (some as)) = some pieces ∧
        events pieces = [.mark (evalAssertion (some resp) (some as)).passed] := by
  obtain ⟨type, expected⟩ := as
  dsimp only at htype
  rw [htype] at h ⊢
  cases expected with
  | bytes data len =>
    have hvalue : ∃ bytes, printBytes data len = some (.data bytes) := by
      unfold printBytes
      cases data with
      | none => exact ⟨_, rfl⟩
      | some bytes =>
        have hlen := h bytes rfl
        dsimp only
        rw [if_neg (by omega)]
        exact ⟨_, rfl⟩
    obtain ⟨bytes, hbytes⟩ := hvalue
    unfold evalAssertion
    dsimp only
    split
    . unfold printBodyContains
      dsimp only
      rw [hbytes]
      refine ⟨_, rfl, ?_⟩
      simp [events, Piece.event]
    . unfold printBodyContains
      dsimp only
      rw [hbytes, Option.bind_eq_bind, Option.bind_some]
      split
      . next hpassed =>
        refine ⟨_, rfl, ?_⟩
        rw [hpassed]
        simp [events, Piece.event]
      . next hpassed =>
        refine ⟨_, rfl, ?_⟩
        rw [Bool.eq_false_iff.mpr hpassed]
        simp [events, Piece.event]
  | _ => exact h.elim

theorem printHeaderContains_events {as : Assertion} (h : as.Printable) (htype : as.type = .headerContains)
    (resp : Response)
    : ∃ pieces, printHeaderContains (evalAssertion (some resp) (some as)) = some pieces ∧
        events pieces = [.mark (evalAssertion (some resp) (some as)).passed] := by
  obtain ⟨type, expected⟩ := as
  dsimp only at htype
  rw [htype] at h ⊢
  cases expected with
  | header expected =>
    unfold evalAssertion
    dsimp only
    split
    . refine ⟨_, rfl, ?_⟩
      simp [events, Piece.event]
    . unfold printHeaderContains
      dsimp only
      split
      . next hpassed =>
        refine ⟨_, rfl, ?_⟩
        rw [hpassed]
        simp [events, Piece.event]
      . next hpassed =>
        refine ⟨_, rfl, ?_⟩
        rw [Bool.eq_false_iff.mpr hpassed, events_append, events_append]
        split
        . rw [events_append _ (printHeaderLines _), events_printHeaderLines]
          simp [events, Piece.event]
        . simp [events, Piece.event]
  | _ => exact h.elim

theorem printAssertionResult_events {as : Assertion} (h : as.Printable) (resp : Response)
    : ∃ pieces, printAssertionResult (evalAssertion (some resp) (some as)) = some pieces ∧
        events pieces = [.mark (evalAssertion (some resp) (some as)).passed] := by
  have htype : (evalAssertion (some resp) (some as)).type = as.type := by
    unfold evalAssertion
    dsimp only
    repeat' split
    all_goals rfl
  unfold printAssertionResult
  rw [htype]
  cases htype : as.type with
  | statusEq => exact printStatus_events h htype resp
  | bodyContains => exact printBodyContains_events h htype resp
  | headerContains => exact printHeaderContains_events h htype resp

/-- Pieces for every element of a list, and what they tell. -/
theorem mapM_events {α : Type} {f : α → Option (List Piece)} {g : α → List Event} {l : List α}
    (h : ∀ a ∈ l, ∃ pieces, f a = some pieces ∧ events pieces = g a)
    : ∃ parts, l.mapM f = some parts ∧ events parts.flatten = l.flatMap g := by
  induction l with
  | nil => exact ⟨[], rfl, rfl⟩
  | cons a l ih =>
    rw [List.forall_mem_cons] at h
    obtain ⟨pieces, hpieces, hevents⟩ := h.1
    obtain ⟨parts, hparts, hrest⟩ := ih h.2
    refine ⟨pieces :: parts, ?_, ?_⟩
    . rw [List.mapM_cons, hpieces, hparts]
      rfl
    . rw [List.flatten_cons, events_append, hevents, hrest, List.flatMap_cons]

end Events

def passes (resp : Response) (as : Assertion) : Bool := (evalAssertion (some resp) (some as)).passed

/-- What is to be told of a case: its response, the verdict on each assertion, and their sum. -/
def caseEvents (requestCase : RequestCase) (response : Option Response) : List Event :=
  match response with
  | none => [.failedRequest]
  | some resp =>
    if requestCase.assertions = [] then [.response]
    else
      [.response] ++ requestCase.assertions.map (fun as => .mark (passes resp as)) ++
        [.verdict (requestCase.assertions.all (passes resp))]

def planEvents (plan : RunPlan) (responses : Nat → Option Response) : List Event :=
  (plan.cases.mapIdx fun i requestCase => caseEvents requestCase (responses i)).flatten

structure RequestCase.Printable (requestCase : RequestCase) : Prop where
  assertions : ∀ as ∈ requestCase.assertions, as.Printable
  count : requestCase.assertions.length ≤ maxCaseAssertions

section Cases

variable {requestCase : RequestCase} {caseResult : RequestCaseResult} {resp : Response}

theorem evalAssertions_append (resp : Response) {assertions : List Assertion} {results : List AssertionResult}
    (hroom : results.length + assertions.length ≤ maxCaseAssertions) (ok : Bool)
    : evalAssertions resp assertions results ok =
        (results ++ assertions.map (fun as => evalAssertion (some resp) (some as)),
          ok && assertions.all (passes resp)) := by
  induction assertions generalizing results ok with
  | nil => simp [evalAssertions]
  | cons as assertions ih =>
    rw [List.length_cons] at hroom
    unfold evalAssertions
    rw [if_neg (by omega)]
    dsimp only
    rw [ih (by rw [List.length_append, List.length_singleton]; omega)]
    simp [passes, Bool.and_assoc]

theorem evalAssertions_eq (h : requestCase.Printable) (resp : Response)
    : evalAssertions resp requestCase.assertions [] true =
        (requestCase.assertions.map (fun as => evalAssertion (some resp) (some as)),
          requestCase.assertions.all (passes resp)) := by
  rw [evalAssertions_append resp (by simpa using h.count)]
  simp

theorem printCaseResult_events (h : requestCase.Printable) (hcase : caseResult.Evaluated requestCase) (i : Nat)
    : ∃ pieces, printCaseResult i caseResult = some pieces ∧
        events pieces = caseEvents requestCase caseResult.response := by
  unfold printCaseResult
  cases hresp : caseResult.response with
  | none =>
    refine ⟨_, rfl, ?_⟩
    simp [events, Piece.event, caseEvents, List.filterMap_cons]
  | some resp =>
    obtain ⟨hreadable, heval⟩ := hcase resp hresp
    rw [evalAssertions_eq h, Prod.mk.injEq] at heval
    obtain ⟨summary, hsummary, hsummary'⟩ := printResponseSummary_events hreadable
    obtain ⟨marks, hmarks, hmarks'⟩ := @mapM_events _ printAssertionResult (fun res => [.mark res.passed])
      caseResult.assertionResults (by
        rw [heval.1]
        intro res hres
        obtain ⟨as, has, rfl⟩ := List.mem_map.mp hres
        exact printAssertionResult_events (h.assertions as has) resp)
    dsimp only
    rw [hsummary, Option.bind_eq_bind, Option.bind_some]
    unfold caseEvents
    dsimp only
    by_cases hnil : requestCase.assertions = []
    . rw [if_neg (by simp [heval.1, hnil]), if_pos hnil]
      exact ⟨_, rfl, hsummary'⟩
    . have hpos := List.length_pos_of_ne_nil hnil
      rw [if_pos (by rw [heval.1, List.length_map]; exact hpos), hmarks, if_neg hnil]
      refine ⟨_, rfl, ?_⟩
      rw [events_append, events_append, events_append, hsummary', hmarks', heval.1, heval.2,
        List.flatMap_map, ← List.map_eq_flatMap]
      have htitle : events [.text "\nAssertions:\n"] = [] := by
        simp [events, Piece.event]
      have hverdict (ok : Bool) : events [.text "\nAssertion Result: ",
          .text (if ok then "PASS" else "FAIL"), .text "\n"] = [.verdict ok] := by
        cases ok <;> simp [events, Piece.event]
      rw [htitle, hverdict, List.append_nil]
      rfl

theorem printRunResult_events {plan : RunPlan} {result : RunResult}
    (hplan : ∀ requestCase ∈ plan.cases, requestCase.Printable)
    (hcount : result.caseResultCount = plan.cases.length)
    (hcases : ∀ i requestCase, plan.cases[i]? = some requestCase →
      (result.caseResults i).Evaluated requestCase)
    : ∃ report, printRunResult result = some report ∧
        events report = planEvents plan (fun i => (result.caseResults i).response) := by
  have hparts := @mapM_events _ (fun i => printCaseResult i (result.caseResults i))
    (fun i => (plan.cases[i]?.map fun requestCase =>
      caseEvents requestCase (result.caseResults i).response).getD []) (List.range plan.cases.length) (by
    intro i hi
    have hcase := List.getElem?_eq_getElem (List.mem_range.mp hi)
    rw [hcase]
    exact printCaseResult_events (hplan _ (List.mem_of_getElem? hcase)) (hcases i _ hcase) i)
  obtain ⟨parts, hparts, hevents⟩ := hparts
  unfold printRunResult
  rw [hcount, hparts]
  refine ⟨_, rfl, ?_⟩
  rw [hevents, List.flatMap_def]
  unfold planEvents
  congr 1
  apply List.ext_getElem
  . simp
  . intro i hi hi'
    rw [List.length_map, List.length_range] at hi
    simp [hi]

end Cases

section Verdict

variable {plan : RunPlan} {responses : Nat → Option Response}

theorem mem_planEvents {event : Event}
    : event ∈ planEvents plan responses ↔
        ∃ i requestCase, plan.cases[i]? = some requestCase ∧ event ∈ caseEvents requestCase (responses i) := by
  unfold planEvents
  simp only [List.mem_flatten, List.mem_mapIdx, List.getElem?_eq_some_iff]
  grind

theorem caseEvents_ne_nil (requestCase : RequestCase) (response : Option Response)
    : caseEvents requestCase response ≠ [] := by
  unfold caseEvents
  split
  . simp
  . split <;> simp

/-- A case is fine where nothing of what is told of it is a failure. -/
theorem fine_iff {requestCase : RequestCase} (h : requestCase.Printable) {caseResult : RequestCaseResult}
    (hcase : caseResult.Evaluated requestCase)
    : caseResult.Fine ↔ Event.failedRequest ∉ caseEvents requestCase caseResult.response ∧
        Event.verdict false ∉ caseEvents requestCase caseResult.response := by
  unfold RequestCaseResult.Fine caseEvents
  cases hresp : caseResult.response with
  | none => simp
  | some resp =>
    obtain ⟨_, heval⟩ := hcase resp hresp
    rw [evalAssertions_eq h, Prod.mk.injEq] at heval
    dsimp only
    rw [heval.2]
    split
    . next hnil => simp [hnil]
    . cases requestCase.assertions.all (passes resp) <;> simp

/--
The output of a run that returned is nothing, or the whole of its plan. The exit code is that of a success
just if something is printed, and nothing that is printed is a failure.
-/
theorem printRunResult_of_returned {conn : Conn} {acts : List Engine.Action}
    (hreturned : ((Engine.start conn).exec plan acts).client.pc = .returned)
    (hplan : ∀ requestCase ∈ plan.cases, requestCase.Printable)
    : let client := ((Engine.start conn).exec plan acts).client
      ∃ report, printRunResult client.result = some report ∧
        (report = [] ∨ events report = planEvents plan (fun i => (client.result.caseResults i).response)) ∧
        (plan.cases ≠ [] →
          (client.exitCode = 0 ↔
            report ≠ [] ∧ .failedRequest ∉ events report ∧ .verdict false ∉ events report)) := by
  dsimp only
  generalize hclient : ((Engine.start conn).exec plan acts).client = client
  have hsummed : client.Summed plan := hclient ▸ Engine.summed_of_returned hreturned
  cases hsummed with
  | early hcount hexit =>
    refine ⟨[], ?_, .inl rfl, fun _ => iff_of_false hexit (by simp)⟩
    unfold printRunResult
    rw [hcount]
    rfl
  | all hcount hexit hevaluated =>
    obtain ⟨report, hreport, hevents⟩ := printRunResult_events hplan hcount hevaluated
    refine ⟨report, hreport, .inr hevents, ?_⟩
    intro hne
    have hnonempty : report ≠ [] := by
      obtain ⟨requestCase, cases, hcases⟩ := List.exists_cons_of_ne_nil hne
      intro hnil
      have hfirst := caseEvents_ne_nil requestCase (client.result.caseResults 0).response
      rw [hnil] at hevents
      unfold planEvents at hevents
      rw [hcases, List.mapIdx_cons, List.flatten_cons] at hevents
      exact hfirst (List.append_eq_nil_iff.mp hevents.symm).1
    rw [hexit hne, hevents, mem_planEvents, mem_planEvents]
    constructor
    . intro hfine
      refine ⟨hnonempty, ?_, ?_⟩
      . rintro ⟨i, requestCase, hcase, hmem⟩
        have hlt := (List.getElem?_eq_some_iff.mp hcase).1
        have hprintable := hplan _ (List.mem_of_getElem? hcase)
        exact ((fine_iff hprintable (hevaluated i _ hcase)).mp (hfine i hlt)).1 hmem
      . rintro ⟨i, requestCase, hcase, hmem⟩
        have hlt := (List.getElem?_eq_some_iff.mp hcase).1
        have hprintable := hplan _ (List.mem_of_getElem? hcase)
        exact ((fine_iff hprintable (hevaluated i _ hcase)).mp (hfine i hlt)).2 hmem
    . rintro ⟨_, hrequest, hverdict⟩ i hlt
      have hcase := List.getElem?_eq_getElem hlt
      apply (fine_iff (hplan _ (List.mem_of_getElem? hcase)) (hevaluated i _ hcase)).mpr
      exact ⟨fun hmem => hrequest ⟨i, _, hcase, hmem⟩, fun hmem => hverdict ⟨i, _, hcase, hmem⟩⟩

end Verdict

section Main

open Grammar

variable {env : ProcessEnv}

theorem printable_of_ok {source : Bytes} {error error' : Option DslParseError} {plan : RunPlan}
    (h : dslParseRunPlan source error = some (.ok, plan, error'))
    : ∀ requestCase ∈ plan.cases, requestCase.Printable := by
  obtain ⟨stmts, _, hfits, rfl⟩ := program_of_ok h
  intro requestCase hmem
  obtain ⟨sec, hsec, rfl⟩ := List.mem_map.mp hmem
  have hassertions : (caseOfSection sec).assertions = (expects sec.2).map Expect.assertion := rfl
  constructor
  . rw [hassertions]
    intro as has
    obtain ⟨e, _, rfl⟩ := List.mem_map.mp has
    cases e with
    | status digits => trivial
    | bodyContains text =>
      intro bytes hbytes
      rw [← Option.some.inj hbytes]
    | header name value => trivial
  . rw [hassertions, List.length_map]
    exact hfits.assertions sec hsec

theorem CliOption.printable (opt : CliOption) : opt.assertion.Printable := by
  cases opt with
  | expectStatus value => trivial
  | expectBody value =>
    unfold CliOption.assertion
    dsimp only
    split
    . intro bytes hbytes
      rw [Option.mem_def.mp hbytes]
      exact Nat.le_refl _
    . intro bytes hbytes
      rw [← Option.some.inj hbytes]
      exact (List.takeWhile_sublist _).length_le
  | expectHeader name value => trivial

theorem printable_copyAssertion {as : Assertion} (h : as.Printable) (allocs : List Bool)
    : (copyAssertion as allocs).1.Printable := by
  unfold copyAssertion
  split
  . next data len htype hexpected =>
    unfold Assertion.Printable at h ⊢
    rw [htype, hexpected] at h
    rw [htype]
    intro bytes hbytes
    split at hbytes
    . have hlen := h data rfl
      rw [← Option.some.inj hbytes, List.length_take]
      omega
    . cases hbytes
  . next expected htype hexpected =>
    unfold Assertion.Printable
    rw [htype]
    trivial
  . exact h

theorem printable_copyAssertions {assertions : List Assertion} (h : ∀ as ∈ assertions, as.Printable)
    (allocs : List Bool)
    : (∀ as ∈ copyAssertions assertions allocs, as.Printable) ∧
        (copyAssertions assertions allocs).length = assertions.length := by
  induction assertions generalizing allocs with
  | nil => exact ⟨by simp [copyAssertions], rfl⟩
  | cons as assertions ih =>
    rw [List.forall_mem_cons] at h
    obtain ⟨hrest, hlength⟩ := ih h.2 (copyAssertion as allocs).2
    unfold copyAssertions
    dsimp only
    rw [List.forall_mem_cons, List.length_cons, hlength]
    exact ⟨⟨printable_copyAssertion h.1 allocs, hrest⟩, rfl⟩

theorem printable_cliOptionsToRunPlan {options : CliOptions} {allocs : List Bool} {plan : RunPlan}
    (h : cliOptionsToRunPlan options allocs = some plan) (hoptions : ∀ as ∈ options.assertions, as.Printable)
    : ∀ requestCase ∈ plan.cases, requestCase.Printable := by
  unfold cliOptionsToRunPlan at h
  split at h
  . cases h
  . split at h
    . cases h
    . dsimp only at h
      split at h
      . cases h
      . split at h
        . cases h
        . split at h
          . cases h
          . next hcount =>
            rw [Option.some.injEq] at h
            rw [← h]
            intro requestCase hmem
            rw [List.mem_singleton] at hmem
            rw [hmem]
            obtain ⟨hprintable, hlength⟩ := printable_copyAssertions hoptions
              (dupString (some _) (dupString (some (ascii "DEFAULT")) (dupString (some (ascii "runner.db"))
                allocs).2).2).2
            exact ⟨hprintable, by rw [hlength]; omega⟩

theorem returned_of_runPlan {plan : RunPlan} {out : Outcome} {run : PlanRun} (h : runPlan plan env = some out)
    (hrun : out.run = some run)
    : run.plan = plan ∧ out.exitCode = run.sys.client.exitCode ∧
        ∃ conn, run.sys = (Engine.start conn).exec plan env.acts ∧ run.sys.client.pc = .returned := by
  unfold runPlan at h
  dsimp only at h
  split at h
  . next hreturned =>
    rw [Option.some.injEq] at h
    rw [← h] at hrun ⊢
    rw [← Option.some.inj hrun]
    exact ⟨rfl, rfl, _, rfl, hreturned⟩
  . cases h

theorem printable_of_file {path : Bytes} {plan : RunPlan} (h : dslParseRunPlanFile path env = some (0, plan))
    : ∀ requestCase ∈ plan.cases, requestCase.Printable := by
  unfold dslParseRunPlanFile at h
  split at h
  . rw [Option.some.injEq, Prod.mk.injEq] at h
    cases h.1
  . rw [Option.map_eq_some_iff] at h
    obtain ⟨⟨result, plan', error⟩, hres, heq⟩ := h
    cases result with
    | error =>
      rw [Prod.mk.injEq] at heq
      cases heq.1
    | ok =>
      rw [Prod.mk.injEq] at heq
      rw [← heq.2]
      exact printable_of_ok hres

/-- What a run of the program executes is a plan that can be printed. -/
theorem printable_of_main {argv : List Bytes} {out : Outcome} {run : PlanRun} (h : main argv env = some out)
    (hrun : out.run = some run)
    : (∀ requestCase ∈ run.plan.cases, requestCase.Printable) ∧ runPlan run.plan env = some out := by
  have hnone {exitCode : Int} (h : some { exitCode := exitCode, run := none } = some out) : False := by
    rw [← Option.some.inj h] at hrun
    cases hrun
  have hplan {plan : RunPlan} (hplan : ∀ requestCase ∈ plan.cases, requestCase.Printable)
      (h : runPlan plan env = some out)
      : (∀ requestCase ∈ run.plan.cases, requestCase.Printable) ∧ runPlan run.plan env = some out := by
    rw [(returned_of_runPlan h hrun).1]
    exact ⟨hplan, h⟩
  unfold main at h
  dsimp only at h
  split at h
  . exact (hnone h).elim
  . next hlength =>
    split at h
    . exact (hnone h).elim
    . next haccepted =>
      have hzero := (parseCliOptions_cases argv .zero env.parserAllocs).resolve_right haccepted
      obtain ⟨opts, _, hoptions⟩ := parseCliOptions_ok (by omega) hzero
      unfold runCommand at h
      split at h
      . exact (hnone h).elim
      . split at h
        . unfold runGetCommand at h
          split at h
          . exact (hnone h).elim
          . next plan hget =>
            apply hplan (printable_cliOptionsToRunPlan hget _) h
            rw [hoptions]
            intro as has
            obtain ⟨opt, _, rfl⟩ := List.mem_map.mp has
            exact opt.printable
        . split at h
          . exact (hnone h).elim
          . split at h
            . unfold runRunCommand at h
              split at h
              . cases h
              . next exitCode plan hfile =>
                split at h
                . exact (hnone h).elim
                . next hok =>
                  rw [not_not] at hok
                  rw [hok] at hfile
                  exact hplan (printable_of_file hfile) h
            . exact (hnone h).elim

-- One request is answered with a status that is not the expected one.
def wrongStatus : ProcessEnv :=
  { serverError with file := fun _ => some (ascii "POST u\nBODY b\nEXPECT status 200\n") }

example
    : ((main [ascii "httprt", ascii "run", ascii "f"] wrongStatus).bind Outcome.run).bind
        (fun run => (printRunResult run.sys.client.result).map events) =
      some [.response, .mark false, .verdict false] := by
  decide +kernel

end Main

end HttpRuntime
