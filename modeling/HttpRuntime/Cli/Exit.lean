import HttpRuntime.Cli.Commands
import HttpRuntime.Cli.Options
import HttpRuntime.Core.Engine.Invariant

/-!
This module contains what the exit code 0 of the program says about the expectations on its command
line.
-/

open Lib

namespace HttpRuntime

section BodylessRun

namespace Engine

variable {plan : RunPlan} {sys : Engine}

def beforeDispatch (pc : ClientPc) : Bool :=
  match pc with
  | .createRequest i => i = 0
  | .dispatch _ _ => false
  | .wait _ _ => false
  | _ => true

-- No request was dispatched, and the exit code is still that of a failure.
def Undispatched (sys : Engine) : Prop :=
  beforeDispatch sys.client.pc = true ∧ sys.client.exitCode = 1

theorem body_createCaseRequest {requestCase : RequestCase} {collId : Int} {alloc : Bool}
    {req : Request} (h : createCaseRequest requestCase collId alloc = some req)
    (hurl : (requestCase.url.map strlen).getD 0 > 0) (hbody : requestCase.body = none)
    : req.url ≠ none ∧ req.body = none := by
  unfold createCaseRequest createRequest at h
  cases alloc with
  | false => cases h
  | true =>
    simp only [Bool.not_true, Bool.false_eq_true, if_false] at h
    split at h
    . cases h
    . next hne =>
      split at h
      . cases h
      . split at h
        . cases h
        . rw [Option.some.injEq] at h
          rw [← h]
          refine ⟨fun hnone => hne ⟨hurl, hnone⟩, ?_⟩
          dsimp only
          rw [hbody]
          unfold safeCopyBlob
          split <;> rfl

variable (hfirst : ∃ requestCase, plan.cases[0]? = some requestCase ∧
  (requestCase.url.map strlen).getD 0 > 0 ∧ requestCase.body = none)

include hfirst

theorem Undispatched.clientStep (h : sys.Undispatched) (env : ClientEnv)
    : (sys.clientStep plan env).Undispatched := by
  unfold Engine.clientStep
  dsimp only
  cases hpc : sys.client.pc with
  | init =>
    dsimp only
    split
    . exact ⟨rfl, h.2⟩
    . split <;> exact ⟨rfl, h.2⟩
  | saveCollection =>
    dsimp only
    split
    . exact ⟨rfl, h.2⟩
    . split <;> exact ⟨rfl, h.2⟩
  | createRuntime =>
    dsimp only
    split <;> exact ⟨rfl, h.2⟩
  | createRequest i =>
    have hzero := h.1
    rw [hpc] at hzero
    have hi : i = 0 := of_decide_eq_true hzero
    rcases hfirst with ⟨requestCase, hcase, hurl, hbody⟩
    dsimp only
    rw [hi, hcase]
    dsimp only
    split
    . exact ⟨rfl, h.2⟩
    . next req hreq =>
      have ⟨hurl', hbody'⟩ := body_createCaseRequest hreq hurl hbody
      rw [dbSaveRequest_of_body_eq_none hurl' hbody']
      exact ⟨rfl, h.2⟩
  | dispatch i req =>
    have hfalse := h.1
    rw [hpc] at hfalse
    cases hfalse
  | wait i elapsed =>
    have hfalse := h.1
    rw [hpc] at hfalse
    cases hfalse
  | cleanup =>
    dsimp only
    split <;> exact ⟨rfl, h.2⟩
  | destroy phase =>
    dsimp only
    split
    . exact ⟨rfl, h.2⟩
    . exact ⟨rfl, h.2⟩
    . exact h
  | returned => exact h

theorem Undispatched.step (h : sys.Undispatched) (act : Action)
    : (sys.step plan act).Undispatched := by
  cases act with
  | client env => exact h.clientStep hfirst env
  | runtime act =>
    unfold Engine.step
    dsimp only
    split <;> exact h

theorem Undispatched.exec (h : sys.Undispatched) (acts : List Action)
    : (sys.exec plan acts).Undispatched := by
  induction acts generalizing sys with
  | nil => exact h
  | cons act acts ih => exact ih (h.step hfirst act)

theorem exitCode_of_bodyless (conn : Conn) (acts : List Action)
    : ((start conn).exec plan acts).client.exitCode = 1 :=
  have hstart : (start conn).Undispatched := ⟨rfl, rfl⟩
  (hstart.exec hfirst acts).2

end Engine

theorem strlen_cstring (s : Bytes) : strlen (cstring s) = strlen s := by
  unfold strlen cstring
  rw [List.takeWhile_idem]

theorem first_cliOptionsToRunPlan {options : CliOptions} {allocs : List Bool} {plan : RunPlan}
    (h : cliOptionsToRunPlan options allocs = some plan)
    : ∃ requestCase, plan.cases[0]? = some requestCase ∧
        (requestCase.url.map strlen).getD 0 > 0 ∧ requestCase.body = none := by
  unfold cliOptionsToRunPlan at h
  split at h
  . cases h
  . next url hurl =>
    split at h
    . cases h
    . next hlength =>
      dsimp only at h
      split at h
      . cases h
      . split at h
        . cases h
        . next hcopy =>
          split at h
          . cases h
          . rw [Option.some.injEq] at h
            rw [← h]
            refine ⟨_, rfl, ?_, rfl⟩
            have hurl' : (dupString (some url) (dupString (some (ascii "DEFAULT"))
                (dupString (some (ascii "runner.db")) allocs).2).2).1 = some (cstring url) := by
              unfold dupString at hcopy ⊢
              dsimp only at hcopy ⊢
              split at hcopy
              . next halloc => rw [if_pos halloc]
              . exact absurd rfl hcopy
            dsimp only
            rw [hurl', Option.map_some, Option.getD_some, strlen_cstring]
            omega

/-- `get` sends no body, and what has no body is not saved. -/
theorem runGetCommand_fails (options : CliOptions) (env : ProcessEnv) {out : Outcome}
    (h : runGetCommand options env = some out) : out.exitCode = 1 := by
  unfold runGetCommand at h
  split at h
  . rw [Option.some.injEq] at h
    rw [← h]
  . next plan hplan =>
    unfold runPlan at h
    dsimp only at h
    split at h
    . rw [Option.some.injEq] at h
      rw [← h]
      exact Engine.exitCode_of_bodyless (first_cliOptionsToRunPlan hplan) _ _
    . cases h

end BodylessRun

section Exit

/-- The assertion was evaluated on a response that this run stored, and passed. -/
def PlanRun.Passed (run : PlanRun) (as : Assertion) : Prop :=
  ∃ i < run.plan.cases.length, ∃ resp,
    (run.sys.client.result.caseResults i).response = some resp ∧
    (∃ entry ∈ run.sys.saved, ∃ row ∈ run.sys.conn.db.responses.rows,
      Runtime.Records entry row ∧ resp = decodeResponse row) ∧
    evalAssertion (some resp) (some as) ∈ (run.sys.client.result.caseResults i).assertionResults ∧
    (evalAssertion (some resp) (some as)).passed = true

/-- If the program reports success, then `run_plan` did, and every expectation passed. -/
def ReportsChecked (argv : List Bytes) (env : ProcessEnv) : Prop :=
  ∀ out, main argv env = some out → out.exitCode = 0 →
    ∃ run, out.run = some run ∧ run.sys.client.pc = .returned ∧ run.sys.client.exitCode = 0 ∧
      ∀ as ∈ (parseCliOptions argv .zero env.parserAllocs).2.assertions, run.Passed as

/-- The arguments are accepted, and the command looks at none of the options. -/
def Overlooks (argv : List Bytes) : Prop :=
  (∃ opts, OptionList (argv.drop 3) .zero opts) ∧ 3 ≤ argv.length ∧
    (argv[1]? = some (ascii "post") ∨ argv[1]? = some (ascii "run") ∧ 3 < argv.length)

variable {argv : List Bytes} {env : ProcessEnv}

theorem parseCliOptions_accepts (hlength : 3 ≤ argv.length)
    (h : (parseCliOptions argv .zero env.parserAllocs).1 = 0)
    : ∃ opts, OptionList (argv.drop 3) .zero opts ∧
        let options := (parseCliOptions argv .zero env.parserAllocs).2
        options.command = argv[1]? ∧ options.assertions.length = opts.length := by
  obtain ⟨opts, hopts, hoptions⟩ := parseCliOptions_ok hlength h
  rw [hoptions]
  exact ⟨opts, hopts, rfl, List.length_map _⟩

theorem main_of_accepted (hlength : 3 ≤ argv.length)
    (h : (parseCliOptions argv .zero env.parserAllocs).1 = 0)
    : main argv env = runCommand (parseCliOptions argv .zero env.parserAllocs).2 env := by
  have hlength' : ¬ argv.length < 3 := by omega
  unfold main
  rw [if_neg hlength']
  dsimp only
  rw [h, if_neg (by decide)]

theorem runCommand_post {options : CliOptions} (h : options.command = some (ascii "post"))
    : runCommand options env = some { exitCode := 0, run := none } := by
  unfold runCommand
  rw [h]
  dsimp only
  rw [if_neg (by decide), if_pos rfl]

theorem runCommand_run {options : CliOptions} (h : options.command = some (ascii "run"))
    : runCommand options env = runRunCommand options env := by
  unfold runCommand
  rw [h]
  dsimp only
  rw [if_neg (by decide), if_neg (by decide), if_pos rfl]

theorem runCommand_eq_zero {options : CliOptions} {out : Outcome}
    (h : runCommand options env = some out) (hzero : out.exitCode = 0)
    (hpost : options.command ≠ some (ascii "post"))
    : options.command = some (ascii "run") ∧
        ∃ run, out.run = some run ∧ run.sys.client.pc = .returned ∧ run.sys.client.exitCode = 0 := by
  unfold runCommand at h
  split at h
  . rw [Option.some.injEq] at h
    rw [← h] at hzero
    cases hzero
  . next command hcommand =>
    split at h
    . rw [runGetCommand_fails options env h] at hzero
      cases hzero
    . split at h
      . next hword =>
        rw [hcommand, hword] at hpost
        exact absurd rfl hpost
      . split at h
        . next hword =>
          refine ⟨by rw [hcommand, hword], ?_⟩
          unfold runRunCommand at h
          split at h
          . cases h
          . split at h
            . next hfailed =>
              rw [Option.some.injEq] at h
              rw [← h] at hzero
              exact absurd hzero hfailed
            . unfold runPlan at h
              dsimp only at h
              split at h
              . next hreturned =>
                rw [Option.some.injEq] at h
                rw [← h] at hzero ⊢
                exact ⟨_, rfl, hreturned, hzero⟩
              . cases h
        . rw [Option.some.injEq] at h
          rw [← h] at hzero
          cases hzero

theorem reportsChecked_of_not_overlooks (h : ¬ Overlooks argv) (env : ProcessEnv)
    : ReportsChecked argv env := by
  intro out hout hzero
  by_cases hlength : 3 ≤ argv.length
  . by_cases haccepted : (parseCliOptions argv .zero env.parserAllocs).1 = 0
    . rcases parseCliOptions_accepts hlength haccepted with ⟨opts, hopts, hcommand, hassertions⟩
      have hpost : (parseCliOptions argv .zero env.parserAllocs).2.command ≠ some (ascii "post") := by
        intro hpost
        exact h ⟨⟨opts, hopts⟩, hlength, Or.inl (hcommand ▸ hpost)⟩
      rw [main_of_accepted hlength haccepted] at hout
      have ⟨hrun, run, hsome, hreturned, hexit⟩ := runCommand_eq_zero hout hzero hpost
      refine ⟨run, hsome, hreturned, hexit, ?_⟩
      -- without arguments after the path there are no options
      have hshort : argv.length = 3 := by
        by_contra hne
        exact h ⟨⟨opts, hopts⟩, hlength, Or.inr ⟨hcommand ▸ hrun, by omega⟩⟩
      have hnil : opts = [] := by
        have hargs := hopts.args
        rw [List.drop_eq_nil_of_le (by omega)] at hargs
        cases opts with
        | nil => rfl
        | cons opt opts => cases opt <;> cases hargs
      rw [hnil, List.length_nil, List.length_eq_zero_iff] at hassertions
      rw [hassertions]
      simp
    . have hrejected := (parseCliOptions_cases argv .zero env.parserAllocs).resolve_left haccepted
      unfold main at hout
      dsimp only at hout
      rw [if_neg (by omega), hrejected, if_pos rfl, Option.some.injEq] at hout
      rw [← hout] at hzero
      cases hzero
  . unfold main at hout
    rw [if_pos (by omega), Option.some.injEq] at hout
    rw [← hout] at hzero
    cases hzero

theorem runPlan_of_returned {plan : RunPlan} {sys : Engine}
    (hsys : (Engine.start (.open (env.db (plan.dbPath.getD defaultDbPath)))).exec plan env.acts = sys)
    (hreturned : sys.client.pc = .returned)
    : runPlan plan env = some { exitCode := sys.client.exitCode, run := some ⟨plan, sys⟩ } := by
  unfold runPlan
  dsimp only
  rw [hsys, if_pos hreturned]

-- The runtime of a plan from a file has four workers.
def shutDownAll : List Engine.Action :=
  let idle := TransferEnv.ok [] 200
  (List.replicate 12 [.runtime (.worker 0 idle true), .runtime (.worker 1 idle true),
    .runtime (.worker 2 idle true), .runtime (.worker 3 idle true), .runtime (.dispatcher true),
    .runtime (.dbWorker []), .client {}]).flatten

-- A file without a request, and a run of its plan.
def emptyFile : ProcessEnv where
  file := fun _ => some []
  db := fun _ => .empty
  acts := clientSteps 6 ++ shutDownAll

theorem runRunCommand_emptyFile (options : CliOptions)
    : ∃ run, runRunCommand options emptyFile = some { exitCode := 0, run := some run } ∧
        run.plan.cases = [] := by
  let conn := Conn.open (emptyFile.db (initRunPlan.dbPath.getD defaultDbPath))
  let sys := (Engine.start conn).exec initRunPlan emptyFile.acts
  have hparse : dslParseRunPlan [] (some .zero) = some (.ok, initRunPlan, some .zero) := by
    decide +kernel
  have hfile (path : Bytes) : dslParseRunPlanFile path emptyFile = some (dslParseOk, initRunPlan) := by
    simp only [dslParseRunPlanFile, emptyFile, hparse, Option.map_some]
  have hreturned : sys.client.pc = .returned := by decide +kernel
  have hexit : sys.client.exitCode = 0 := by decide +kernel
  have hrun := @runPlan_of_returned emptyFile initRunPlan sys rfl hreturned
  refine ⟨⟨initRunPlan, sys⟩, ?_, rfl⟩
  unfold runRunCommand
  rw [hfile]
  dsimp only
  rw [if_neg (by decide), hrun, hexit]

/--
The exit code 0 stands for checked expectations with every file, database and run, unless the command
is one that overlooks the options.
-/
theorem main_reportsChecked_iff (argv : List Bytes)
    : (∀ env, ReportsChecked argv env) ↔ ¬ Overlooks argv := by
  constructor
  . rintro h ⟨⟨opts, hopts⟩, hlength, hcommand⟩
    have haccepted : (parseCliOptions argv .zero []).1 = 0 :=
      congrArg Prod.fst (parseCliOptions_of_optionList hlength hopts)
    rcases @parseCliOptions_accepts argv emptyFile hlength haccepted with
      ⟨opts', hopts', hword, hassertions⟩
    have hmain := @main_of_accepted argv emptyFile hlength haccepted
    rcases hcommand with hpost | ⟨hrun, hargs⟩
    . rw [runCommand_post (hword.trans hpost)] at hmain
      rcases h emptyFile _ hmain rfl with ⟨run, hsome, _⟩
      cases hsome
    . rw [runCommand_run (hword.trans hrun)] at hmain
      rcases runRunCommand_emptyFile (parseCliOptions argv .zero emptyFile.parserAllocs).2 with
        ⟨run, hrunCommand, hcases⟩
      rw [hrunCommand] at hmain
      rcases h emptyFile _ hmain rfl with ⟨run', hsome, _, _, hpassed⟩
      rw [Option.some.injEq] at hsome
      rw [← hsome] at hpassed
      -- there is an option, and no case that could have checked it
      have hne : 0 < opts'.length := by
        apply List.length_pos_of_ne_nil
        intro hnil
        have hdrop := hopts'.args
        rw [hnil, List.flatMap_nil, List.drop_eq_nil_iff] at hdrop
        omega
      rw [← hassertions] at hne
      rcases hpassed _ (List.getElem_mem hne) with ⟨i, hi, _⟩
      rw [hcases] at hi
      cases hi
  . exact fun h env => reportsChecked_of_not_overlooks h env

-- A file with one request, which is answered with status 500.
def serverError : ProcessEnv where
  file := fun _ => some (ascii "POST u\nBODY b\n")
  db := fun _ => .empty
  acts := clientSteps 6 ++ processTask (.ok [] 500) ++ clientSteps 2 ++ shutDownAll

def postExpect200 : List Bytes :=
  [ascii "httprt", ascii "post", ascii "u", ascii "--expect-status", ascii "200"]

def runExpect200 : List Bytes :=
  [ascii "httprt", ascii "run", ascii "f", ascii "--expect-status", ascii "200"]

def expect200 : Assertion := ⟨.statusEq, .int 200⟩

-- The exit code, the number of cases and the status of the first one.
def summary (out : Outcome) : Int × Option (Nat × Option Int) :=
  (out.exitCode, out.run.map fun run =>
    (run.plan.cases.length, (run.sys.client.result.caseResults 0).response.map Response.statusCode))

/-- Status 200 is expected, and without a request or after a status 500 success is reported. -/
theorem main_not_reportsChecked
    : main postExpect200 serverError = some { exitCode := 0, run := none } ∧
        ¬ ReportsChecked postExpect200 serverError ∧
        (main runExpect200 serverError).map summary = some (0, some (1, some 500)) ∧
        ¬ ReportsChecked runExpect200 serverError := by
  have hpost : main postExpect200 serverError = some { exitCode := 0, run := none } := by
    rw [main_of_accepted (by decide) (by decide +kernel), runCommand_post (by decide +kernel)]
  have hrun : (main runExpect200 serverError).map summary = some (0, some (1, some 500)) := by
    decide +kernel
  refine ⟨hpost, ?_, hrun, ?_⟩
  . intro h
    rcases h _ hpost rfl with ⟨run, hsome, _⟩
    cases hsome
  . intro h
    rw [Option.map_eq_some_iff] at hrun
    rcases hrun with ⟨out, hmain, hsummary⟩
    unfold summary at hsummary
    rw [Prod.mk.injEq, Option.map_eq_some_iff] at hsummary
    rcases hsummary with ⟨hexit, run, hsome, hcase⟩
    rw [Prod.mk.injEq, Option.map_eq_some_iff] at hcase
    rcases hcase with ⟨hcases, resp, hresp, hstatus⟩
    rcases h out hmain hexit with ⟨run', hsome', _, _, hpassed⟩
    rw [hsome, Option.some.injEq] at hsome'
    rw [← hsome'] at hpassed
    have haccepted : expect200 ∈ (parseCliOptions runExpect200 .zero []).2.assertions := by
      decide +kernel
    rcases hpassed expect200 haccepted with ⟨i, hi, resp', hresp', _, _, hok⟩
    have hzero : i = 0 := by omega
    rw [hzero, hresp, Option.some.injEq] at hresp'
    have hfailed : (evalAssertion (some resp') (some expect200)).passed = (resp'.statusCode == 200) :=
      rfl
    rw [hfailed, ← hresp', hstatus] at hok
    cases hok

end Exit

end HttpRuntime
