import HttpRuntime.Core.Engine.Attribution
import HttpRuntime.Core.Engine.Reachable
import HttpRuntime.Core.Runtime.Flows

/-!
This module contains what the exit code of `run_plan` says about the responses it attached. The
result that a worker writes into a response is followed through the queues into the responses table
and from there to the poll. `run_plan` never reads it, so that a failed transfer is noticed only by
the assertions.
-/

open Lib Lib.Sql

namespace HttpRuntime

theorem evalAssertions_passed {resp : Response} {assertions : List Assertion}
    {results : List AssertionResult} {ok : Bool}
    (h : (evalAssertions resp assertions results ok).2 = true)
    : ok = true ∧ ∀ as ∈ assertions, (evalAssertion (some resp) (some as)).passed = true := by
  induction assertions generalizing results ok with
  | nil => exact ⟨h, by simp⟩
  | cons as assertions ih =>
    unfold evalAssertions at h
    split at h
    . cases h
    . have ⟨hok, hall⟩ := ih h
      rw [Bool.and_eq_true] at hok
      refine ⟨hok.1, ?_⟩
      intro as' has'
      cases List.mem_cons.mp has' with
      | inl heq =>
        rw [heq]
        exact hok.2
      | inr hmem => exact hall as' hmem

/-- The response tells of a transfer that succeeded, or it fails an assertion of the case. -/
def RequestCase.Notices (requestCase : RequestCase) (resp : Response) : Prop :=
  resp.result = .ok ∨
    ∃ as ∈ requestCase.assertions, (evalAssertion (some resp) (some as)).passed = false

instance (requestCase : RequestCase) (resp : Response) : Decidable (requestCase.Notices resp) :=
  inferInstanceAs (Decidable (_ ∨ _))

/--
The transfer succeeds, or its response, once it is stored and read back, fails an assertion of every
case that it may be taken for.
-/
def RunPlan.NoticesTransfer (plan : RunPlan) (env : TransferEnv) (req : Request) : Prop :=
  env.Succeeds req ∨
    ∀ requestCase ∈ plan.cases, requestCase.identity = req.boundIdentity →
      ∀ resp ∈ httpWorkerTask env (some req), ∃ as ∈ requestCase.assertions,
        (evalAssertion (some (decodeResponse (0, responseRow resp 0))) (some as)).passed = false

instance (plan : RunPlan) (env : TransferEnv) (req : Request) : Decidable (plan.NoticesTransfer env req) :=
  inferInstanceAs (Decidable (_ ∨ _))

/--
The same of what is stored before the run: the last response of a request that is one of the plan's.
-/
def RunPlan.NoticesEarlier (plan : RunPlan) (db : Database) : Prop :=
  ∀ coll ∈ db.collections.rows, coll.2.key = planCollectionKey plan →
    ∀ requestCase ∈ plan.cases, ∀ req ∈ db.requests.rows,
      req.2.key = .integer coll.1 :: requestCase.identity →
        ∀ row ∈ latestResponse db req.1, requestCase.Notices (decodeResponse row)

instance (plan : RunPlan) (db : Database) : Decidable (plan.NoticesEarlier db) :=
  inferInstanceAs (Decidable (∀ coll ∈ db.collections.rows, _))

-- The database keeps the result of a response.
theorem result_decodeResponse (resp : Response) (rowId createdAt : Nat)
    : (decodeResponse (rowId, responseRow resp createdAt)).result = resp.result := by
  unfold decodeResponse responseRow
  dsimp only
  cases resp.result <;> rfl

-- The verdict on a response depends neither on its id nor on its date.
theorem RequestCase.notices_withId (requestCase : RequestCase) (resp : Response) (id : Int)
    : requestCase.Notices { resp with id := id } ↔ requestCase.Notices resp := Iff.rfl

theorem RequestCase.notices_decodeResponse (requestCase : RequestCase) (resp : Response)
    (rowId createdAt : Nat)
    : requestCase.Notices (decodeResponse (rowId, responseRow resp createdAt)) ↔
        requestCase.Notices (decodeResponse (0, responseRow resp 0)) := by
  have hrow : decodeResponse (rowId, responseRow resp createdAt) =
      { decodeResponse (0, responseRow resp 0) with id := Lib.toInt rowId } := by
    unfold decodeResponse responseRow
    rfl
  rw [hrow, requestCase.notices_withId]

/-- The task of a case asks for the request of the case. -/
def IsCaseTask (plan : RunPlan) (task : Ticketed WorkerTask) : Prop :=
  ∃ requestCase, plan.cases[task.ticket]? = some requestCase ∧
    ∀ req ∈ task.item.data, req.boundIdentity = requestCase.identity

/-- Every case that the response may be taken for notices what the transfer came to. -/
def IsNoticed (plan : RunPlan) (resp : Ticketed Response) : Prop :=
  ∀ (i : Nat) (requestCase : RequestCase), plan.cases[i]? = some requestCase →
    (plan.cases[i]?).map RequestCase.identity = (plan.cases[resp.ticket]?).map RequestCase.identity →
      requestCase.Notices (decodeResponse (0, responseRow resp.item 0))

theorem RunPlan.NoticesTransfer.isNoticed {plan : RunPlan} {env : TransferEnv} {req : Request}
    (h : plan.NoticesTransfer env req) {task : Ticketed WorkerTask} (htask : IsCaseTask plan task)
    (hdata : task.item.data = some req) {resp : Response}
    (hresp : httpWorkerTask env (some req) = some resp) : IsNoticed plan ⟨task.ticket, resp⟩ := by
  rcases htask with ⟨own, hown, hidentity⟩
  intro i requestCase hcase hsame
  dsimp only at hsame ⊢
  rw [hcase, hown, Option.map_some, Option.map_some, Option.some.injEq, ← hidentity req hdata] at hsame
  cases h with
  | inl hsucceeds =>
    left
    rw [result_decodeResponse]
    exact (result_httpWorkerTask hresp).mpr hsucceeds
  | inr hfails => exact .inr (hfails requestCase (List.mem_of_getElem? hcase) hsame resp hresp)

namespace Engine

variable {plan : RunPlan} {db : Database} {sys : Engine}

section Pipeline

theorem flows_clientStep {P : Ticketed WorkerTask → Prop} {Q : Ticketed Response → Prop}
    (h : ∀ rt, sys.runtime = some rt → rt.Flows P Q)
    (hdispatching : ∀ i req, sys.client.pc = .dispatch i req → P ⟨i, ⟨some req⟩⟩) (env : ClientEnv)
    : ∀ rt, (sys.clientStep plan env).runtime = some rt → rt.Flows P Q := by
  unfold Engine.clientStep
  dsimp only
  cases hpc : sys.client.pc with
  | init =>
    dsimp only
    split
    . exact h
    . split <;> exact h
  | saveCollection =>
    dsimp only
    split
    . exact h
    . split <;> exact h
  | createRuntime =>
    dsimp only
    split
    . exact h
    . next rt hrt =>
      split at hrt
      . exact (Runtime.Flows.createRuntime hrt).of_some
      . cases hrt
  | createRequest i =>
    dsimp only
    split
    . exact h
    . split
      . exact h
      . split <;> exact h
  | dispatch i req =>
    dsimp only
    split
    . exact h
    . split
      . exact h
      . next rt hrt =>
        have hflows := (h rt hrt).dispatchTask (hdispatching i req hpc) env.node
        split <;> exact hflows.of_some
  | wait i elapsed =>
    dsimp only
    split
    . exact h
    . split
      . split <;> exact h
      . exact h
  | cleanup =>
    dsimp only
    split
    . next rt hrt => exact (h rt hrt).destroyStart.of_some
    . exact h
  | destroy phase =>
    dsimp only
    split
    . next rt hrt => exact (h rt hrt).of_some
    . next rt hrt _ => exact ((h rt hrt).destroyStep _).of_some
    . exact h
  | returned => exact h

-- Only `create_request` goes on to a dispatch.
theorem dispatch_of_clientStep (hcreate : ∀ i, sys.client.pc ≠ .createRequest i)
    {env : ClientEnv} {i : Nat} {req : Request}
    (h : (sys.clientStep plan env).client.pc = .dispatch i req) : sys.client.pc = .dispatch i req := by
  revert h
  unfold Engine.clientStep
  dsimp only
  cases hpc : sys.client.pc with
  | createRequest j => exact absurd hpc (hcreate j)
  | dispatch j req' =>
    dsimp only
    split
    . rw [hpc]
      exact id
    . split
      . simp [Client.failRequests]
      . split <;> simp [Client.goto, Client.failRequests]
  | returned =>
    dsimp only
    rw [hpc]
    exact id
  | destroy phase =>
    dsimp only
    split
    . simp
    . simp [Client.goto]
    . rw [hpc]
      exact id
  | _ =>
    dsimp only
    repeat' split
    all_goals simp [Client.goto]

theorem Inv.isCaseTask_createRequest (hinv : Inv plan db sys) (hlinked : db.Linked) (hfit : db.IdsFit)
    {i : Nat} (hpc : sys.client.pc = .createRequest i) {env : ClientEnv} {j : Nat} {req : Request}
    (h : (sys.clientStep plan env).client.pc = .dispatch j req) : IsCaseTask plan ⟨j, ⟨some req⟩⟩ := by
  revert h
  unfold Engine.clientStep
  dsimp only
  rw [hpc]
  dsimp only
  cases hcase : plan.cases[i]? with
  | none => simp [Client.goto]
  | some requestCase =>
    dsimp only
    split
    . simp [Client.failRequests]
    . next req' hreq =>
      by_cases hsavable : Savable req' env.calls
      . rcases hinv.createRequest hlinked hfit hpc hcase hreq hsavable with ⟨id, hres, _⟩
        rw [hres]
        dsimp only
        rw [if_neg (by decide)]
        intro h
        cases h
        refine ⟨requestCase, hcase, ?_⟩
        intro req hreq'
        cases hreq'
        exact (createCaseRequest_eq hreq).2
      . have hcoll := hinv.collectionOf (by rw [hpc]; rfl) hreq
        rw [dbSaveRequest_of_not_savable hcoll hsavable]
        dsimp only
        rw [if_pos rfl]
        simp [Client.failRequests]

/-- The transfer that this step performs, with the request that it is for. -/
def transferBy (sys : Engine) (act : Action) : Option (TransferEnv × Request) :=
  match act with
  | .runtime (.worker i env _) =>
    match sys.runtime.bind (fun rt => rt.workers[i]?) with
    | some (.executing task) => task.item.data.map (fun req => (env, req))
    | _ => none
  | _ => none

def transfers (plan : RunPlan) (sys : Engine) (acts : List Action) : List (TransferEnv × Request) :=
  match acts with
  | [] => []
  | act :: acts => (sys.transferBy act).toList ++ (sys.step plan act).transfers plan acts

theorem answers_of_noticesTransfer {rt : Runtime} (hrt : sys.runtime = some rt) {act : Runtime.Action}
    (h : ∀ transfer ∈ sys.transferBy (.runtime act), plan.NoticesTransfer transfer.1 transfer.2)
    : rt.Answers (IsCaseTask plan) (IsNoticed plan) act := by
  cases act with
  | worker i env alloc =>
    intro task hexecuting htask resp hresp
    cases hdata : task.item.data with
    | none =>
      rw [hdata] at hresp
      cases hresp
    | some req =>
      rw [hdata] at hresp
      have htransfer : sys.transferBy (.runtime (.worker i env alloc)) = some (env, req) := by
        unfold transferBy
        dsimp only
        rw [hrt, Option.bind_some, hexecuting]
        dsimp only
        rw [hdata, Option.map_some]
      exact (h (env, req) htransfer).isNoticed htask hdata hresp
  | dispatcher alloc => trivial
  | dbWorker es => trivial

/-- Every response between the workers and the table is noticed, and so is every row of the run. -/
structure Noticing (plan : RunPlan) (db : Database) (sys : Engine) : Prop where
  flows : ∀ rt, sys.runtime = some rt → rt.Flows (IsCaseTask plan) (IsNoticed plan)
  dispatching : ∀ i req, sys.client.pc = .dispatch i req → IsCaseTask plan ⟨i, ⟨some req⟩⟩
  stored : Runtime.StoredAs (Runtime.Holds (IsNoticed plan)) db.responses.rows sys.saved sys.conn

theorem Noticing.start (conn : Conn) : Noticing plan conn.db (start conn) where
  flows := by simp [Engine.start]
  dispatching := by simp [Engine.start, Client.start]
  stored := ⟨[], by simp [Engine.start], List.Forall₂.nil⟩

theorem Noticing.clientStep (h : Noticing plan db sys) (hinv : Inv plan db sys) (hlinked : db.Linked)
    (hfit : db.IdsFit) (env : ClientEnv) : Noticing plan db (sys.clientStep plan env) where
  flows := flows_clientStep h.flows h.dispatching env
  dispatching := by
    intro i req hdispatch
    by_cases hcreate : ∃ j, sys.client.pc = .createRequest j
    . rcases hcreate with ⟨j, hpc⟩
      exact hinv.isCaseTask_createRequest hlinked hfit hpc hdispatch
    . rw [not_exists] at hcreate
      exact h.dispatching i req (dispatch_of_clientStep hcreate hdispatch)
  stored := by
    have ⟨hsaved, hresponses⟩ := hinv.clientStep_keeps env
    exact h.stored.congr hsaved hresponses

theorem Noticing.runtimeStep (h : Noticing plan db sys) {rt : Runtime} (hrt : sys.runtime = some rt)
    {act : Runtime.Action} (hanswers : rt.Answers (IsCaseTask plan) (IsNoticed plan) act)
    : Noticing plan db {
        sys with
        runtime := some (rt.step sys.conn act).1
        conn := (rt.step sys.conn act).2
      } where
  flows := ((h.flows rt hrt).step hanswers sys.conn).of_some
  dispatching := h.dispatching
  stored := by
    have hstored := h.stored
    unfold Engine.saved at hstored
    rw [hrt] at hstored
    exact (h.flows rt hrt).storedAs_step hstored act

theorem Noticing.step (h : Noticing plan db sys) (hinv : Inv plan db sys) (hlinked : db.Linked)
    (hfit : db.IdsFit) {act : Action}
    (htransfers : ∀ transfer ∈ sys.transferBy act, plan.NoticesTransfer transfer.1 transfer.2)
    : Noticing plan db (sys.step plan act) := by
  cases act with
  | client env => exact h.clientStep hinv hlinked hfit env
  | runtime act =>
    unfold Engine.step
    dsimp only
    split
    . next rt hrt => exact h.runtimeStep hrt (answers_of_noticesTransfer hrt htransfers)
    . exact h

/-- What a poll finds is noticed: it is a row of this run, or the last one from before it. -/
theorem Noticing.polled (h : Noticing plan db sys) (hinv : Inv plan db sys)
    (hearlier : plan.NoticesEarlier db) {i : Nat} {elapsed : Int} (hpc : sys.client.pc = .wait i elapsed)
    {requestCase : RequestCase} (hcase : plan.cases[i]? = some requestCase) {row : Nat × ResponseRow}
    (hrow : latestResponse sys.conn.db (sys.client.requestIds i) = some row)
    : requestCase.Notices (decodeResponse row) := by
  have hassigned := hinv.requestIds_ne hpc (List.getElem?_eq_some_iff.mp hcase).1
  have ⟨_, hid⟩ := mem_responsesOf hrow
  rcases latestResponse_cases h.stored hrow with
    hold | ⟨entry, hentry, hrecord, resp, createdAt, hnoticed, hrow'⟩
  . rcases hinv.earlier i hassigned row (mem_responsesOf hold).1 hid with
      ⟨coll, hcoll, hkey, requestCase', hcase', req, hreq, hreqKey, hreqId⟩
    rw [hcase, Option.some.injEq] at hcase'
    rw [← hcase'] at hreqKey
    apply hearlier coll hcoll hkey requestCase (List.mem_of_getElem? hcase) req hreq hreqKey
    rw [← hreqId]
    exact hold
  . have hticket := hinv.requestIds_ticket hentry hrecord hid
    have hidentity := (hinv.identity_of_requestId hassigned (hticket ▸ hassigned)).mp hticket.symm
    have hnotices := hnoticed i requestCase hcase hidentity
    rw [← requestCase.notices_decodeResponse resp row.1 createdAt, ← hrow'] at hnotices
    exact hnotices

end Pipeline

/-- The case has a response of a transfer that succeeded, and the response passes every assertion. -/
def CasePassed (sys : Engine) (i : Nat) (requestCase : RequestCase) : Prop :=
  ∃ resp,
    (sys.client.result.caseResults i).response = some resp ∧
    resp.result = .ok ∧
    ∀ as ∈ requestCase.assertions, (evalAssertion (some resp) (some as)).passed = true

def AllPassed (plan : RunPlan) (sys : Engine) : Prop :=
  ∀ i requestCase, plan.cases[i]? = some requestCase → sys.CasePassed i requestCase

structure VerdictInv (plan : RunPlan) (sys : Engine) : Prop where
  running : sys.client.pc.running = true → sys.client.exitCode = 1
  waited : ∀ i elapsed, sys.client.pc = .wait i elapsed →
    sys.client.result.allRequestsOk = true → sys.client.result.allAssertionsOk = true →
      ∀ j requestCase, j < i → plan.cases[j]? = some requestCase → sys.CasePassed j requestCase
  exited : sys.client.exitCode = 0 → AllPassed plan sys

variable {conn : Conn} {runtime : Option Runtime} {client : Client}

-- Every step but those of the waiting client.
theorem VerdictInv.congr (h : VerdictInv plan sys) (hpc : client.pc.running = true → sys.client.pc.running = true)
    (hwait : ∀ i elapsed, client.pc = .wait i elapsed → i = 0)
    (hexit : client.exitCode = sys.client.exitCode)
    (hresult : client.result.caseResults = sys.client.result.caseResults)
    : VerdictInv plan { conn := conn, runtime := runtime, client := client } where
  running := by
    intro hrunning
    dsimp only
    rw [hexit]
    exact h.running (hpc hrunning)
  waited := by
    intro i elapsed heq _ _ j _ hlt
    rw [hwait i elapsed heq] at hlt
    omega
  exited := by
    intro hzero
    dsimp only at hzero
    rw [hexit] at hzero
    unfold AllPassed CasePassed
    dsimp only
    rw [hresult]
    exact h.exited hzero

theorem VerdictInv.receive (h : VerdictInv plan sys) {i : Nat} {elapsed : Int}
    {requestCase : RequestCase} {resp : Response} (hpc : sys.client.pc = .wait i elapsed)
    (hcase : plan.cases[i]? = some requestCase) (hresp : requestCase.Notices resp)
    : VerdictInv plan {
        sys with
        conn := conn
        client := {
          sys.client with
          pc := .wait (i + 1) 0
          result := sys.client.result.receive i requestCase.assertions resp
        }
      } where
  running := by
    intro _
    exact h.running (by rw [hpc]; rfl)
  waited := by
    intro i' elapsed' heq hrequests hassertions j requestCase' hlt hcase'
    cases heq
    unfold RunResult.receive RunResult.setCase at hrequests hassertions
    rw [Bool.and_eq_true] at hassertions
    unfold CasePassed RunResult.receive RunResult.setCase
    dsimp only
    by_cases hji : j = i
    . rw [hji] at hcase' ⊢
      rw [hcase, Option.some.injEq] at hcase'
      rw [← hcase']
      have hall := (evalAssertions_passed hassertions.2).2
      refine ⟨resp, by simp, ?_, hall⟩
      rcases hresp with hok | ⟨as, has, hfailed⟩
      . exact hok
      . rw [hall as has] at hfailed
        cases hfailed
    . rw [Function.update_of_ne hji]
      exact h.waited i elapsed hpc hrequests hassertions.1 j requestCase' (by omega) hcase'
  exited := by
    intro hzero
    have := h.running (by rw [hpc]; rfl)
    dsimp only at hzero
    omega

theorem VerdictInv.again (h : VerdictInv plan sys) {i : Nat} {elapsed elapsed' : Int}
    (hpc : sys.client.pc = .wait i elapsed)
    : VerdictInv plan { sys with conn := conn, client := sys.client.goto (.wait i elapsed') } where
  running := by
    intro _
    exact h.running (by rw [hpc]; rfl)
  waited := by
    intro i' elapsed'' heq
    cases heq
    exact h.waited i elapsed hpc
  exited := h.exited

theorem VerdictInv.timeOut (h : VerdictInv plan sys) {i : Nat} {elapsed : Int}
    (hpc : sys.client.pc = .wait i elapsed)
    : VerdictInv plan {
        sys with
        client := { sys.client with pc := .wait (i + 1) 0, result := sys.client.result.timeOut i }
      } where
  running := by
    intro _
    exact h.running (by rw [hpc]; rfl)
  waited := by
    intro i' elapsed' heq hrequests
    cases hrequests
  exited := by
    intro hzero
    have := h.running (by rw [hpc]; rfl)
    dsimp only at hzero
    omega

theorem VerdictInv.exit (h : VerdictInv plan sys) {i : Nat} {elapsed : Int}
    (hpc : sys.client.pc = .wait i elapsed) (hcase : plan.cases[i]? = none)
    : VerdictInv plan {
        sys with
        client := {
          sys.client with
          pc := .cleanup
          exitCode :=
            if sys.client.result.allRequestsOk && sys.client.result.allAssertionsOk then 0 else 1
        }
      } where
  running := by
    intro hrunning
    cases hrunning
  waited := by simp
  exited := by
    intro hzero
    dsimp only at hzero
    split at hzero
    . next hflags =>
      rw [Bool.and_eq_true] at hflags
      intro j requestCase hj
      apply h.waited i elapsed hpc hflags.1 hflags.2 j requestCase ?_ hj
      rw [List.getElem?_eq_none_iff] at hcase
      have := (List.getElem?_eq_some_iff.mp hj).1
      omega
    . cases hzero

theorem VerdictInv.clientStep (h : VerdictInv plan sys)
    (hpolled : ∀ i elapsed requestCase row, sys.client.pc = .wait i elapsed →
      plan.cases[i]? = some requestCase →
        latestResponse sys.conn.db (sys.client.requestIds i) = some row →
          requestCase.Notices (decodeResponse row))
    (env : ClientEnv) : VerdictInv plan (sys.clientStep plan env) := by
  unfold Engine.clientStep
  dsimp only
  cases hpc : sys.client.pc with
  | init =>
    have hrunning : sys.client.pc.running = true := by rw [hpc]; rfl
    dsimp only
    split
    . exact h.congr (fun _ => hrunning) (by simp [Client.goto]) rfl rfl
    . split
      all_goals exact h.congr (fun _ => hrunning) (by simp [Client.goto]) rfl rfl
  | saveCollection =>
    have hrunning : sys.client.pc.running = true := by rw [hpc]; rfl
    dsimp only
    split
    . exact h.congr (fun _ => hrunning) (by simp [Client.goto]) rfl rfl
    . split
      all_goals exact h.congr (fun _ => hrunning) (by simp [Client.goto]) rfl rfl
  | createRuntime =>
    have hrunning : sys.client.pc.running = true := by rw [hpc]; rfl
    dsimp only
    split
    all_goals exact h.congr (fun _ => hrunning) (by simp [Client.goto]) rfl rfl
  | createRequest i =>
    have hrunning : sys.client.pc.running = true := by rw [hpc]; rfl
    dsimp only
    split
    . exact h.congr (fun _ => hrunning) (by simp [Client.goto]) rfl rfl
    . split
      . exact h.congr (fun _ => hrunning) (by simp [Client.failRequests]) rfl rfl
      . split
        all_goals exact h.congr (fun _ => hrunning) (by simp [Client.failRequests]) rfl rfl
  | dispatch i req =>
    have hrunning : sys.client.pc.running = true := by rw [hpc]; rfl
    dsimp only
    split
    . exact h
    . split
      . exact h.congr (fun _ => hrunning) (by simp [Client.failRequests]) rfl rfl
      . split
        all_goals
          exact h.congr (fun _ => hrunning) (by simp [Client.failRequests, Client.goto]) rfl rfl
  | wait i elapsed =>
    dsimp only
    cases hcase : plan.cases[i]? with
    | none => exact h.exit hpc hcase
    | some requestCase =>
      dsimp only
      split
      . rw [run_dbGetLatestResponseByRequestId]
        dsimp only
        cases hresp : (latestResponse sys.conn.db (sys.client.requestIds i)).bind (pollResponse env.calls) with
        | none => exact h.again hpc
        | some resp =>
          rcases row_of_pollResponse hresp with ⟨row, hrow, hresp⟩
          rw [hresp]
          exact h.receive hpc hcase (hpolled i elapsed requestCase row hpc hcase hrow)
      . exact h.timeOut hpc
  | cleanup =>
    have hrunning : sys.client.pc.running = false := by rw [hpc]; rfl
    dsimp only
    split
    all_goals exact h.congr (by simp [Client.goto, ClientPc.running]) (by simp [Client.goto]) rfl rfl
  | destroy phase =>
    dsimp only
    split
    . exact h.congr (by simp [ClientPc.running]) (by simp) rfl rfl
    . exact h.congr (by simp [Client.goto, ClientPc.running]) (by simp [Client.goto]) rfl rfl
    . exact h
  | returned => exact h

theorem VerdictInv.step (h : VerdictInv plan sys) (hnoticing : Noticing plan db sys)
    (hinv : Inv plan db sys) (hearlier : plan.NoticesEarlier db) (act : Action)
    : VerdictInv plan (sys.step plan act) := by
  cases act with
  | client env =>
    apply h.clientStep
    intro i elapsed requestCase row hpc hcase hrow
    exact hnoticing.polled hinv hearlier hpc hcase hrow
  | runtime act =>
    unfold Engine.step
    dsimp only
    split
    . exact ⟨h.running, h.waited, h.exited⟩
    . exact h

section Run

variable (hlinked : db.Linked) (hfit : db.IdsFit) (hearlier : plan.NoticesEarlier db)

include hlinked hfit hearlier

theorem VerdictInv.exec (h : VerdictInv plan sys) (hnoticing : Noticing plan db sys)
    (hinv : Inv plan db sys) {acts : List Action}
    (htransfers : ∀ transfer ∈ sys.transfers plan acts, plan.NoticesTransfer transfer.1 transfer.2)
    : VerdictInv plan (sys.exec plan acts) := by
  induction acts generalizing sys with
  | nil => exact h
  | cons act acts ih =>
    unfold transfers at htransfers
    rw [List.forall_mem_append] at htransfers
    have hstep : ∀ transfer ∈ sys.transferBy act, plan.NoticesTransfer transfer.1 transfer.2 :=
      fun transfer hmem => htransfers.1 transfer (Option.mem_toList.mpr hmem)
    exact ih (h.step hnoticing hinv hearlier act) (hnoticing.step hinv hlinked hfit hstep)
      (hinv.step hlinked hfit act) htransfers.2

end Run

theorem VerdictInv.start (conn : Conn) : VerdictInv plan (start conn) where
  running := fun _ => rfl
  waited := by simp [Engine.start, Client.start]
  exited := by simp [Engine.start, Client.start]

end Engine

/--
A run that ends with exit code 0 had a good response for every case, if no transfer of the run and no
response from before it fails in a way that the assertions of its cases do not notice.
-/
theorem runPlan_sound {plan : RunPlan} {conn : Conn} (hlinked : conn.db.Linked) (hfit : conn.db.IdsFit)
    (hearlier : plan.NoticesEarlier conn.db) {acts : List Engine.Action}
    (htransfers : ∀ transfer ∈ (Engine.start conn).transfers plan acts,
      plan.NoticesTransfer transfer.1 transfer.2)
    (hexit : ((Engine.start conn).exec plan acts).client.exitCode = 0)
    : Engine.AllPassed plan ((Engine.start conn).exec plan acts) := by
  have hverdict := (Engine.VerdictInv.start conn).exec hlinked hfit hearlier (.start conn) (.start conn)
    htransfers
  exact hverdict.exited hexit

def statusPlan : RunPlan := planOf [postCase [⟨.statusEq, .int 200⟩]]

-- The database after a run of `statusPlan` that got status 200.
def earlierRun : Conn :=
  ((Engine.start (.open .empty)).exec statusPlan (oneCaseRun (.ok [] 200))).conn

def twinStatusPlan : RunPlan :=
  planOf [postCase [⟨.statusEq, .int 200⟩], postCase [⟨.statusEq, .int 200⟩]]

-- The first case gets the response of the earlier run, the second one that of the first task. The
-- second task fails, which both of them would notice.
def twinStatusRun : List Engine.Action :=
  clientSteps 9 ++ processTask (.ok [] 200) ++ clientSteps 1 ++
    processTask { TransferEnv.ok [] 200 with perform := false } ++ clientSteps 1 ++ shutDown

theorem runPlan_sound_twins
    : Engine.AllPassed twinStatusPlan
        ((Engine.start (.open earlierRun.db)).exec twinStatusPlan twinStatusRun) := by
  have hreach : earlierRun.Reachable (fun _ => True) := Engine.reachable_exec (fun _ => trivial) .first _
  apply runPlan_sound
  . exact hreach.linked.1
  . constructor <;> decide +kernel
  . decide +kernel
  . decide +kernel
  . decide +kernel

example
    : let sys := (Engine.start (.open earlierRun.db)).exec twinStatusPlan twinStatusRun
      sys.client.pc = .returned ∧ sys.conn.db.responses.rows.length = 3 ∧
        ((sys.client.result.caseResults 0).response.map Response.id = some 1) ∧
        ((sys.client.result.caseResults 1).response.map Response.id = some 2) := by
  decide +kernel

/-- A transfer fails, no assertion is there to notice, and `run_plan` returns 0. -/
theorem runPlan_unsound
    : let failed := { TransferEnv.ok [] 200 with perform := false }
      let plan := planOf [postCase []]
      let sys := (Engine.start (.open .empty)).exec plan (oneCaseRun failed)
      sys.client.pc = .returned ∧ sys.client.exitCode = 0 ∧ ¬ Engine.AllPassed plan sys := by
  refine ⟨by decide +kernel, by decide +kernel, ?_⟩
  intro h
  rcases h 0 (postCase []) rfl with ⟨resp, hresp, hok, _⟩
  have hresult : ((((Engine.start (.open .empty)).exec (planOf [postCase []])
      (oneCaseRun { TransferEnv.ok [] 200 with perform := false })).client.result.caseResults 0).response.map
        Response.result) = some .curlError := by
    decide +kernel
  rw [hresp, Option.map_some, hok] at hresult
  cases hresult

end HttpRuntime
