import HttpRuntime.Core.Engine.Invariant
import Mathlib.Data.List.Nodup

/-!
This module contains where the responses come from that `run_plan` attaches to the cases: from a
transfer of the same run, and from that of the case itself when no two cases share an identity.
-/

open Lib Lib.Sql

namespace HttpRuntime

/-- No two cases of the plan agree in method, URL and body. -/
def RunPlan.DistinctIdentities (plan : RunPlan) : Prop :=
  (plan.cases.map RequestCase.identity).Nodup

instance (plan : RunPlan) : Decidable plan.DistinctIdentities :=
  inferInstanceAs (Decidable (List.Nodup _))

namespace Engine

variable {plan : RunPlan} {db : Database} {sys : Engine}

theorem mem_carried_of_mem_saved {entry : SavedResponse} (h : entry ∈ sys.saved)
    : (entry.ticket, entry.requestId) ∈ sys.carried := by
  unfold Engine.saved at h
  unfold Engine.carried
  cases hrt : sys.runtime with
  | none => simp [hrt] at h
  | some rt =>
    rw [hrt, Option.map_some, Option.getD_some] at h
    rw [Option.map_some, Option.getD_some]
    unfold Runtime.carried
    rw [List.mem_append]
    right
    rw [List.mem_filterMap]
    exact ⟨entry, h, rfl⟩

theorem mem_responsesOf {db : Database} {requestId : Int} {row : Nat × ResponseRow}
    (h : latestResponse db requestId = some row)
    : row ∈ db.responses.rows ∧ row.2.requestId = .integer requestId := by
  have hmem := List.mem_of_getLast? h
  unfold responsesOf at hmem
  rw [List.mem_filter, Value.same_iff] at hmem
  exact ⟨hmem.1, hmem.2.1⟩

theorem exists_entry {R : SavedResponse → Nat × ResponseRow → Prop} {saved : List SavedResponse}
    {added : List (Nat × ResponseRow)} (h : List.Forall₂ R saved added) {row : Nat × ResponseRow}
    (hrow : row ∈ added) : ∃ entry ∈ saved, R entry row := by
  induction h with
  | nil => cases hrow
  | cons hrecord _ ih =>
    cases List.mem_cons.mp hrow with
    | inl heq => exact ⟨_, List.mem_cons_self, heq ▸ hrecord⟩
    | inr hmem =>
      rcases ih hmem with ⟨entry, hentry, hrecord'⟩
      exact ⟨entry, List.mem_cons_of_mem _ hentry, hrecord'⟩

/-- The latest row of a request was there before the run and was the latest, or it is a row of the run. -/
theorem latestResponse_cases {R : SavedResponse → Nat × ResponseRow → Prop} {saved : List SavedResponse}
    {conn : Conn} (h : Runtime.StoredAs R db.responses.rows saved conn) {requestId : Int}
    {row : Nat × ResponseRow} (hrow : latestResponse conn.db requestId = some row)
    : latestResponse db requestId = some row ∨ ∃ entry ∈ saved, R entry row := by
  rcases h with ⟨added, hrows, hall⟩
  unfold latestResponse responsesOf at hrow
  rw [hrows, List.filter_append, List.getLast?_append, Option.or_eq_some_iff] at hrow
  cases hrow with
  | inl hadded => exact .inr (exists_entry hall (List.mem_filter.mp (List.mem_of_getLast? hadded)).1)
  | inr hold => exact .inl hold.2

theorem Inv.requestIds_ticket (h : Inv plan db sys) {entry : SavedResponse} (hentry : entry ∈ sys.saved)
    {row : Nat × ResponseRow} (hrecord : Runtime.Records entry row) {requestId : Int}
    (hid : row.2.requestId = .integer requestId) : sys.client.requestIds entry.ticket = requestId := by
  have hsame := hrecord.2
  rw [hid, Value.integer.injEq] at hsame
  rw [(h.carried _ (mem_carried_of_mem_saved hentry)).1, hsame]

theorem Inv.polled (h : Inv plan db sys) (hstale : ¬ Stale plan db) {i : Nat} {elapsed : Int}
    (hpc : sys.client.pc = .wait i elapsed) (hi : i < plan.cases.length) {row : Nat × ResponseRow}
    (hrow : latestResponse sys.conn.db (sys.client.requestIds i) = some row)
    : ∃ entry ∈ sys.saved,
        Runtime.Records entry row ∧ row ∈ sys.conn.db.responses.rows ∧
          sys.client.requestIds i ≠ -1 ∧
          sys.client.requestIds entry.ticket = sys.client.requestIds i := by
  have ⟨hmem, hid⟩ := mem_responsesOf hrow
  have hassigned := h.requestIds_ne hpc hi
  rcases latestResponse_cases h.stored hrow with hold | ⟨entry, hentry, hrecord⟩
  . exact absurd hid (h.fresh hstale (h.pollable hpc) hassigned (mem_responsesOf hold).1)
  . exact ⟨entry, hentry, hrecord, hmem, hassigned, h.requestIds_ticket hentry hrecord hid⟩

theorem Inv.identity_of_requestId (h : Inv plan db sys) {i j : Nat}
    (hi : sys.client.requestIds i ≠ -1) (hj : sys.client.requestIds j ≠ -1)
    : sys.client.requestIds i = sys.client.requestIds j ↔
        (plan.cases[i]?).map RequestCase.identity = (plan.cases[j]?).map RequestCase.identity := by
  rcases h.assigned i hi with ⟨c, row, hc, _, hlookup, hid⟩
  rcases h.assigned j hj with ⟨c', row', hc', _, hlookup', hid'⟩
  rw [hc, hc', Option.map_some, Option.map_some, Option.some.injEq, hid, hid']
  constructor
  . intro heq
    have hrow : row = row' := by
      apply Table.eq_of_mem_of_id_eq (Table.mem_of_lookup hlookup) (Table.mem_of_lookup hlookup')
      omega
    have hkey := (Table.key_of_lookup hlookup).1
    rw [hrow, (Table.key_of_lookup hlookup').1, List.cons.injEq] at hkey
    exact hkey.2.symm
  . intro heq
    rw [heq, hlookup', Option.some.injEq] at hlookup
    rw [hlookup]

/-- The responses of the cases are rows of this run, found under the ids of the cases. -/
def Attached (sys : Engine) : Prop :=
  ∀ i resp, (sys.client.result.caseResults i).response = some resp →
    ∃ entry ∈ sys.saved, ∃ row ∈ sys.conn.db.responses.rows,
      Runtime.Records entry row ∧ resp = decodeResponse row ∧
        sys.client.requestIds i ≠ -1 ∧
        sys.client.requestIds entry.ticket = sys.client.requestIds i

-- Steps that attach no response.
theorem Attached.mono (h : Attached sys) {sys' : Engine}
    (hresults : ∀ i, (sys'.client.result.caseResults i).response =
      (sys.client.result.caseResults i).response)
    (hids : ∀ j, sys.client.requestIds j ≠ -1 → sys'.client.requestIds j = sys.client.requestIds j)
    (hsaved : ∀ entry ∈ sys.saved, entry ∈ sys'.saved)
    (hrows : ∀ row ∈ sys.conn.db.responses.rows, row ∈ sys'.conn.db.responses.rows)
    : Attached sys' := by
  intro i resp hresp
  rw [hresults i] at hresp
  rcases h i resp hresp with ⟨entry, hentry, row, hrow, hrecord, hdecode, hi, hid⟩
  refine ⟨entry, hsaved entry hentry, row, hrows row hrow, hrecord, hdecode, ?_, ?_⟩
  . rw [hids i hi]
    exact hi
  . rw [hids i hi, hids _ (hid ▸ hi)]
    exact hid

theorem Attached.receive (h : Attached sys) (hinv : Inv plan db sys) (hstale : ¬ Stale plan db) {i : Nat} {elapsed : Int}
    (hpc : sys.client.pc = .wait i elapsed) {requestCase : RequestCase}
    (hcase : plan.cases[i]? = some requestCase) {row : Nat × ResponseRow}
    (hrow : latestResponse sys.conn.db (sys.client.requestIds i) = some row)
    : Attached {
        sys with
        client := {
          sys.client with
          pc := .wait (i + 1) 0
          result := sys.client.result.receive i requestCase.assertions (decodeResponse row)
        }
      } := by
  intro j resp hresp
  unfold RunResult.receive RunResult.setCase at hresp
  dsimp only at hresp
  by_cases hj : j = i
  . rw [hj, Function.update_self, Option.some.injEq] at hresp
    rcases hinv.polled hstale hpc (List.getElem?_eq_some_iff.mp hcase).1 hrow with
      ⟨entry, hentry, hrecord, hmem, hi, hid⟩
    rw [hj]
    exact ⟨entry, hentry, row, hmem, hrecord, hresp.symm, hi, hid⟩
  . rw [Function.update_of_ne hj] at hresp
    exact h j resp hresp

theorem saved_eq_of_runtime {conn : Conn} {client : Client} {rt rt' : Runtime}
    (hrt : sys.runtime = some rt) (hsaved : rt'.saved = rt.saved)
    : (⟨conn, some rt', client⟩ : Engine).saved = sys.saved := by
  unfold Engine.saved
  rw [hrt, Option.map_some, Option.map_some, Option.getD_some, Option.getD_some, hsaved]

theorem Inv.clientStep_keeps (h : Inv plan db sys) (env : ClientEnv)
    : (sys.clientStep plan env).saved = sys.saved ∧
        (sys.clientStep plan env).conn.db.responses = sys.conn.db.responses := by
  unfold Engine.clientStep
  dsimp only
  cases hpc : sys.client.pc with
  | init =>
    dsimp only
    split
    . exact ⟨rfl, rfl⟩
    . split <;> exact ⟨rfl, rfl⟩
  | saveCollection =>
    dsimp only
    split
    . exact ⟨rfl, rfl⟩
    . next coll hcoll =>
      have hgrown := (stepped_dbSaveCollection coll env.calls sys.conn).grown_insertCollection.1
      split <;> exact ⟨rfl, hgrown.responses⟩
  | createRuntime =>
    dsimp only
    split
    . exact ⟨rfl, rfl⟩
    . next rt hrt =>
      have hnone := h.noRuntime (Or.inr (Or.inr hpc))
      refine ⟨?_, rfl⟩
      split at hrt
      . unfold Engine.saved
        rw [hnone, Option.map_some, Option.getD_some, (Runtime.carried_createRuntime hrt).2]
        rfl
      . cases hrt
  | createRequest i =>
    dsimp only
    split
    . exact ⟨rfl, rfl⟩
    . split
      . exact ⟨rfl, rfl⟩
      . next req hreq =>
        have hgrown := (stepped_dbSaveRequest req env.calls sys.conn).grown_insertRequest.1
        split <;> exact ⟨rfl, hgrown.responses⟩
  | dispatch i req =>
    dsimp only
    split
    . exact ⟨rfl, rfl⟩
    . split
      . exact ⟨rfl, rfl⟩
      . next rt hrt =>
        split
        all_goals
          refine ⟨saved_eq_of_runtime hrt ?_, rfl⟩
          rfl
  | wait i elapsed =>
    dsimp only
    split
    . exact ⟨rfl, rfl⟩
    . split
      . rw [run_dbGetLatestResponseByRequestId]
        split <;> exact ⟨rfl, rfl⟩
      . exact ⟨rfl, rfl⟩
  | cleanup =>
    dsimp only
    split
    . next rt hrt =>
      refine ⟨saved_eq_of_runtime hrt ?_, rfl⟩
      rfl
    . exact ⟨rfl, rfl⟩
  | destroy phase =>
    dsimp only
    split
    . next rt hrt =>
      refine ⟨saved_eq_of_runtime hrt ?_, rfl⟩
      rfl
    . next rt hrt hne =>
      refine ⟨saved_eq_of_runtime hrt ?_, rfl⟩
      exact (Runtime.carried_destroyStep rt _).2
    . exact ⟨rfl, rfl⟩
  | returned => exact ⟨rfl, rfl⟩

theorem clientStep_frame (plan : RunPlan) (env : ClientEnv)
    (hcreate : ∀ i, sys.client.pc ≠ .createRequest i)
    (hwait : ∀ i elapsed, sys.client.pc ≠ .wait i elapsed)
    : (sys.clientStep plan env).client.result.caseResults = sys.client.result.caseResults ∧
        (sys.clientStep plan env).client.requestIds = sys.client.requestIds := by
  unfold Engine.clientStep
  dsimp only
  cases hpc : sys.client.pc with
  | createRequest i => exact absurd hpc (hcreate i)
  | wait i elapsed => exact absurd hpc (hwait i elapsed)
  | returned => exact ⟨rfl, rfl⟩
  | _ =>
    dsimp only
    repeat' split
    all_goals exact ⟨rfl, rfl⟩

theorem Attached.createRequest (h : Attached sys) (hinv : Inv plan db sys) {i : Nat}
    (hpc : sys.client.pc = .createRequest i) (env : ClientEnv)
    : Attached (sys.clientStep plan env) := by
  have ⟨hsaved, hresponses⟩ := hinv.clientStep_keeps env
  have hother (j : Nat) (hj : sys.client.requestIds j ≠ -1) : j ≠ i := by
    have := ((hinv.progress i (by rw [hpc]; rfl)).2.2 j).mp hj
    omega
  refine h.mono ?_ ?_ (by rw [hsaved]; exact fun _ h => h) (by rw [hresponses]; exact fun _ h => h)
  . intro j
    unfold Engine.clientStep
    dsimp only
    rw [hpc]
    dsimp only
    repeat' split
    all_goals rfl
  . intro j hj
    unfold Engine.clientStep
    dsimp only
    rw [hpc]
    dsimp only
    repeat' split
    all_goals first
      | rfl
      | exact Function.update_of_ne (hother j hj) ..

theorem Attached.wait (h : Attached sys) (hinv : Inv plan db sys) (hstale : ¬ Stale plan db) {i : Nat} {elapsed : Int}
    (hpc : sys.client.pc = .wait i elapsed) (env : ClientEnv)
    : Attached (sys.clientStep plan env) := by
  unfold Engine.clientStep
  dsimp only
  rw [hpc]
  dsimp only
  cases hcase : plan.cases[i]? with
  | none => exact h
  | some requestCase =>
    dsimp only
    split
    . rw [run_dbGetLatestResponseByRequestId]
      dsimp only
      cases hresp : (latestResponse sys.conn.db (sys.client.requestIds i)).bind (pollResponse env.calls) with
      | none => exact h
      | some resp =>
        rcases row_of_pollResponse hresp with ⟨row, hrow, hresp⟩
        rw [hresp]
        exact h.receive hinv hstale hpc hcase hrow
    . refine h.mono ?_ (fun _ _ => rfl) (fun _ h => h) (fun _ h => h)
      intro j
      unfold RunResult.timeOut RunResult.setCase
      dsimp only
      by_cases hj : j = i
      . rw [hj, Function.update_self]
      . rw [Function.update_of_ne hj]

theorem Attached.clientStep (h : Attached sys) (hinv : Inv plan db sys) (hstale : ¬ Stale plan db)
    (env : ClientEnv)
    : Attached (sys.clientStep plan env) := by
  by_cases hcreate : ∃ i, sys.client.pc = .createRequest i
  . rcases hcreate with ⟨i, hpc⟩
    exact h.createRequest hinv hpc env
  . by_cases hwait : ∃ i elapsed, sys.client.pc = .wait i elapsed
    . rcases hwait with ⟨i, elapsed, hpc⟩
      exact h.wait hinv hstale hpc env
    . have ⟨hsaved, hresponses⟩ := hinv.clientStep_keeps env
      rw [not_exists] at hcreate
      have ⟨hresults, hids⟩ := clientStep_frame plan env hcreate (by simpa using hwait)
      refine h.mono ?_ ?_ ?_ ?_
      . rw [hresults]
        exact fun _ => rfl
      . rw [hids]
        exact fun _ _ => rfl
      . rw [hsaved]
        exact fun _ h => h
      . rw [hresponses]
        exact fun _ h => h

theorem Attached.step (h : Attached sys) (hinv : Inv plan db sys) (hstale : ¬ Stale plan db) (act : Action)
    : Attached (sys.step plan act) := by
  cases act with
  | client env => exact h.clientStep hinv hstale env
  | runtime act =>
    unfold Engine.step
    dsimp only
    split
    . next rt hrt =>
      have ⟨hsaved, hrows⟩ := Runtime.step_keeps rt sys.conn act
      refine h.mono (fun _ => rfl) (fun _ _ => rfl) ?_ hrows
      intro entry hentry
      unfold Engine.saved at hentry
      rw [hrt] at hentry
      exact hsaved entry hentry
    . exact h

section Run

variable (hlinked : db.Linked) (hfit : db.IdsFit) (hstale : ¬ Stale plan db)

include hlinked hfit hstale

theorem Attached.exec (h : Attached sys) (hinv : Inv plan db sys) (acts : List Action)
    : Attached (sys.exec plan acts) := by
  induction acts generalizing sys with
  | nil => exact h
  | cons act acts ih => exact ih (h.step hinv hstale act) (hinv.step hlinked hfit act)

end Run

theorem Attached.start (conn : Conn) : Attached (start conn) := by
  simp [Attached, Engine.start, Client.start, initRunResult, RequestCaseResult.zero]

def FromTask (sys : Engine) (i : Nat) (resp : Response) (rowId : Nat) : Prop :=
  (∃ entry ∈ sys.saved, entry.ticket = i ∧ entry.rowId = rowId) ∧
    ∃ row, (rowId, row) ∈ sys.conn.db.responses.rows ∧ resp = decodeResponse (rowId, row)

theorem Inv.saved_unique (h : Inv plan db sys) {entry entry' : SavedResponse}
    (hentry : entry ∈ sys.saved) (hentry' : entry' ∈ sys.saved) (hid : entry.rowId = entry'.rowId)
    : entry = entry' := by
  rcases h.stored with ⟨added, hrows, hrecords⟩
  have hids : sys.saved.map SavedResponse.rowId = added.map Prod.fst := by
    rw [← List.forall₂_eq_eq_eq, List.forall₂_map_left_iff, List.forall₂_map_right_iff]
    exact hrecords.imp (fun _ _ hrecord => hrecord.1.symm)
  have hincreasing := sys.conn.db.responses.increasing
  rw [hrows, List.pairwise_append] at hincreasing
  have hnodup : (sys.saved.map SavedResponse.rowId).Nodup := by
    rw [hids, List.Nodup, List.pairwise_map]
    exact hincreasing.2.1.imp (fun hlt => Nat.ne_of_lt hlt)
  exact List.inj_on_of_nodup_map hnodup hentry hentry' hid

end Engine

theorem Database.IdsFit.empty : Database.empty.IdsFit := by
  constructor <;> decide

theorem not_stale_empty (plan : RunPlan) : ¬ Stale plan .empty := by
  rintro ⟨_, coll, hcoll, _⟩
  cases hcoll

/--
In a run from an empty database whose cases have distinct identities, every response comes from the
task of its own case, and no two cases share a row.
-/
theorem runPlan_attribution {plan : RunPlan} (hdistinct : plan.DistinctIdentities)
    (acts : List Engine.Action)
    : let sys := (Engine.start (.open .empty)).exec plan acts
      (∀ i resp, (sys.client.result.caseResults i).response = some resp →
        ∃ rowId, sys.FromTask i resp rowId) ∧
      ∀ i j resp resp' rowId, sys.FromTask i resp rowId → sys.FromTask j resp' rowId → i = j := by
  have hstart : Engine.Inv plan .empty (Engine.start (.open .empty)) :=
    Engine.Inv.start (.open .empty)
  have hinv := hstart.exec .empty .empty acts
  have hattached := (Engine.Attached.start (.open .empty)).exec .empty .empty (not_stale_empty plan)
    hstart acts
  dsimp only
  generalize (Engine.start (.open .empty)).exec plan acts = sys at hinv hattached ⊢
  constructor
  . intro i resp hresp
    rcases hattached i resp hresp with ⟨entry, hentry, row, hrow, hrecord, hdecode, hi, hid⟩
    have hticket : entry.ticket = i := by
      have hidentity := (hinv.identity_of_requestId (hid ▸ hi) hi).mp hid
      rcases hinv.assigned i hi with ⟨requestCase, _, hcase, _⟩
      have hlt := (List.getElem?_eq_some_iff.mp hcase).1
      rw [← List.getElem?_map, ← List.getElem?_map] at hidentity
      apply ((List.getElem?_inj ?_ hdistinct).mp hidentity.symm).symm
      rw [List.length_map]
      exact hlt
    refine ⟨row.1, ⟨entry, hentry, hticket, hrecord.1.symm⟩, row.2, hrow, hdecode⟩
  . rintro i j resp resp' rowId ⟨⟨entry, hentry, hi, hrow⟩, _⟩ ⟨⟨entry', hentry', hj, hrow'⟩, _⟩
    have := hinv.saved_unique hentry hentry' (hrow.trans hrow'.symm)
    rw [← hi, ← hj, this]

-- Two cases that differ in their bodies.
def pairPlan : RunPlan := planOf [postCase [], { postCase [] with body := some [99] }]

def pairRun : List Engine.Action :=
  clientSteps 8 ++ processTask (.ok [] 200) ++ processTask (.ok [] 201) ++ clientSteps 2

theorem runPlan_attribution_pair
    : let sys := (Engine.start (.open .empty)).exec pairPlan pairRun
      (∀ i resp, (sys.client.result.caseResults i).response = some resp →
        ∃ rowId, sys.FromTask i resp rowId) ∧
      ∀ i j resp resp' rowId, sys.FromTask i resp rowId → sys.FromTask j resp' rowId → i = j :=
  runPlan_attribution (by decide +kernel) pairRun

-- Two cases that differ in nothing, and a worker that is slow with the second task.
def twinPlan : RunPlan := planOf [postCase [], postCase []]

def twinRun : List Engine.Action :=
  clientSteps 8 ++ processTask (.ok [] 200) ++ clientSteps 2

/-- The second case gets the response of the first one, while its own task is still waiting. -/
theorem runPlan_attribution_twins
    : let sys := (Engine.start (.open .empty)).exec twinPlan twinRun
      ∃ resp,
        (sys.client.result.caseResults 0).response = some resp ∧
        (sys.client.result.caseResults 1).response = some resp ∧
        ¬ ∃ rowId, sys.FromTask 1 resp rowId := by
  have hsaved : ((Engine.start (.open .empty)).exec twinPlan twinRun).saved = [⟨0, 1, 1⟩] := by
    decide +kernel
  have hne : (((Engine.start (.open .empty)).exec twinPlan twinRun).client.result.caseResults 0).response ≠
      none := by
    decide +kernel
  have hsame : (((Engine.start (.open .empty)).exec twinPlan twinRun).client.result.caseResults 1).response =
      (((Engine.start (.open .empty)).exec twinPlan twinRun).client.result.caseResults 0).response := by
    decide +kernel
  rcases Option.ne_none_iff_exists'.mp hne with ⟨resp, hresp⟩
  refine ⟨resp, hresp, hsame.trans hresp, ?_⟩
  rintro ⟨rowId, ⟨entry, hentry, hticket, _⟩, _⟩
  rw [hsaved, List.mem_singleton] at hentry
  rw [hentry] at hticket
  cases hticket

end HttpRuntime
