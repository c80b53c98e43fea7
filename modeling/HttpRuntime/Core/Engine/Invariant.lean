import HttpRuntime.Core.DbManager.ForeignKeys
import HttpRuntime.Core.DbManager.Saves
import HttpRuntime.Core.Engine.Basic
import HttpRuntime.Core.Runtime.Shutdown

/-!
This module contains what holds in every state of a run: which rows the request ids of the cases
lead to, and that everything in the pipeline and everything it stored belongs to one of them.
-/

open Lib Lib.Sql

namespace HttpRuntime

/-- The identity of a request within its collection, as SQLite sees it. -/
def Request.boundIdentity (req : Request) : List Value :=
  [.integer req.method.toInt, textValue req.url req.urlLen,
    blobValue (some (req.body.getD [])) req.bodyLen]

theorem boundKey_eq_cons (req : Request)
    : req.boundKey = .integer req.collectionId :: req.boundIdentity := rfl

def RequestCase.identity (requestCase : RequestCase) : List Value :=
  ((createCaseRequest requestCase 0 true).map Request.boundIdentity).getD []

theorem createCaseRequest_zero {requestCase : RequestCase} {collId : Int} {alloc : Bool}
    {req : Request} (h : createCaseRequest requestCase collId alloc = some req)
    : createCaseRequest requestCase 0 true = some { req with collectionId := 0 } ∧
        req.collectionId = collId ∧ req.id = 0 := by
  unfold createCaseRequest createRequest at h ⊢
  cases alloc with
  | false => cases h
  | true =>
    simp only [Bool.not_true, Bool.false_eq_true, if_false] at h ⊢
    split at h
    . cases h
    . split at h
      . cases h
      . split at h
        . cases h
        . next h1 h2 h3 =>
          rw [Option.some.injEq] at h
          rw [if_neg h1, if_neg h2, if_neg h3, ← h]
          exact ⟨rfl, rfl, rfl⟩

theorem createCaseRequest_eq {requestCase : RequestCase} {collId : Int} {alloc : Bool} {req : Request}
    (h : createCaseRequest requestCase collId alloc = some req)
    : req.collectionId = collId ∧ req.boundIdentity = requestCase.identity := by
  have ⟨hzero, hcollId, _⟩ := createCaseRequest_zero h
  refine ⟨hcollId, ?_⟩
  unfold RequestCase.identity
  rw [hzero]
  rfl

def RequestCase.Savable (requestCase : RequestCase) : Prop :=
  ∃ req ∈ createCaseRequest requestCase 0 true,
    none ∉ insertRequestParams req ∧ req.url ≠ none ∧ req.body ≠ none

instance (requestCase : RequestCase) : Decidable requestCase.Savable :=
  inferInstanceAs (Decidable (∃ req ∈ createCaseRequest requestCase 0 true, _))

theorem RequestCase.Savable.of_savable {requestCase : RequestCase} {collId : Int} {alloc : Bool}
    {req : Request} {es : List CallEnv}
    (h : createCaseRequest requestCase collId alloc = some req) (hsavable : HttpRuntime.Savable req es)
    : requestCase.Savable := by
  refine ⟨{ req with collectionId := 0 }, (createCaseRequest_zero h).1, ?_, hsavable.2.2.1,
    hsavable.2.2.2.1⟩
  have hbound := hsavable.2.1
  simpa [insertRequestParams, bindInt] using hbound

/-- The client gets as far as the polling when nothing fails. -/
structure RunPlan.Pollable (plan : RunPlan) : Prop where
  small : plan.cases.length ≤ maxRequestCases
  savable : ∀ requestCase ∈ plan.cases, requestCase.Savable

instance (plan : RunPlan) : Decidable plan.Pollable :=
  decidable_of_iff (plan.cases.length ≤ maxRequestCases ∧ ∀ requestCase ∈ plan.cases, requestCase.Savable)
    ⟨fun h => ⟨h.1, h.2⟩, fun h => ⟨h.small, h.savable⟩⟩

def planCollectionKey (plan : RunPlan) : List Value :=
  let name := plan.collectionName.getD defaultName
  [textValue (safeCopyString (some name) (strlen name)) (strlen name)]

theorem createCollection_key {plan : RunPlan} {alloc : Bool} {coll : Collection}
    (h : createCollection (some (plan.collectionName.getD defaultName)) alloc = some coll)
    : [textValue coll.name coll.nameLen] = planCollectionKey plan := by
  unfold createCollection at h
  dsimp only at h
  split at h
  . cases h
  . split at h
    . cases h
    . rw [Option.some.injEq] at h
      rw [← h]
      rfl

/-- A response that is stored already belongs to a request that the plan will poll for. -/
def Stale (plan : RunPlan) (db : Database) : Prop :=
  plan.Pollable ∧
    ∃ coll ∈ db.collections.rows,
      coll.2.key = planCollectionKey plan ∧
      ∃ requestCase ∈ plan.cases, ∃ req ∈ db.requests.rows,
        req.2.key = .integer coll.1 :: requestCase.identity ∧
        ∃ resp ∈ db.responses.rows, resp.2.requestId = .integer req.1

instance (plan : RunPlan) (db : Database) : Decidable (Stale plan db) :=
  inferInstanceAs (Decidable (plan.Pollable ∧ ∃ coll ∈ db.collections.rows, _))

/-- The request of case `i` was stored before the run, under this id. -/
def StoredBefore (plan : RunPlan) (db : Database) (i : Nat) (id : Int) : Prop :=
  ∃ coll ∈ db.collections.rows,
    coll.2.key = planCollectionKey plan ∧
    ∃ requestCase, plan.cases[i]? = some requestCase ∧
      ∃ req ∈ db.requests.rows, req.2.key = .integer coll.1 :: requestCase.identity ∧ id = req.1

structure Database.IdsFit (db : Database) : Prop where
  collections : db.collections.seq + 1 < 2 ^ 31
  requests : db.requests.seq + maxRequestCases < 2 ^ 31

namespace Engine

def carried (sys : Engine) : List Carried := (sys.runtime.map Runtime.carried).getD []

def saved (sys : Engine) : List SavedResponse := (sys.runtime.map Runtime.saved).getD []

-- The only task that a run gives to the DB worker.
def IsSave (task : DbTask) : Prop := ∃ resp, task = .saveResponse (some resp)

-- The number of cases that have a request id, as long as there is no failure.
def created (plan : RunPlan) (pc : ClientPc) : Option Nat :=
  match pc with
  | .init => some 0
  | .saveCollection => some 0
  | .createRuntime => some 0
  | .createRequest i => some i
  | .dispatch i _ => some (i + 1)
  | .wait _ _ => some plan.cases.length
  | .cleanup => none
  | .destroy _ => none
  | .returned => none

def hasCollection (pc : ClientPc) : Bool :=
  match pc with
  | .createRuntime => true
  | .createRequest _ => true
  | .dispatch _ _ => true
  | .wait _ _ => true
  | _ => false

/-- `db` is the database in which the run started. -/
structure Inv (plan : RunPlan) (db : Database) (sys : Engine) : Prop where
  firstCollections : sys.client.pc = .init ∨ sys.client.pc = .saveCollection →
    sys.conn.db.collections = db.collections
  noRuntime : sys.client.pc = .init ∨ sys.client.pc = .saveCollection ∨
    sys.client.pc = .createRuntime → sys.runtime = none
  smallPlan : hasCollection sys.client.pc = true ∨ sys.client.pc = .saveCollection →
    plan.cases.length ≤ maxRequestCases
  collections : ∀ coll ∈ sys.conn.db.collections.rows,
    coll ∈ db.collections.rows ∨ db.collections.seq < coll.1
  requests : ∀ req ∈ sys.conn.db.requests.rows, req ∈ db.requests.rows ∨ db.requests.seq < req.1
  collectionSeq : db.collections.seq ≤ sys.conn.db.collections.seq
  seq : db.requests.seq ≤ sys.conn.db.requests.seq ∧
    sys.conn.db.requests.seq ≤ db.requests.seq + maxRequestCases
  progress : ∀ n, created plan sys.client.pc = some n →
    n ≤ plan.cases.length ∧ sys.conn.db.requests.seq ≤ db.requests.seq + n ∧
      ∀ j, sys.client.requestIds j ≠ -1 ↔ j < n
  collected : hasCollection sys.client.pc = true →
    ∃ coll ∈ sys.conn.db.collections.rows,
      sys.client.collId = coll.1 ∧ coll.2.key = planCollectionKey plan
  assigned : ∀ i, sys.client.requestIds i ≠ -1 → ∃ requestCase row,
    plan.cases[i]? = some requestCase ∧ requestCase.Savable ∧
    sys.conn.db.requests.lookup RequestRow.key (.integer sys.client.collId :: requestCase.identity) =
      some row ∧
    sys.client.requestIds i = row.1
  earlier : ∀ i, sys.client.requestIds i ≠ -1 →
    ∀ resp ∈ db.responses.rows, resp.2.requestId = .integer (sys.client.requestIds i) →
      StoredBefore plan db i (sys.client.requestIds i)
  carried : ∀ c ∈ sys.carried, sys.client.requestIds c.1 = c.2 ∧ c.2 ≠ -1
  dispatching : ∀ i req, sys.client.pc = .dispatch i req →
    sys.client.requestIds i = req.id ∧ req.id ≠ -1
  stored : Runtime.StoredSince db.responses.rows sys.saved sys.conn
  dbTasks : ∀ rt, sys.runtime = some rt → rt.DbTasks IsSave

variable {plan : RunPlan} {db : Database} {sys : Engine} {alloc : Bool} {es : List CallEnv}

theorem Inv.start (conn : Conn) : Inv plan conn.db (start conn) where
  firstCollections := fun _ => rfl
  noRuntime := fun _ => rfl
  smallPlan := by simp [Engine.start, Client.start, hasCollection]
  collections := fun _ hcoll => Or.inl hcoll
  requests := fun _ hreq => Or.inl hreq
  collectionSeq := Nat.le_refl _
  seq := ⟨Nat.le_refl _, Nat.le_add_right _ _⟩
  progress := by
    intro n hn
    cases hn
    exact ⟨Nat.zero_le _, Nat.le_refl _, by simp [Engine.start, Client.start]⟩
  collected := by simp [Engine.start, Client.start, hasCollection]
  assigned := by simp [Engine.start, Client.start]
  earlier := by simp [Engine.start, Client.start]
  carried := by simp [Engine.start, Engine.carried]
  dispatching := by simp [Engine.start, Client.start]
  stored := ⟨[], by simp [Engine.start], List.Forall₂.nil⟩
  dbTasks := by simp [Engine.start]

theorem Inv.leave (h : Inv plan db sys) {conn : Conn} {runtime : Option Runtime} {client : Client}
    (hgrown : sys.conn.GrownTo conn)
    (hseq : conn.db.requests.seq ≤ db.requests.seq + maxRequestCases)
    (hpc : client.pc.running = false) (hids : client.requestIds = sys.client.requestIds)
    (hcollId : client.collId = sys.client.collId)
    (hcarried : ∀ c ∈ (⟨conn, runtime, client⟩ : Engine).carried, c ∈ sys.carried)
    (hsaved : (⟨conn, runtime, client⟩ : Engine).saved = sys.saved)
    (htasks : ∀ rt, runtime = some rt → rt.DbTasks IsSave)
    : Inv plan db ⟨conn, runtime, client⟩ where
  firstCollections := by
    intro hearly
    dsimp only at hearly
    rcases hearly with hearly | hearly
    all_goals
      rw [hearly] at hpc
      cases hpc
  noRuntime := by
    intro hearly
    dsimp only at hearly
    rcases hearly with hearly | hearly | hearly
    all_goals
      rw [hearly] at hpc
      cases hpc
  smallPlan := by
    intro hearly
    dsimp only at hearly
    cases hcase : client.pc with
    | _ => simp_all [ClientPc.running, hasCollection]
  collections := hgrown.collections.mem_or_lt_of h.collectionSeq h.collections
  requests := hgrown.requests.mem_or_lt_of h.seq.1 h.requests
  collectionSeq := h.collectionSeq.trans hgrown.collections.seq.1
  seq := by
    have := h.seq.1
    have := hgrown.requests.seq
    dsimp only
    omega
  progress := by
    intro n hn
    dsimp only at hn
    cases hcase : client.pc with
    | _ => simp_all [ClientPc.running, created]
  collected := by
    intro hearly
    dsimp only at hearly
    cases hcase : client.pc with
    | _ => simp_all [ClientPc.running, hasCollection]
  assigned := by
    intro i hi
    dsimp only at hi ⊢
    rw [hids] at hi ⊢
    rw [hcollId]
    rcases h.assigned i hi with ⟨requestCase, row, hcase, hsavable, hlookup, hid⟩
    exact ⟨requestCase, row, hcase, hsavable, hgrown.requests.lookup hlookup, hid⟩
  earlier := by
    dsimp only
    rw [hids]
    exact h.earlier
  carried := by
    intro c hc
    dsimp only
    rw [hids]
    exact h.carried c (hcarried c hc)
  dispatching := by
    intro i req heq
    dsimp only at heq
    rw [heq] at hpc
    cases hpc
  stored := h.stored.congr hsaved hgrown.responses
  dbTasks := htasks

-- Leaving with the runtime and the database as they are.
theorem Inv.leave_same (h : Inv plan db sys) {client : Client} (hpc : client.pc.running = false)
    (hids : client.requestIds = sys.client.requestIds) (hcollId : client.collId = sys.client.collId)
    : Inv plan db { sys with client := client } :=
  h.leave (.refl sys.conn) h.seq.2 hpc hids hcollId (fun _ hc => hc) rfl h.dbTasks

theorem Inv.leave_runtime (h : Inv plan db sys) {rt rt' : Runtime} (hrt : sys.runtime = some rt)
    (hcarried : rt'.carried = rt.carried) (hsaved : rt'.saved = rt.saved)
    (htasks : rt'.DbTasks IsSave) {client : Client} (hpc : client.pc.running = false)
    (hids : client.requestIds = sys.client.requestIds) (hcollId : client.collId = sys.client.collId)
    : Inv plan db { sys with runtime := some rt', client := client } := by
  refine h.leave (.refl sys.conn) h.seq.2 hpc hids hcollId ?_ ?_ ?_
  . intro c hc
    unfold Engine.carried at hc ⊢
    rw [hrt]
    rw [Option.map_some, Option.getD_some, hcarried] at hc
    exact hc
  . unfold Engine.saved
    rw [hrt, Option.map_some, Option.map_some, Option.getD_some, Option.getD_some, hsaved]
  . intro rt'' heq
    cases heq
    exact htasks

theorem Inv.init (h : Inv plan db sys) (hpc : sys.client.pc = .init)
    (hsmall : plan.cases.length ≤ maxRequestCases)
    : Inv plan db { sys with client := sys.client.goto .saveCollection } :=
  {
    h with
    firstCollections := fun _ => h.firstCollections (Or.inl hpc)
    noRuntime := fun _ => h.noRuntime (Or.inl hpc)
    smallPlan := fun _ => hsmall
    progress := by
      intro n hn
      apply h.progress n
      rw [hpc]
      exact hn
    collected := by simp [Client.goto, hasCollection]
    dispatching := by simp [Client.goto]
  }

theorem Inv.saveCollection (h : Inv plan db sys) (hfit : db.IdsFit)
    (hpc : sys.client.pc = .saveCollection) {coll : Collection}
    (hcoll : createCollection (some (plan.collectionName.getD defaultName)) alloc = some coll)
    (hok : ((dbSaveCollection (some coll)).run answer es sys.conn).1.1 ≠ sqliteError)
    : Inv plan db {
        sys with
        conn := ((dbSaveCollection (some coll)).run answer es sys.conn).2
        client := {
          sys.client with
          pc := .createRuntime
          collId :=
            (((dbSaveCollection (some coll)).run answer es sys.conn).1.2.map Collection.id).getD 0
        }
      } := by
  have ⟨hgrown, hrequests⟩ := (stepped_dbSaveCollection coll es sys.conn).grown_insertCollection
  have hcases := dbSaveCollection_cases coll es sys.conn
  generalize (dbSaveCollection (some coll)).run answer es sys.conn = res at hok hgrown hrequests hcases ⊢
  have hprogress := h.progress 0 (by rw [hpc]; rfl)
  have hunassigned (j : Nat) : ¬ sys.client.requestIds j ≠ -1 := by
    rw [hprogress.2.2 j]
    omega
  rcases hcases with hfailed | ⟨row, hres, hlookup⟩
  . rw [hfailed] at hok
    exact absurd rfl hok
  . exact {
      firstCollections := by simp
      noRuntime := fun _ => h.noRuntime (Or.inr (Or.inl hpc))
      smallPlan := fun _ => h.smallPlan (Or.inr hpc)
      collections := hgrown.collections.mem_or_lt_of h.collectionSeq h.collections
      requests := by
        dsimp only
        rw [hrequests]
        exact h.requests
      collectionSeq := h.collectionSeq.trans hgrown.collections.seq.1
      seq := by
        dsimp only
        rw [hrequests]
        exact h.seq
      progress := by
        intro n hn
        cases hn
        dsimp only
        rw [hrequests]
        exact hprogress
      collected := by
        intro _
        have hmem := Table.mem_of_lookup hlookup
        have hbound := res.2.db.collections.bounded row hmem
        have hseq := hgrown.collections.seq
        rw [h.firstCollections (Or.inr hpc)] at hseq
        have hfits := hfit.collections
        refine ⟨row, hmem, ?_, ?_⟩
        . dsimp only
          rw [hres, Option.map_some, Option.getD_some, Lib.toInt_ofNat (by omega)]
        . rw [(Table.key_of_lookup hlookup).1]
          exact createCollection_key hcoll
      assigned := fun i hi => absurd hi (hunassigned i)
      earlier := fun i hi => absurd hi (hunassigned i)
      carried := h.carried
      dispatching := by simp
      stored := h.stored.congr rfl hgrown.responses
      dbTasks := h.dbTasks
    }

theorem Inv.createRuntime (h : Inv plan db sys) (hpc : sys.client.pc = .createRuntime) {n : Int}
    {rt : Runtime} (hrt : createRuntime n = some rt) (result : RunResult)
    : Inv plan db {
        sys with
        runtime := some rt
        client := { sys.client with pc := .createRequest 0, result := result }
      } := by
  have hnone := h.noRuntime (Or.inr (Or.inr hpc))
  have hcollection : hasCollection sys.client.pc = true := by
    rw [hpc]
    rfl
  have hempty := Runtime.carried_createRuntime hrt
  exact {
    h with
    firstCollections := by simp
    noRuntime := by simp
    smallPlan := fun _ => h.smallPlan (Or.inl hcollection)
    progress := by
      intro n hn
      apply h.progress n
      rw [hpc]
      exact hn
    collected := fun _ => h.collected hcollection
    carried := by simp [Engine.carried, hempty.1]
    dispatching := by simp
    stored := by
      apply h.stored.congr ?_ rfl
      simp [Engine.saved, hempty.2, hnone]
    dbTasks := by
      intro rt' heq
      cases heq
      exact Runtime.dbTasks_createRuntime hrt
  }

-- A response that was stored before the run leads back to rows that were.
theorem storedBefore_of_response (hlinked : db.Linked) {coll : Nat × CollectionRow}
    (hcoll : coll ∈ db.collections.rows ∨ db.collections.seq < coll.1)
    (hcollKey : coll.2.key = planCollectionKey plan) {i : Nat} {requestCase : RequestCase}
    (hcase : plan.cases[i]? = some requestCase) {row : Nat × RequestRow}
    (hrow : row ∈ db.requests.rows ∨ db.requests.seq < row.1)
    (hkey : row.2.key = .integer coll.1 :: requestCase.identity) {resp : Nat × ResponseRow}
    (hresp : resp ∈ db.responses.rows) (heq : resp.2.requestId = .integer row.1)
    : StoredBefore plan db i row.1 := by
  have hrow : row ∈ db.requests.rows := by
    rcases hrow with hrow | hlt
    . exact hrow
    . rcases hlinked.responses resp hresp with hnull | ⟨req, hreq, hid⟩
      . rw [heq] at hnull
        cases hnull
      . rw [heq, Value.integer.injEq] at hid
        have := db.requests.bounded req hreq
        omega
  have hcoll : coll ∈ db.collections.rows := by
    rcases hcoll with hcoll | hlt
    . exact hcoll
    . have hcollId : row.2.collectionId = .integer coll.1 := by
        unfold RequestRow.key at hkey
        rw [List.cons.injEq] at hkey
        exact hkey.1
      rcases hlinked.requests row hrow with hnull | ⟨coll', hcoll', hid⟩
      . rw [hcollId] at hnull
        cases hnull
      . rw [hcollId, Value.integer.injEq] at hid
        have := db.collections.bounded coll' hcoll'
        omega
  exact ⟨coll, hcoll, hcollKey, requestCase, hcase, row, hrow, hkey, rfl⟩

theorem Inv.fresh (h : Inv plan db sys) (hstale : ¬ Stale plan db) (hpollable : plan.Pollable) {i : Nat}
    (hi : sys.client.requestIds i ≠ -1) {resp : Nat × ResponseRow} (hresp : resp ∈ db.responses.rows)
    : resp.2.requestId ≠ .integer (sys.client.requestIds i) := by
  intro heq
  rcases h.earlier i hi resp hresp heq with ⟨coll, hcoll, hcollKey, requestCase, hcase, req, hreq, hkey, hid⟩
  rw [hid] at heq
  exact hstale ⟨hpollable, coll, hcoll, hcollKey, requestCase, List.mem_of_getElem? hcase, req, hreq, hkey,
    resp, hresp, heq⟩

-- Every case has its request before the client waits for the first one.
theorem Inv.requestIds_ne (h : Inv plan db sys) {i : Nat} {elapsed : Int}
    (hpc : sys.client.pc = .wait i elapsed) {j : Nat} (hj : j < plan.cases.length)
    : sys.client.requestIds j ≠ -1 := by
  rw [(h.progress plan.cases.length (by rw [hpc]; rfl)).2.2 j]
  exact hj

theorem Inv.pollable (h : Inv plan db sys) {i : Nat} {elapsed : Int}
    (hpc : sys.client.pc = .wait i elapsed) : plan.Pollable where
  small := h.smallPlan (Or.inl (by rw [hpc]; rfl))
  savable := by
    intro requestCase hmem
    rcases List.mem_iff_getElem?.mp hmem with ⟨j, hj⟩
    have hassigned := h.requestIds_ne hpc (List.getElem?_eq_some_iff.mp hj).1
    rcases h.assigned j hassigned with ⟨requestCase', _, hcase, hsavable, _⟩
    rw [hj, Option.some.injEq] at hcase
    rw [hcase]
    exact hsavable

theorem Inv.collectionOf (h : Inv plan db sys) (hpc : hasCollection sys.client.pc = true)
    {requestCase : RequestCase} {req : Request}
    (hreq : createCaseRequest requestCase sys.client.collId alloc = some req)
    : ∃ row ∈ sys.conn.db.collections.rows, req.collectionId = row.1 := by
  rcases h.collected hpc with ⟨coll, hcoll, hcollId, _⟩
  exact ⟨coll, hcoll, (createCaseRequest_eq hreq).1.trans hcollId⟩

theorem Inv.createRequest (h : Inv plan db sys) (hlinked : db.Linked) (hfit : db.IdsFit) {i : Nat}
    (hpc : sys.client.pc = .createRequest i) {requestCase : RequestCase}
    (hcase : plan.cases[i]? = some requestCase) {req : Request}
    (hreq : createCaseRequest requestCase sys.client.collId alloc = some req)
    (hsavable : Savable req es)
    : ∃ id,
        ((dbSaveRequest (some req)).run answer es sys.conn).1 =
          (sqliteOk, some { req with id := id }) ∧
        Inv plan db {
          sys with
          conn := ((dbSaveRequest (some req)).run answer es sys.conn).2
          client := {
            sys.client with
            pc := .dispatch i { req with id := id }
            requestIds := Function.update sys.client.requestIds i id
          }
        } := by
  have hcollection : hasCollection sys.client.pc = true := by
    rw [hpc]
    rfl
  have ⟨hcollId, hidentity⟩ := createCaseRequest_eq hreq
  rcases h.collected hcollection with ⟨coll, hcoll, hcollEq, hcollKey⟩
  have ⟨hgrown, hcollections⟩ := (stepped_dbSaveRequest req es sys.conn).grown_insertRequest
  rcases dbSaveRequest_of_savable (h.collectionOf hcollection hreq) hsavable with ⟨row, hrun, hlookup⟩
  rw [hrun] at hgrown hcollections
  rw [hrun]
  generalize insertedRequest ((es.drop 9).headD default) sys.conn req = conn at hgrown hcollections hlookup ⊢
  dsimp only at hgrown hcollections ⊢
  rw [boundKey_eq_cons, hcollId, hidentity] at hlookup
  have hprogress := h.progress i (by rw [hpc]; rfl)
  have hlt : i < plan.cases.length := (List.getElem?_eq_some_iff.mp hcase).1
  have hsmall := h.smallPlan (Or.inl hcollection)
  have hseq := hgrown.requests.seq
  have hmem := Table.mem_of_lookup hlookup
  have hid : Lib.toInt row.1 = row.1 := by
    have := conn.db.requests.bounded row hmem
    have := hfit.requests
    exact Lib.toInt_ofNat (by omega)
  rw [hid]
  have hrequests : ∀ req ∈ conn.db.requests.rows, req ∈ db.requests.rows ∨ db.requests.seq < req.1 :=
    hgrown.requests.mem_or_lt_of h.seq.1 h.requests
  -- no other case and nothing in the pipeline has this place
  have hother {j : Nat} (hj : sys.client.requestIds j ≠ -1) : j ≠ i := by
    have := (hprogress.2.2 j).mp hj
    omega
  refine ⟨row.1, rfl, ?_⟩
  exact {
    firstCollections := by simp
    noRuntime := by simp
    smallPlan := fun _ => hsmall
    collections := by
      dsimp only
      rw [hcollections]
      exact h.collections
    requests := hrequests
    collectionSeq := by
      dsimp only
      rw [hcollections]
      exact h.collectionSeq
    seq := by
      have := h.seq
      have := hprogress.2.1
      dsimp only
      omega
    progress := by
      intro n hn
      cases hn
      have := hprogress.2.1
      refine ⟨by omega, by dsimp only; omega, ?_⟩
      intro j
      dsimp only
      by_cases hj : j = i
      . rw [hj, Function.update_self]
        constructor
        . intro _
          omega
        . intro _
          omega
      . rw [Function.update_of_ne hj, hprogress.2.2 j]
        omega
    collected := by
      intro _
      dsimp only
      rw [hcollections]
      exact ⟨coll, hcoll, hcollEq, hcollKey⟩
    assigned := by
      intro j hj
      dsimp only at hj ⊢
      by_cases hji : j = i
      . rw [hji, Function.update_self]
        exact ⟨requestCase, row, hcase, .of_savable hreq hsavable, hlookup, rfl⟩
      . rw [Function.update_of_ne hji] at hj ⊢
        rcases h.assigned j hj with ⟨requestCase', row', hcase', hsavable', hlookup', hid'⟩
        exact ⟨requestCase', row', hcase', hsavable', hgrown.requests.lookup hlookup', hid'⟩
    earlier := by
      intro j hj resp hresp heq
      dsimp only at hj heq ⊢
      by_cases hji : j = i
      . rw [hji, Function.update_self] at heq ⊢
        refine storedBefore_of_response hlinked (h.collections coll hcoll) hcollKey hcase
          (hrequests row hmem) ?_ hresp heq
        rw [(Table.key_of_lookup hlookup).1, hcollEq]
      . rw [Function.update_of_ne hji] at hj heq ⊢
        exact h.earlier j hj resp hresp heq
    carried := by
      intro c hc
      have ⟨hcId, hcNe⟩ := h.carried c hc
      dsimp only
      rw [Function.update_of_ne (hother (hcId ▸ hcNe))]
      exact ⟨hcId, hcNe⟩
    dispatching := by
      intro j req' heq
      dsimp only at heq ⊢
      rw [ClientPc.dispatch.injEq] at heq
      rw [← heq.1, ← heq.2, Function.update_self]
      exact ⟨rfl, by dsimp only; omega⟩
    stored := h.stored.congr rfl hgrown.responses
    dbTasks := h.dbTasks
  }

theorem Inv.failRequest (h : Inv plan db sys) {i : Nat} (hpc : sys.client.pc = .createRequest i)
    (hlt : i < plan.cases.length) (req : Request) (es : List CallEnv)
    : Inv plan db {
        sys with
        conn := ((dbSaveRequest (some req)).run answer es sys.conn).2
        client := sys.client.failRequests
      } := by
  have hgrown := (stepped_dbSaveRequest req es sys.conn).grown_insertRequest.1
  have hprogress := h.progress i (by rw [hpc]; rfl)
  have hsmall := h.smallPlan (Or.inl (by rw [hpc]; rfl))
  refine h.leave hgrown ?_ ?_ ?_ ?_ (fun _ hc => hc) ?_ h.dbTasks
  . have := hgrown.requests.seq
    omega
  all_goals rfl

theorem Inv.startWaiting (h : Inv plan db sys) {i : Nat} (hpc : sys.client.pc = .createRequest i)
    (hcase : plan.cases[i]? = none)
    : Inv plan db { sys with client := sys.client.goto (.wait 0 0) } := by
  have hcollection : hasCollection sys.client.pc = true := by
    rw [hpc]
    rfl
  have hprogress := h.progress i (by rw [hpc]; rfl)
  rw [List.getElem?_eq_none_iff] at hcase
  have hlength : i = plan.cases.length := by omega
  exact {
    h with
    firstCollections := by simp [Client.goto]
    noRuntime := by simp [Client.goto]
    smallPlan := fun _ => h.smallPlan (Or.inl hcollection)
    progress := by
      intro n hn
      cases hn
      rw [hlength] at hprogress
      exact hprogress
    collected := fun _ => h.collected hcollection
    dispatching := by simp [Client.goto]
  }

theorem Inv.dispatch (h : Inv plan db sys) {i : Nat} {req : Request}
    (hpc : sys.client.pc = .dispatch i req) {rt : Runtime} (hrt : sys.runtime = some rt)
    (node : Bool)
    : Inv plan db {
        sys with
        runtime := some (rt.dispatchTask (.worker ⟨i, ⟨some req⟩⟩) node).1
        client := sys.client.goto (.createRequest (i + 1))
      } := by
  have hcollection : hasCollection sys.client.pc = true := by
    rw [hpc]
    rfl
  have hdispatching := h.dispatching i req hpc
  exact {
    h with
    firstCollections := by simp [Client.goto]
    noRuntime := by simp [Client.goto]
    smallPlan := fun _ => h.smallPlan (Or.inl hcollection)
    progress := by
      intro n hn
      apply h.progress n
      rw [hpc]
      exact hn
    collected := fun _ => h.collected hcollection
    carried := by
      intro c hc
      rcases Runtime.mem_carried_dispatchTask hc with hc | hc
      . apply h.carried c
        unfold Engine.carried
        rw [hrt]
        exact hc
      . rw [hc]
        exact hdispatching
    dispatching := by simp [Client.goto]
    stored := by
      apply h.stored.congr ?_ rfl
      unfold Engine.saved
      rw [hrt]
      rfl
    dbTasks := by
      intro rt' heq
      rw [Option.some.injEq] at heq
      have := h.dbTasks rt hrt
      rw [← heq]
      exact ⟨this.dbQueue, this.dispatcher, this.dbWorker⟩
  }

theorem Inv.wait (h : Inv plan db sys) {i i' : Nat} {elapsed elapsed' : Int}
    (hpc : sys.client.pc = .wait i elapsed) (result : RunResult)
    : Inv plan db {
        sys with
        client := { sys.client with pc := .wait i' elapsed', result := result }
      } := by
  have hcollection : hasCollection sys.client.pc = true := by
    rw [hpc]
    rfl
  exact {
    h with
    firstCollections := by simp
    noRuntime := by simp
    smallPlan := fun _ => h.smallPlan (Or.inl hcollection)
    progress := by
      intro n hn
      apply h.progress n
      rw [hpc]
      exact hn
    collected := fun _ => h.collected hcollection
    dispatching := by simp
  }

section Run

variable (hlinked : db.Linked) (hfit : db.IdsFit)

include hlinked hfit

theorem Inv.clientStep (h : Inv plan db sys) (env : ClientEnv)
    : Inv plan db (sys.clientStep plan env) := by
  unfold Engine.clientStep
  dsimp only
  cases hpc : sys.client.pc with
  | init =>
    dsimp only
    split
    . exact h.leave_same rfl rfl rfl
    . split
      . exact h.leave_same rfl rfl rfl
      . exact h.init hpc (by omega)
  | saveCollection =>
    dsimp only
    split
    . exact h.leave_same rfl rfl rfl
    . next coll hcoll =>
      split
      . have ⟨hgrown, hrequests⟩ :=
          (stepped_dbSaveCollection coll env.calls sys.conn).grown_insertCollection
        exact h.leave hgrown (by rw [hrequests]; exact h.seq.2) rfl rfl rfl (fun _ hc => hc) rfl h.dbTasks
      . next hok => exact h.saveCollection hfit hpc hcoll hok
  | createRuntime =>
    dsimp only
    split
    . exact h.leave_same rfl rfl rfl
    . next rt hrt =>
      split at hrt
      . exact h.createRuntime hpc hrt _
      . cases hrt
  | createRequest i =>
    dsimp only
    cases hcase : plan.cases[i]? with
    | none => exact h.startWaiting hpc hcase
    | some requestCase =>
      dsimp only
      split
      . exact h.leave_same rfl rfl rfl
      . next req hreq =>
        by_cases hsavable : Savable req env.calls
        . rcases h.createRequest hlinked hfit hpc hcase hreq hsavable with ⟨id, hres, hinv⟩
          rw [hres]
          dsimp only
          rw [if_neg (by decide)]
          simpa using hinv
        . have hcoll := h.collectionOf (by rw [hpc]; rfl) hreq
          rw [dbSaveRequest_of_not_savable hcoll hsavable]
          dsimp only
          rw [if_pos rfl]
          exact h.failRequest hpc (List.getElem?_eq_some_iff.mp hcase).1 req env.calls
  | dispatch i req =>
    dsimp only
    split
    . exact h
    . split
      . exact h.leave_same rfl rfl rfl
      . next rt hrt =>
        split
        . next hrejected =>
          rw [Runtime.dispatchTask_rejected hrejected]
          exact h.leave_runtime hrt rfl rfl (h.dbTasks rt hrt) rfl rfl rfl
        . exact h.dispatch hpc hrt env.node
  | wait i elapsed =>
    dsimp only
    split
    . exact h.leave_same rfl rfl rfl
    . split
      . rw [run_dbGetLatestResponseByRequestId]
        dsimp only
        split
        . exact h.wait hpc _
        . exact h.wait hpc _
      . exact h.wait hpc _
  | cleanup =>
    dsimp only
    split
    . next rt hrt =>
      refine h.leave_runtime hrt ?_ ?_ (h.dbTasks rt hrt).destroyStart rfl rfl rfl
      all_goals rfl
    . exact h.leave_same rfl rfl rfl
  | destroy phase =>
    dsimp only
    split
    . next rt hrt => exact h.leave_runtime hrt rfl rfl (h.dbTasks rt hrt) rfl rfl rfl
    . next rt hrt hne =>
      refine h.leave_runtime hrt ?_ ?_ ((h.dbTasks rt hrt).destroyStep _) rfl rfl rfl
      . exact (Runtime.carried_destroyStep rt _).1
      . exact (Runtime.carried_destroyStep rt _).2
    . exact h
  | returned => exact h

omit hlinked hfit in
theorem Inv.runtimeStep (h : Inv plan db sys) {rt : Runtime} (hrt : sys.runtime = some rt)
    (act : Runtime.Action)
    : Inv plan db {
        sys with
        runtime := some (rt.step sys.conn act).1
        conn := (rt.step sys.conn act).2
      } := by
  have htasks := h.dbTasks rt hrt
  have htables : (rt.step sys.conn act).2.db.collections = sys.conn.db.collections ∧
      (rt.step sys.conn act).2.db.requests = sys.conn.db.requests := by
    cases act with
    | worker i env alloc => exact ⟨rfl, rfl⟩
    | dispatcher alloc => exact ⟨rfl, rfl⟩
    | dbWorker es => exact htasks.dbWorkerStep_tables sys.conn es
  have ⟨hcollections, hrequests⟩ := htables
  have hstored := h.stored
  unfold Engine.saved at hstored
  rw [hrt, Option.map_some, Option.getD_some] at hstored
  exact {
    firstCollections := by
      dsimp only
      rw [hcollections]
      exact h.firstCollections
    noRuntime := by
      intro hearly
      rw [h.noRuntime hearly] at hrt
      cases hrt
    smallPlan := h.smallPlan
    collections := by
      dsimp only
      rw [hcollections]
      exact h.collections
    requests := by
      dsimp only
      rw [hrequests]
      exact h.requests
    collectionSeq := by
      dsimp only
      rw [hcollections]
      exact h.collectionSeq
    seq := by
      dsimp only
      rw [hrequests]
      exact h.seq
    progress := by
      dsimp only
      rw [hrequests]
      exact h.progress
    collected := by
      dsimp only
      rw [hcollections]
      exact h.collected
    assigned := by
      dsimp only
      rw [hrequests]
      exact h.assigned
    earlier := h.earlier
    carried := by
      intro c hc
      apply h.carried c
      unfold Engine.carried at hc ⊢
      rw [hrt]
      exact Runtime.mem_carried_step hc
    dispatching := h.dispatching
    stored := hstored.step act
    dbTasks := by
      intro rt' heq
      cases heq
      exact htasks.step (fun resp => ⟨resp, rfl⟩) act
  }

theorem Inv.step (h : Inv plan db sys) (act : Action) : Inv plan db (sys.step plan act) := by
  cases act with
  | client env => exact h.clientStep hlinked hfit env
  | runtime act =>
    unfold Engine.step
    dsimp only
    split
    . next rt hrt => exact h.runtimeStep hrt act
    . exact h

theorem Inv.exec (h : Inv plan db sys) (acts : List Action) : Inv plan db (sys.exec plan acts) := by
  induction acts generalizing sys with
  | nil => exact h
  | cons act acts ih => exact ih (h.step hlinked hfit act)

end Run

end Engine
end HttpRuntime
