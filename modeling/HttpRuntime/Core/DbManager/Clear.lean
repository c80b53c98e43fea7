import HttpRuntime.Core.DbManager.ForeignKeys
import HttpRuntime.Core.DbManager.ResponseStore
import HttpRuntime.Core.DbManager.SaveRequest

/-!
This module contains what `db_clear_all` leaves behind: empty tables, and ids that no later call of any
thread brings back.
-/

open Lib Lib.Sql

namespace HttpRuntime

structure Database.After (db db' : Database) : Prop where
  collections : db.collections.After db'.collections
  requests : db.requests.After db'.requests
  responses : db.responses.After db'.responses

def Conn.After (db : Database) (s : Conn) : Prop :=
  db.After s.db ∧ ∀ saved, s.saved = some saved → db.After saved

section After

variable {db db' db'' : Database} {s s' : Conn}

theorem Database.After.refl (db : Database) : db.After db where
  collections := Table.After.refl _
  requests := Table.After.refl _
  responses := Table.After.refl _

theorem Database.After.trans (h : db.After db') (h' : db'.After db'') : db.After db'' where
  collections := h.collections.trans h'.collections
  requests := h.requests.trans h'.requests
  responses := h.responses.trans h'.responses

theorem Stepped.after {sql : Sql} (h : Stepped s sql s') : s.db.After s'.db := by
  have hrefl := Database.After.refl s.db
  cases h with
  | same => exact hrefl
  | insertCollection t rowid ht => exact { hrefl with collections := (Table.Grown.of_or ht).after }
  | insertRequest t rowid ht => exact { hrefl with requests := (Table.Grown.of_or ht).after }
  | insertResponse row => exact { hrefl with responses := Table.after_insert _ row }
  | update _ _ status id =>
    exact { hrefl with
      requests := Table.after_update s.db.requests (fun r => id.same (.integer r.1))
        (fun r => { r with status := status }) }

theorem Conn.After.answer (h : s.After db) (c : Call) (env : CallEnv) : (answer c env s).2.After db := by
  have hrefl := Database.After.refl s.db
  apply answer_keeps
  . intro cmd _
    apply execCommand_keeps
    . exact fun _ => h.1.trans { hrefl with responses := Table.after_clear _ }
    . exact fun _ _ => h.1.trans { hrefl with requests := Table.after_clear _ }
    . exact fun _ _ => h.1.trans { hrefl with collections := Table.after_clear _ }
    . exact h
  . intro sql vs _
    exact h.1.trans (stepped_stepStatement env s sql vs).after
  . exact h

end After

-- All tables are empty, and the counters of AUTOINCREMENT stay.
def Database.cleared (db : Database) : Database where
  collections := db.collections.clear
  requests := db.requests.clear
  responses := db.responses.clear

section Clear

variable {s : Conn} {es : List CallEnv}

theorem run_dbClearAll (hcalm : calm 3 es = true) (s : Conn)
    : dbClearAll.run answer es s = (sqliteOk, { s with db := s.db.cleared }) := by
  rw [calm_succ, calm_succ, calm_succ, calm_zero] at hcalm
  simp only [Bool.and_true, Bool.and_eq_true, Bool.not_eq_true'] at hcalm
  obtain ⟨hresponses, hrequests, hcollections⟩ := hcalm
  unfold dbClearAll
  simp only [Prog.run_call, answer, hresponses, hrequests, hcollections, Bool.false_eq_true, if_false]
  simp [execCommand, Table.clear, Database.cleared]

/-- What can be said of the ids that were handed out before a clear. -/
structure Forgotten (old : Database) (s : Conn) : Prop where
  collection_ids : ∀ row ∈ s.db.collections.rows, old.collections.seq < row.1
  request_ids : ∀ row ∈ s.db.requests.rows, old.requests.seq < row.1
  response_ids : ∀ row ∈ s.db.responses.rows, old.responses.seq < row.1
  no_response : ∀ id : Nat, id ≤ old.requests.seq → ∀ es,
    (dbGetLatestResponseByRequestId id).run answer es s = (none, s)
  no_count : ∀ id : Nat, id ≤ old.requests.seq → ∀ es, calm 3 es = true →
    (dbCountResponsesByRequestId id).run answer es s = (0, s)
  no_update : ∀ id : Nat, id ≤ old.requests.seq → ∀ status es,
    ((dbUpdateRequestStatus id status).run answer es s).2 = s
  no_response_saved : ∀ resp : Response, ∀ id : Nat, resp.requestId = id → id ≤ old.requests.seq → ∀ es,
    (dbSaveResponse (some resp)).run answer es s = ((sqliteError, some resp), s)
  no_request_saved : ∀ req : Request, ∀ id : Nat, req.collectionId = id → id ≤ old.collections.seq →
    req.url ≠ none → ∀ es, ((dbSaveRequest (some req)).run answer es s).1.1 ≠ sqliteOk

section Absent

variable {id : Int} (habsent : ¬HasRequest s.db id)

include habsent

theorem setStatus_of_absent (status : Value) : setStatus s status (.integer id) = s := by
  have hupdate := Table.update_of_forall_false (t := s.db.requests)
    (p := fun r => (Value.integer id).same (.integer r.1)) ?_ (fun r => { r with status := status })
  . unfold setStatus
    rw [hupdate]
  . intro row hrow
    rw [Bool.eq_false_iff]
    intro hsame
    have heq := (Value.same_iff.mp hsame).1
    simp only [Value.integer.injEq] at heq
    exact habsent ⟨row, hrow, heq⟩

theorem responsesOf_of_absent (hlinked : s.db.Linked) : responsesOf s.db (.integer id) = [] := by
  unfold responsesOf
  rw [List.filter_eq_nil_iff]
  intro row hrow hsame
  have heq := (Value.same_iff.mp hsame).1
  cases hlinked.responses row hrow with
  | inl hnull =>
    rw [hnull] at heq
    cases heq
  | inr hrefers =>
    obtain ⟨req, hreq, hid⟩ := hrefers
    rw [hid] at heq
    simp only [Value.integer.injEq] at heq
    exact habsent ⟨req, hreq, heq.symm⟩

theorem dbGetLatestResponse_of_absent (hlinked : s.db.Linked) (es : List CallEnv)
    : (dbGetLatestResponseByRequestId id).run answer es s = (none, s) := by
  rw [run_dbGetLatestResponseByRequestId, latestResponse, responsesOf_of_absent habsent hlinked]
  rfl

theorem dbCountResponses_of_absent (hlinked : s.db.Linked) {es : List CallEnv} (hcalm : calm 3 es = true)
    : (dbCountResponsesByRequestId id).run answer es s = (0, s) := by
  rw [run_dbCountResponsesByRequestId id hcalm, responsesOf_of_absent habsent hlinked]
  rfl

theorem dbUpdateRequestStatus_of_absent (status : Int) (es : List CallEnv)
    : ((dbUpdateRequestStatus id status).run answer es s).2 = s := by
  have hparams : [bindInt status, bindInt id] = [Value.integer status, .integer id].map some := rfl
  have hcalls : (dbUpdateRequestStatus id status).Calls (fun c => ∀ env, (answer c env s).2 = s) := by
    apply calls_statement
    . exact fun _ _ => state_answer _ _ (by simp) (by simp)
    . exact fun _ _ => state_answer _ _ (by simp) (by simp)
    . intro vs hvs env
      rw [← map_some_inj (hparams.symm.trans hvs)]
      simp only [answer, stepStatement]
      split
      . rfl
      . exact setStatus_of_absent habsent _
    . trivial
    . intro r
      split <;> trivial
  apply hcalls.run (I := fun t => t = s)
  . intro c env t hc ht
    rw [ht]
    exact hc env
  . rfl

theorem dbSaveResponse_of_absent (resp : Response) (hid : resp.requestId = id) (es : List CallEnv)
    : (dbSaveResponse (some resp)).run answer es s = ((sqliteError, some resp), s) := by
  cases dbSaveResponse_cases resp es s with
  | inl hrun => exact hrun
  | inr hrun =>
    obtain ⟨_, hhas, _⟩ := hrun
    rw [hid] at hhas
    exact absurd hhas habsent

end Absent

/-- A request that is stored refers to a collection that is. -/
theorem collection_of_dbSaveRequest_ok {req : Request} (hlinked : s.Linked) (hurl : req.url ≠ none)
    (hok : ((dbSaveRequest (some req)).run answer es s).1.1 = sqliteOk)
    : ∃ row ∈ s.db.collections.rows, req.collectionId = row.1 := by
  obtain ⟨env, _, _, hrun⟩ := dbSaveRequest_ok hurl hok
  have hkept : ((dbSaveRequest (some req)).run answer es s).2.Linked :=
    Prog.run_keeps (I := Conn.Linked) (fun c env _ h => h.answer c env) _ es hlinked
  rw [hrun] at hkept
  have hlookup := lookup_insertedRequest (s := s) hurl env
  have hkey := (Table.key_of_lookup hlookup).1
  rw [boundKey_eq hurl, RequestRow.key, List.cons.injEq] at hkey
  have hrefers := hkept.1.requests _ (Table.mem_of_lookup hlookup)
  rw [hkey.1] at hrefers
  cases hrefers with
  | inl hnull => cases hnull
  | inr hrow =>
    obtain ⟨row, hrow, hid⟩ := hrow
    simp only [Value.integer.injEq] at hid
    exact ⟨row, hrow, hid⟩

theorem Conn.After.forgotten {old : Database} (h : s.After old.cleared) (hlinked : s.Linked)
    : Forgotten old s := by
  have hcollections : ∀ row ∈ s.db.collections.rows, old.collections.seq < row.1 :=
    fun _ => h.1.collections.lt_of_rows_nil rfl
  have hrequests : ∀ row ∈ s.db.requests.rows, old.requests.seq < row.1 :=
    fun _ => h.1.requests.lt_of_rows_nil rfl
  have habsent : ∀ id : Nat, id ≤ old.requests.seq → ¬HasRequest s.db id := by
    rintro id hid ⟨row, hrow, heq⟩
    have hlt := hrequests row hrow
    omega
  exact {
    collection_ids := hcollections
    request_ids := hrequests
    response_ids := fun _ => h.1.responses.lt_of_rows_nil rfl
    no_response := fun id hid => dbGetLatestResponse_of_absent (habsent id hid) hlinked.1
    no_count := fun id hid _ => dbCountResponses_of_absent (habsent id hid) hlinked.1
    no_update := fun id hid => dbUpdateRequestStatus_of_absent (habsent id hid)
    no_response_saved := fun resp id heq hid => dbSaveResponse_of_absent (habsent id hid) resp heq
    no_request_saved := by
      intro req id heq hid hurl es hok
      obtain ⟨row, hrow, hrowId⟩ := collection_of_dbSaveRequest_ok hlinked hurl hok
      have hlt := hcollections row hrow
      omega
  }

-- One thread saves the collection anew while another one already prepares its request in it.
def saveAgain (i : Fin 2) : DbProg Int :=
  if i = 0 then
    (dbSaveCollection (some { id := 0, name := some [99], nameLen := 1 })).map Prod.fst
  else
    (dbSaveRequest (some { postRequest with collectionId := 2 })).map Prod.fst

def saveAgainSched : List (Fin 2 × CallEnv) :=
  List.replicate 9 (1, default) ++ List.replicate 7 (0, default) ++ List.replicate 7 (1, default)

end Clear

end HttpRuntime
