import HttpRuntime.Core.DbManager.Responses

/-!
This module contains the databases that the program can meet: those that any calls of `db_manager.c`
left behind, by this run and by earlier ones. What every one of them keeps is `Database.Valid`.
-/

open Lib Lib.Sql

namespace HttpRuntime

structure Request.WellFormed (req : Request) : Prop where
  collectionId_ge : -2 ^ 31 ≤ req.collectionId
  collectionId_lt : req.collectionId < 2 ^ 31
  url : (req.url.getD []).length = req.urlLen
  headers : (req.headers.getD []).length = req.headersLen
  body : (req.body.getD []).length = req.bodyLen

/-- The lengths are preserved by the conversion to the `int` parameters of SQLite. -/
structure Request.Short (req : Request) : Prop where
  url : req.urlLen < 2 ^ 31
  headers : req.headersLen < 2 ^ 31
  body : req.bodyLen < 2 ^ 31

def encodeRequest (req : Request) (status : Value) (createdAt : Nat) : RequestRow where
  collectionId := .integer req.collectionId
  method := .integer req.method.toInt
  url := textValue req.url req.urlLen
  urlLen := .integer req.urlLen
  headers := textValue req.headers req.headersLen
  headersLen := .integer req.headersLen
  body := blobValue (some (req.body.getD [])) req.bodyLen
  bodyLen := .integer (if req.body ≠ none then req.bodyLen else 0 : Nat)
  status := status
  createdAt := createdAt

-- What `insertRequestParams` binds when no bind is refused.
def insertRequestValues (req : Request) : List Value :=
  let row := encodeRequest req (.integer 0) 0
  [row.collectionId, row.method, row.url, row.urlLen, row.headers, row.headersLen, row.body,
    row.bodyLen]

theorem insertRequestParams_eq {req : Request} (h : none ∉ insertRequestParams req)
    : insertRequestParams req = (insertRequestValues req).map some := by
  have hurl : bindText req.url req.urlLen ≠ none := by
    intro heq
    simp [insertRequestParams, heq] at h
  have hheaders : bindText req.headers req.headersLen ≠ none := by
    intro heq
    simp [insertRequestParams, heq] at h
  have hbody : bindBlob (some (req.body.getD [])) req.bodyLen ≠ none := by
    intro heq
    simp [insertRequestParams, heq] at h
  unfold insertRequestParams
  dsimp only
  rw [bindText_of_ne_none hurl, bindText_of_ne_none hheaders, bindBlob_of_ne_none hbody]
  rfl

/-- The calls of `db_manager.c`, where only requests with `Saved` are saved. -/
inductive Issued (Saved : Request → Prop) : Call → Prop where
  | insertRequest {req : Request} (hsaved : Saved req) (hbound : none ∉ insertRequestParams req)
    : Issued Saved (.step .insertRequest (insertRequestValues req))
  | step {sql : Sql} {vs : List Value} (h : sql ≠ .insertRequest) : Issued Saved (.step sql vs)
  | other {c : Call} (h : ∀ sql vs, c ≠ .step sql vs) : Issued Saved c

/-- The states a connection can be in, after earlier connections to the same database. -/
inductive Conn.Reachable (Saved : Request → Prop) : Conn → Prop where
  | first : Reachable Saved (Conn.open .empty)
  | call {s : Conn} {c : Call} (h : Reachable Saved s) (hc : Issued Saved c) (env : CallEnv)
    : Reachable Saved (answer c env s).2
  -- closing a connection rolls an open transaction back
  | reopen {s : Conn} (h : Reachable Saved s) : Reachable Saved (Conn.open (s.saved.getD s.db))

structure Database.Valid (Saved : Request → Prop) (db : Database) : Prop where
  collections : db.collections.Unique CollectionRow.key
  requests : db.requests.Unique RequestRow.key
  encoded : ∀ row ∈ db.requests.rows, ∃ req status createdAt,
    Saved req ∧
    none ∉ insertRequestParams req ∧
    req.url ≠ none ∧
    row.2 = encodeRequest req status createdAt

def Conn.Valid (Saved : Request → Prop) (s : Conn) : Prop :=
  s.db.Valid Saved ∧ ∀ db, s.saved = some db → db.Valid Saved

section Valid

variable {Saved : Request → Prop} {s : Conn} {db : Database}

theorem Database.Valid.empty : Database.empty.Valid Saved where
  collections := List.Pairwise.nil
  requests := List.Pairwise.nil
  encoded := by simp [Database.empty, Table.empty]

theorem Database.Valid.congr {db' : Database} (h : db.Valid Saved)
    (hcollections : db'.collections = db.collections) (hrequests : db'.requests = db.requests)
    : db'.Valid Saved where
  collections := by
    rw [hcollections]
    exact h.collections
  requests := by
    rw [hrequests]
    exact h.requests
  encoded := by
    rw [hrequests]
    exact h.encoded

theorem Database.Valid.insertRequest (h : db.Valid Saved) {req : Request} (hsaved : Saved req)
    (hbound : none ∉ insertRequestParams req) (hurl : req.url ≠ none) (status : Value)
    (createdAt : Nat)
    : { db with
        requests :=
          (db.requests.insertOrIgnore RequestRow.key (encodeRequest req status createdAt)).1
      }.Valid Saved where
  collections := h.collections
  requests := h.requests.insertOrIgnore
  encoded := by
    intro row hrow
    dsimp only at hrow
    cases Table.mem_rows_insertOrIgnore hrow with
    | inl hrow => exact h.encoded row hrow
    | inr hrow =>
      rw [hrow]
      exact ⟨req, status, createdAt, hsaved, hbound, hurl, rfl⟩

theorem Database.Valid.setStatus (h : s.db.Valid Saved) (status id : Value)
    : (setStatus s status id).db.Valid Saved where
  collections := h.collections
  requests := h.requests.update (fun _ => rfl)
  encoded := by
    intro row hrow
    rcases List.mem_map.mp hrow with ⟨old, hold, heq⟩
    have ⟨req, status', createdAt, hsaved, hbound, hurl, hrowEq⟩ := h.encoded old hold
    rw [← heq]
    split
    . exact ⟨req, status, createdAt, hsaved, hbound, hurl, by rw [hrowEq]; rfl⟩
    . exact ⟨req, status', createdAt, hsaved, hbound, hurl, hrowEq⟩

theorem textValue_eq_null {p : Option Bytes} {len : Nat} : textValue p len = .null ↔ p = none := by
  cases p <;> simp [textValue]

theorem Database.Valid.stepInsertRequest (h : s.db.Valid Saved) {req : Request} (hsaved : Saved req)
    (hbound : none ∉ insertRequestParams req) (env : CallEnv)
    : (stepInsertRequest env s (insertRequestValues req)).2.db.Valid Saved := by
  unfold HttpRuntime.stepInsertRequest
  simp only [insertRequestValues]
  split
  . exact ⟨h.collections, h.requests, h.encoded⟩
  . next hurl =>
    have hne : req.url ≠ none := by
      intro heq
      exact hurl (textValue_eq_null.mpr heq)
    have hvalid := h.insertRequest hsaved hbound hne (.integer 0) env.now
    split
    . exact hvalid
    . split
      . exact hvalid
      . exact h

theorem Database.Valid.stepStatement (h : s.db.Valid Saved) {sql : Sql} {vs : List Value}
    (hissued : Issued Saved (.step sql vs)) (env : CallEnv)
    : (stepStatement env s sql vs).2.db.Valid Saved := by
  by_cases hsql : sql = .insertRequest
  . subst hsql
    cases hissued with
    | insertRequest hsaved hbound => exact h.stepInsertRequest hsaved hbound env
    | step hne => exact absurd rfl hne
    | other hne => exact absurd rfl (hne _ _)
  . generalize (HttpRuntime.stepStatement env s sql vs).2 = s', stepped_stepStatement env s sql vs = hs'
    cases hs' with
    | same => exact h
    | insertCollection t rowid ht =>
      exact ⟨(Table.Grown.of_or ht).unique h.collections, h.requests, h.encoded⟩
    | insertRequest => exact absurd rfl hsql
    | insertResponse row => exact h.congr rfl rfl
    | update sql hupdate status id => exact h.setStatus status id

theorem Conn.Valid.answer (h : s.Valid Saved) {c : Call} (hissued : Issued Saved c) (env : CallEnv)
    : (answer c env s).2.Valid Saved := by
  apply answer_keeps
  . intro cmd _
    apply execCommand_keeps
    . exact fun _ => h.1.congr rfl rfl
    . exact fun _ _ => ⟨h.1.collections, List.Pairwise.nil, by simp [Table.clear]⟩
    . exact fun _ _ => ⟨List.Pairwise.nil, h.1.requests, h.1.encoded⟩
    . exact h
  . intro sql vs heq
    rw [heq] at hissued
    exact h.1.stepStatement hissued env
  . exact h

theorem Conn.Reachable.valid (h : s.Reachable Saved) : s.Valid Saved := by
  induction h with
  | first => exact ⟨Database.Valid.empty, by simp [Conn.open]⟩
  | call _ hc env ih => exact ih.answer hc env
  | reopen _ ih => exact ⟨reopen_keeps ih, by simp [Conn.open]⟩

theorem Database.Valid.size_le (h : db.Valid Saved) {row : Nat × RequestRow}
    (hrow : row ∈ db.requests.rows)
    : row.2.url.size ≤ sqliteMaxLength ∧ row.2.body.size ≤ sqliteMaxLength := by
  have ⟨req, status, createdAt, _, hbound, _, heq⟩ := h.encoded row hrow
  rw [heq]
  constructor
  . apply Nat.le_of_not_lt
    intro hlt
    simp [insertRequestParams, bindText, show (textValue req.url req.urlLen).size > _ from hlt] at hbound
  . apply Nat.le_of_not_lt
    intro hlt
    simp [insertRequestParams, bindBlob,
      show (blobValue (some (req.body.getD [])) req.bodyLen).size > _ from hlt] at hbound

end Valid

section Calls

variable {α : Type} {Saved : Request → Prop}

theorem issued_of_usesOnly {sqls : List Sql} (hsqls : .insertRequest ∉ sqls) {c : Call}
    (h : UsesOnly sqls c) : Issued Saved c := by
  cases c with
  | exec cmd => cases h
  | step sql vs =>
    apply Issued.step
    intro heq
    exact hsqls (heq ▸ h)
  | prepare sql => exact Issued.other (by simp)
  | bind param => exact Issued.other (by simp)
  | lastInsertRowid => exact Issued.other (by simp)
  | malloc => exact Issued.other (by simp)

theorem issued_dbSaveCollection (coll : Option Collection)
    : (dbSaveCollection coll).Calls (Issued Saved) :=
  (calls_dbSaveCollection coll).mono (fun _ => issued_of_usesOnly (by decide))

theorem issued_dbSaveResponse (resp : Option Response)
    : (dbSaveResponse resp).Calls (Issued Saved) :=
  (calls_dbSaveResponse resp).mono (fun _ => issued_of_usesOnly (by decide))

theorem map_some_inj {vs vs' : List Value} (h : vs.map some = vs'.map some) : vs = vs' :=
  List.map_injective_iff.mpr (Option.some_injective _) h

theorem issued_dbSaveRequest {req : Request} (hsaved : Saved req)
    : (dbSaveRequest (some req)).Calls (Issued Saved) := by
  apply calls_statement
  . intro p
    exact Issued.other (by simp)
  . intro sql
    exact Issued.other (by simp)
  . intro vs hvs
    have hbound : none ∉ insertRequestParams req := by
      rw [hvs]
      simp
    rw [insertRequestParams_eq hbound] at hvs
    rw [← map_some_inj hvs]
    exact Issued.insertRequest hsaved hbound
  . trivial
  . intro r
    split
    . apply calls_statement
      . intro p
        exact Issued.other (by simp)
      . intro sql
        exact Issued.other (by simp)
      . intro vs _
        exact Issued.step (by decide)
      . trivial
      . intro r
        split <;> trivial
    . trivial

theorem issued_dbUpdateRequestStatus (id status : Int)
    : (dbUpdateRequestStatus id status).Calls (Issued Saved) :=
  (calls_dbUpdateRequestStatus id status).mono (fun _ => issued_of_usesOnly (by decide))

theorem issued_dbGetNextPendingRequest : dbGetNextPendingRequest.Calls (Issued Saved) := by
  have hexec (cmd : Command) : Issued Saved (.exec cmd) := Issued.other (by simp)
  have hstatement {α : Type} {sql : Sql} (hsql : sql ≠ .insertRequest) {params : List (Option Value)}
      {failure : DbProg α} (hfailure : failure.Calls (Issued Saved)) {k : Reply → DbProg α}
      (hk : ∀ r, (k r).Calls (Issued Saved)) : (statement sql params failure k).Calls (Issued Saved) :=
    calls_statement (fun _ => .other (by simp)) (fun _ => .other (by simp)) (fun _ _ => .step hsql)
      hfailure hk
  have hrollback (out : Outcome (Option Request)) :
      (Prog.call (.exec .rollback) fun _ => .ret out : DbProg (Outcome (Option Request))).Calls
        (Issued Saved) := ⟨hexec .rollback, fun _ => trivial⟩
  refine ⟨hexec .beginImmediate, ?_⟩
  intro r
  dsimp only
  split
  . apply hstatement (by decide) (hrollback _)
    intro r
    split
    . apply calls_mapRowToRequest (Issued.other (by simp)) (hrollback _)
      intro req
      split
      . exact hrollback _
      . apply hstatement (by decide) (hrollback _)
        intro r
        split
        . exact ⟨hexec .commit, fun _ => trivial⟩
        . exact hrollback _
    . exact hrollback _
  . trivial

/-- Whole functions of `db_manager.c` lead from reachable states to reachable states. -/
theorem Conn.Reachable.run {s : Conn} (h : s.Reachable Saved) {p : DbProg α}
    (hp : p.Calls (Issued Saved)) (es : List CallEnv) : (p.run answer es s).2.Reachable Saved := by
  apply hp.run _ es h
  intro c env s hc hs
  exact hs.call hc env

end Calls

end HttpRuntime
