import HttpRuntime.Core.DbManager.Lemmas

/-!
This module contains what the functions of `db_manager.c` do to the responses table: only
`db_save_response` adds a row, and every other function leaves the table alone.
-/

open Lib Lib.Sql

namespace HttpRuntime

variable {α : Type} {s : Conn}

theorem responses_answer {sqls : List Sql} (hsqls : .insertResponse ∉ sqls) {c : Call}
    (hc : UsesOnly sqls c) (env : CallEnv) : (answer c env s).2.db.responses = s.db.responses := by
  unfold answer
  split
  . rfl
  . cases hc
  . split <;> rfl
  . rfl
  . split <;> rfl
  . next sql vs =>
    split
    . rfl
    . apply (stepped_stepStatement env s sql vs).responses
      intro heq
      exact hsqls (heq ▸ hc)
  . split <;> rfl

theorem responses_run {sqls : List Sql} (hsqls : .insertResponse ∉ sqls) {p : DbProg α}
    (hp : p.Calls (UsesOnly sqls)) (es : List CallEnv)
    : (p.run answer es s).2.db.responses = s.db.responses := by
  refine Prog.Calls.run (I := fun s' : Conn => s'.db.responses = s.db.responses) ?_ hp es rfl
  intro c env s' hc hs'
  rw [responses_answer hsqls hc, hs']

def responseRow (resp : Response) (createdAt : Nat) : ResponseRow where
  requestId := .integer resp.requestId
  statusCode := .integer resp.statusCode
  result := .integer resp.result.toInt
  duration := (bindDouble resp.duration).getD .null
  headers := textValue resp.headers ((resp.headers.map strlen).getD 0)
  body := if resp.body ≠ none ∧ resp.bodyLen > 0 then blobValue resp.body resp.bodyLen else .null
  bodyLen := .integer resp.bodyLen
  contentType := textValue resp.contentType ((resp.contentType.map strlen).getD 0)
  createdAt := createdAt

def responseValues (resp : Response) : List Value :=
  let row := responseRow resp 0
  [row.requestId, row.statusCode, row.result, row.duration, row.headers, row.contentType, row.body,
    row.bodyLen]

theorem bindText_of_ne_none {p : Option Bytes} {len : Nat} (h : bindText p len ≠ none)
    : bindText p len = some (textValue p len) := by
  unfold bindText at h ⊢
  split at h
  . exact absurd rfl h
  . next hsize => rw [if_neg hsize]

theorem bindBlob_of_ne_none {p : Option Bytes} {len : Nat} (h : bindBlob p len ≠ none)
    : bindBlob p len = some (blobValue p len) := by
  unfold bindBlob at h ⊢
  split at h
  . exact absurd rfl h
  . next hsize => rw [if_neg hsize]

theorem bindDouble_eq (bits : UInt64) : bindDouble bits = some ((bindDouble bits).getD .null) := by
  unfold bindDouble
  split <;> [skip; split]
  all_goals rfl

theorem responseParams_eq {resp : Response} (h : none ∉ responseParams resp)
    : responseParams resp = (responseValues resp).map some := by
  have hheaders : bindText resp.headers ((resp.headers.map strlen).getD 0) ≠ none := by
    intro heq
    simp [responseParams, heq] at h
  have hcontentType : bindText resp.contentType ((resp.contentType.map strlen).getD 0) ≠ none := by
    intro heq
    simp [responseParams, heq] at h
  have hbody :
      (if resp.body ≠ none ∧ resp.bodyLen > 0 then bindBlob resp.body resp.bodyLen else some .null) =
        some (responseRow resp 0).body := by
    unfold responseRow
    dsimp only
    split
    . next hif =>
      apply bindBlob_of_ne_none
      intro heq
      simp [responseParams, heq, hif] at h
    . rfl
  unfold responseParams
  rw [hbody, bindText_of_ne_none hheaders, bindText_of_ne_none hcontentType, bindDouble_eq]
  rfl

def HasRequest (db : Database) (requestId : Int) : Prop :=
  ∃ row ∈ db.requests.rows, requestId = row.1

instance (db : Database) (requestId : Int) : Decidable (HasRequest db requestId) :=
  inferInstanceAs (Decidable (∃ row ∈ db.requests.rows, requestId = row.1))

-- The state after the INSERT.
def insertedResponse (s : Conn) (resp : Response) (env : CallEnv) : Conn :=
  {
    s with
    db := { s.db with responses := s.db.responses.insert (responseRow resp env.now) }
    lastRowid := s.db.responses.seq + 1
  }

theorem stepInsertResponse_run (s : Conn) (resp : Response) (env : CallEnv)
    : stepInsertResponse env s (responseValues resp) =
        if HasRequest s.db resp.requestId then (.done, insertedResponse s resp env)
        else (.error, s) := by
  have hfk : (responseRow resp 0).requestId = .null ∨
      s.db.requests.rows.any (fun r => (responseRow resp 0).requestId = .integer r.1) = true ↔
        HasRequest s.db resp.requestId := by
    simp [responseRow, HasRequest]
  unfold stepInsertResponse responseValues
  dsimp only
  by_cases hhas : HasRequest s.db resp.requestId
  . rw [if_pos (hfk.mpr hhas), if_pos hhas]
    rfl
  . rw [if_neg (fun h => hhas (hfk.mp h)), if_neg hhas]

variable {resp : Response} {es : List CallEnv}

theorem dbSaveResponse_not_calm (h : calm 10 es = false ∨ none ∈ responseParams resp)
    : (dbSaveResponse (some resp)).run answer es s = ((sqliteError, some resp), s) := by
  unfold dbSaveResponse
  apply run_statement_of_not_calm
  . exact h
  . rfl

theorem dbSaveResponse_of_calm (hcalm : calm 10 es = true) (hbound : none ∉ responseParams resp)
    : (dbSaveResponse (some resp)).run answer es s =
        if HasRequest s.db resp.requestId then
          ((sqliteOk, some { resp with id := Lib.toInt (s.db.responses.seq + 1 : Nat) }),
            insertedResponse s resp ((es.drop 9).headD default))
        else
          ((sqliteError, some resp), s) := by
  unfold dbSaveResponse
  dsimp only
  rw [run_statement_of_calm (responseParams_eq hbound) hcalm]
  have hlength : (responseValues resp).length = 8 := rfl
  simp only [hlength, stepStatement]
  rw [stepInsertResponse_run]
  by_cases hhas : HasRequest s.db resp.requestId
  . rw [if_pos hhas, if_pos hhas]
    rfl
  . rw [if_neg hhas, if_neg hhas]
    rfl

theorem dbSaveResponse_cases (resp : Response) (es : List CallEnv) (s : Conn)
    : (dbSaveResponse (some resp)).run answer es s = ((sqliteError, some resp), s) ∨
        ∃ env,
          HasRequest s.db resp.requestId ∧
          (dbSaveResponse (some resp)).run answer es s =
            ((sqliteOk, some { resp with id := Lib.toInt (s.db.responses.seq + 1 : Nat) }),
              insertedResponse s resp env) := by
  by_cases h : calm 10 es = true ∧ none ∉ responseParams resp
  . rw [dbSaveResponse_of_calm h.1 h.2]
    by_cases hhas : HasRequest s.db resp.requestId
    . rw [if_pos hhas]
      exact Or.inr ⟨_, hhas, rfl⟩
    . rw [if_neg hhas]
      exact Or.inl rfl
  . left
    rw [not_and_or, Bool.not_eq_true, not_not] at h
    exact dbSaveResponse_not_calm h

section Transaction

variable {s₀ : Conn}

-- The responses are those of `s₀`, and a rollback would leave them so.
def KeepsResponses (s₀ s : Conn) : Prop :=
  s.db.responses = s₀.db.responses ∧ ∀ db, s.saved = some db → db.responses = s₀.db.responses

-- The calls inside the transaction of `db_get_next_pending_request`.
def InTransaction (c : Call) : Prop :=
  UsesOnly [.selectPendingRequest, .updateRequestClaimed] c ∨ c = .exec .commit ∨
    c = .exec .rollback

theorem KeepsResponses.answer (h : KeepsResponses s₀ s) {c : Call} (hc : InTransaction c)
    (env : CallEnv) : KeepsResponses s₀ (answer c env s).2 := by
  apply answer_keeps (P := fun db => db.responses = s₀.db.responses)
  . intro cmd heq
    rw [heq] at hc
    refine execCommand_keeps_of_transactional (P := fun db => db.responses = _) ?_ h
    rcases hc with hc | hc | hc
    . cases hc
    . cases hc
      exact Or.inr (Or.inl rfl)
    . cases hc
      exact Or.inr (Or.inr rfl)
  . intro sql vs heq
    have hsql : sql ≠ .insertResponse := by
      intro hinsert
      rw [heq, hinsert] at hc
      rcases hc with hc | hc | hc
      . simp [UsesOnly] at hc
      . cases hc
      . cases hc
    exact ((stepped_stepStatement env s sql vs).responses hsql).trans h.1
  . exact h

theorem calls_inTransaction_statement {sql : Sql}
    (hsql : sql ∈ [Sql.selectPendingRequest, .updateRequestClaimed]) {params : List (Option Value)}
    {failure : DbProg α} (hfailure : failure.Calls InTransaction) {k : Reply → DbProg α}
    (hk : ∀ r, (k r).Calls InTransaction) : (statement sql params failure k).Calls InTransaction :=
  calls_statement (fun _ => Or.inl trivial) (fun _ => Or.inl trivial) (fun _ _ => Or.inl hsql)
    hfailure hk

theorem responses_dbGetNextPendingRequest (es : List CallEnv) (s : Conn)
    : (dbGetNextPendingRequest.run answer es s).2.db.responses = s.db.responses := by
  have hrollback (out : Outcome (Option Request)) :
      (Prog.call (.exec .rollback) fun _ => .ret out : DbProg (Outcome (Option Request))).Calls
        InTransaction := ⟨Or.inr (Or.inr rfl), fun _ => trivial⟩
  unfold dbGetNextPendingRequest
  dsimp only
  rw [Prog.run_call]
  rcases answer_beginImmediate (es.headD default) s with hbegin | hbegin
  . rw [hbegin]
    dsimp only
    have hkeeps : KeepsResponses s { s with saved := some s.db } := by
      refine ⟨rfl, ?_⟩
      intro db hdb
      rw [Option.some.injEq] at hdb
      rw [← hdb]
    refine (Prog.Calls.run (P := InTransaction) (I := KeepsResponses s) ?_ ?_ es.tail hkeeps).1
    . intro c env s' hc h
      exact h.answer hc env
    . apply calls_inTransaction_statement (by decide) (hrollback _)
      intro r
      split
      . apply calls_mapRowToRequest (Or.inl trivial) (hrollback _)
        intro req
        split
        . exact hrollback _
        . apply calls_inTransaction_statement (by decide) (hrollback _)
          intro r
          split
          . exact ⟨Or.inr (Or.inl rfl), fun _ => trivial⟩
          . exact hrollback _
      . exact hrollback _
  . rw [hbegin]
    rfl

end Transaction

end HttpRuntime
