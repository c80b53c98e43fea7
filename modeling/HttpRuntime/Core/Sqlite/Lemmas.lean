import HttpRuntime.Core.Sqlite.Basic

/-!
This module contains what one SQLite call can do to the connection. Everything else that is proved
about calls is derived from `stepped_stepStatement`.
-/

open Lib Lib.Sql

namespace HttpRuntime

inductive Stepped (s : Conn) : Sql → Conn → Prop where
  | same (sql : Sql) : Stepped s sql s
  | insertCollection (t : Table CollectionRow) (rowid : Nat)
    (h : t = s.db.collections.skip ∨
      ∃ row, t = (s.db.collections.insertOrIgnore CollectionRow.key row).1)
    : Stepped s .insertCollection { s with db := { s.db with collections := t }, lastRowid := rowid }
  | insertRequest (t : Table RequestRow) (rowid : Nat)
    (h : t = s.db.requests.skip ∨ ∃ row, t = (s.db.requests.insertOrIgnore RequestRow.key row).1)
    : Stepped s .insertRequest { s with db := { s.db with requests := t }, lastRowid := rowid }
  | insertResponse (row : ResponseRow)
    : Stepped s .insertResponse {
        s with
        db := { s.db with responses := s.db.responses.insert row }
        lastRowid := s.db.responses.seq + 1
      }
  | update (sql : Sql) (h : sql = .updateRequestClaimed ∨ sql = .updateRequestStatus)
    (status id : Value) : Stepped s sql (setStatus s status id)

theorem stepped_stepInsertCollection (s : Conn) (vs : List Value)
    : Stepped s .insertCollection (stepInsertCollection s vs).2 := by
  unfold stepInsertCollection
  split
  . split
    . exact Stepped.insertCollection _ _ (Or.inl rfl)
    . exact Stepped.insertCollection _ _ (Or.inr ⟨_, rfl⟩)
  . exact Stepped.same _

theorem stepped_stepInsertRequest (env : CallEnv) (s : Conn) (vs : List Value)
    : Stepped s .insertRequest (stepInsertRequest env s vs).2 := by
  unfold stepInsertRequest
  split
  . split
    . exact Stepped.insertRequest _ _ (Or.inl rfl)
    . dsimp only
      split
      . exact Stepped.insertRequest _ _ (Or.inr ⟨_, rfl⟩)
      . split
        . exact Stepped.insertRequest _ _ (Or.inr ⟨_, rfl⟩)
        . exact Stepped.same _
  . exact Stepped.same _

theorem stepped_stepInsertResponse (env : CallEnv) (s : Conn) (vs : List Value)
    : Stepped s .insertResponse (stepInsertResponse env s vs).2 := by
  unfold stepInsertResponse
  split
  . split
    . exact Stepped.insertResponse _
    . exact Stepped.same _
  . exact Stepped.same _

theorem stepped_stepStatement (env : CallEnv) (s : Conn) (sql : Sql) (vs : List Value)
    : Stepped s sql (stepStatement env s sql vs).2 := by
  cases sql with
  | insertCollection => exact stepped_stepInsertCollection s vs
  | insertRequest => exact stepped_stepInsertRequest env s vs
  | insertResponse => exact stepped_stepInsertResponse env s vs
  | updateRequestClaimed =>
    simp only [stepStatement]
    split
    . exact Stepped.update _ (Or.inl rfl) _ _
    . exact Stepped.same _
  | updateRequestStatus =>
    simp only [stepStatement]
    split
    . exact Stepped.update _ (Or.inr rfl) _ _
    . exact Stepped.same _
  | countResponses =>
    simp only [stepStatement]
    split <;> exact Stepped.same _
  | selectCollectionId => exact Stepped.same _
  | selectRequestId => exact Stepped.same _
  | selectPendingRequest => exact Stepped.same _
  | selectLatestResponse => exact Stepped.same _

section Stepped

variable {s s' : Conn} {sql : Sql}

theorem Stepped.saved (h : Stepped s sql s') : s'.saved = s.saved := by
  cases h <;> rfl

theorem Stepped.responses (h : Stepped s sql s') (hsql : sql ≠ .insertResponse)
    : s'.db.responses = s.db.responses := by
  cases h with
  | insertResponse => exact absurd rfl hsql
  | same => rfl
  | insertCollection => rfl
  | insertRequest => rfl
  | update => rfl

theorem Stepped.requests (h : Stepped s sql s')
    (hsql : sql = .insertCollection ∨ sql = .insertResponse)
    : s'.db.requests = s.db.requests := by
  cases h with
  | insertRequest => simp at hsql
  | update sql hupdate =>
    rcases hupdate with hupdate | hupdate
    all_goals simp [hupdate] at hsql
  | same => rfl
  | insertCollection => rfl
  | insertResponse => rfl

theorem Stepped.collections (h : Stepped s sql s') (hsql : sql ≠ .insertCollection)
    : s'.db.collections = s.db.collections := by
  cases h with
  | insertCollection => exact absurd rfl hsql
  | same => rfl
  | insertRequest => rfl
  | insertResponse => rfl
  | update => rfl

end Stepped

theorem saved_stepStatement (env : CallEnv) (s : Conn) (sql : Sql) (vs : List Value)
    : (stepStatement env s sql vs).2.saved = s.saved :=
  (stepped_stepStatement env s sql vs).saved

section Answer

variable {c : Call} (env : CallEnv) (s : Conn)

theorem state_answer (hexec : ∀ cmd, c ≠ .exec cmd) (hstep : ∀ sql vs, c ≠ .step sql vs)
    : (answer c env s).2 = s := by
  unfold answer
  split
  . rfl
  . exact absurd rfl (hexec _)
  . split <;> rfl
  . rfl
  . split <;> rfl
  . exact absurd rfl (hstep _ _)
  . split <;> rfl

theorem answer_congr (hexec : ∀ cmd, c ≠ .exec cmd) (hstep : ∀ sql vs, c ≠ .step sql vs)
    (hrowid : c ≠ .lastInsertRowid) (s' : Conn)
    : answer c env s' = ((answer c env s).1, s') := by
  unfold answer
  split
  . exact absurd rfl hrowid
  . exact absurd rfl (hexec _)
  . split <;> rfl
  . rfl
  . split <;> rfl
  . exact absurd rfl (hstep _ _)
  . split <;> rfl

theorem answer_beginImmediate
    : answer (.exec .beginImmediate) env s = (.ok, { s with saved := some s.db }) ∨
        answer (.exec .beginImmediate) env s = (.error, s) := by
  simp only [answer]
  split
  . exact Or.inr rfl
  . unfold execCommand
    cases s.saved with
    | none => exact Or.inl rfl
    | some db => exact Or.inr rfl

end Answer

section Keeps

variable {P : Database → Prop} {s : Conn}

-- BEGIN copies a database that satisfies `P`, and ROLLBACK brings the copy back.
theorem execCommand_keeps {cmd : Command}
    (hresponses : cmd = .deleteResponses → P { s.db with responses := s.db.responses.clear })
    (hrequests : cmd = .deleteRequests →
      s.db.responses.rows.all (fun r => r.2.requestId = .null) = true →
      P { s.db with requests := s.db.requests.clear })
    (hcollections : cmd = .deleteCollections →
      s.db.requests.rows.all (fun r => r.2.collectionId = .null) = true →
      P { s.db with collections := s.db.collections.clear })
    (h : P s.db ∧ ∀ db, s.saved = some db → P db)
    : P (execCommand s cmd).2.db ∧ ∀ db, (execCommand s cmd).2.saved = some db → P db := by
  unfold execCommand
  split
  . refine ⟨h.1, ?_⟩
    intro db hdb
    simp only [Option.some.injEq] at hdb
    rw [← hdb]
    exact h.1
  . exact ⟨h.1, by simp⟩
  . next db hsaved => exact ⟨h.2 db hsaved, by simp⟩
  . exact h
  . exact h
  . exact h
  . exact ⟨hresponses rfl, h.2⟩
  . split
    . next hnull => exact ⟨hrequests rfl hnull, h.2⟩
    . exact h
  . split
    . next hnull => exact ⟨hcollections rfl hnull, h.2⟩
    . exact h

theorem execCommand_keeps_of_transactional {cmd : Command}
    (hcmd : cmd = .beginImmediate ∨ cmd = .commit ∨ cmd = .rollback)
    (h : P s.db ∧ ∀ db, s.saved = some db → P db)
    : P (execCommand s cmd).2.db ∧ ∀ db, (execCommand s cmd).2.saved = some db → P db := by
  apply execCommand_keeps
  . intro heq
    simp [heq] at hcmd
  . intro heq
    simp [heq] at hcmd
  . intro heq
    simp [heq] at hcmd
  . exact h

theorem answer_keeps {c : Call} {env : CallEnv}
    (hexec : ∀ cmd, c = .exec cmd →
      P (execCommand s cmd).2.db ∧ ∀ db, (execCommand s cmd).2.saved = some db → P db)
    (hstep : ∀ sql vs, c = .step sql vs → P (stepStatement env s sql vs).2.db)
    (h : P s.db ∧ ∀ db, s.saved = some db → P db)
    : P (answer c env s).2.db ∧ ∀ db, (answer c env s).2.saved = some db → P db := by
  unfold answer
  split
  . exact h
  . split
    . exact h
    . exact hexec _ rfl
  . split <;> exact h
  . exact h
  . split <;> exact h
  . split
    . exact h
    . refine ⟨hstep _ _ rfl, ?_⟩
      rw [saved_stepStatement]
      exact h.2
  . split <;> exact h

-- Closing a connection rolls its transaction back.
theorem reopen_keeps (h : P s.db ∧ ∀ db, s.saved = some db → P db) : P (s.saved.getD s.db) := by
  cases hsaved : s.saved with
  | none => exact h.1
  | some db => exact h.2 db hsaved

end Keeps

end HttpRuntime
