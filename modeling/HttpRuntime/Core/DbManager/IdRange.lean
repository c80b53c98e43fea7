import HttpRuntime.Core.DbManager.ClaimProgress

/-!
This module contains how row ids leave the range of an `int`: AUTOINCREMENT draws an id for every
INSERT, also for one that is then ignored.
-/

open Lib Lib.Sql

namespace HttpRuntime

section Resave

variable {Saved : Request → Prop} {req : Request} {s : Conn} {row : Nat × RequestRow}

def Conn.skips (s : Conn) (n : Nat) : Conn :=
  { s with db := { s.db with requests := s.db.requests.skips n } }

theorem dbSaveRequest_again (hurl : req.url ≠ none) (hbody : req.body ≠ none)
    (hbound : none ∉ insertRequestParams req)
    (hcoll : ∃ row ∈ s.db.collections.rows, req.collectionId = row.1)
    (hlookup : s.db.requests.lookup RequestRow.key req.boundKey = some row)
    : ((dbSaveRequest (some req)).run answer [] s).2 = s.skips 1 := by
  have hstep := stepInsertRequest_run hurl hcoll (([] : List CallEnv).drop 9 |>.headD default)
  rw [dbSaveRequest_found rfl hbound hstep hurl hbody rfl]
  have hignored : s.db.requests.insertOrIgnore RequestRow.key (requestRow req default) =
      (s.db.requests.skip, false) := Table.insertOrIgnore_of_some hlookup
  simp only [insertedRequest, List.drop_nil, List.headD_nil, hignored, Bool.false_eq_true, if_false]
  rfl

theorem Conn.Reachable.skips (h : s.Reachable Saved) (hsaved : Saved req) (hurl : req.url ≠ none)
    (hbody : req.body ≠ none) (hbound : none ∉ insertRequestParams req)
    (hcoll : ∃ row ∈ s.db.collections.rows, req.collectionId = row.1)
    (hlookup : s.db.requests.lookup RequestRow.key req.boundKey = some row) (n : Nat)
    : (s.skips n).Reachable Saved := by
  induction n with
  | zero => exact h
  | succ n ih =>
    have hagain := dbSaveRequest_again (s := s.skips n) hurl hbody hbound hcoll hlookup
    have hrun := ih.run (issued_dbSaveRequest hsaved) []
    rw [hagain] at hrun
    exact hrun

end Resave

section Examples

def otherRequest : Request := { postRequest with url := some [118] }

theorem otherRequest_wellFormed : otherRequest.WellFormed := by
  constructor <;> decide

-- A request was saved again and again before another one came.
def beforeOther : Conn := onePending.skips (2 ^ 31 - 2)

def beyondInt : Conn := ((dbSaveRequest (some otherRequest)).run answer [] beforeOther).2

theorem beyondInt_reachable : beyondInt.Reachable Request.WellFormed := by
  apply Conn.Reachable.run _ (issued_dbSaveRequest otherRequest_wellFormed)
  have hlookup : onePending.db.requests.lookup RequestRow.key postRequest.boundKey =
      some (1, requestRow postRequest default) := by decide +kernel
  exact onePending_reachable.skips postRequest_wellFormed (by decide) (by decide) (by decide +kernel)
    (by decide +kernel) hlookup _

end Examples

end HttpRuntime
