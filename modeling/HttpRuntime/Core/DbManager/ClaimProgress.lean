import HttpRuntime.Core.DbManager.ClaimAtomic

/-!
This module contains when a claim makes progress: which row it takes from the pending ones, and when
repeated claims leave none.
-/

open Lib Lib.Sql

namespace HttpRuntime

/--
The rows that `map_row_to_request` decodes: it wants a URL, and a length that did not fit in an `int`
when the row was saved is beyond what the column holds.
-/
def RequestRow.Decodable (row : RequestRow) : Prop :=
  columnLen row.urlLen ≠ 0 ∧
    columnLen row.urlLen < 2 ^ 31 ∧
    columnLen row.headersLen < 2 ^ 31 ∧
    columnLen row.bodyLen < 2 ^ 31

instance (row : RequestRow) : Decidable row.Decodable :=
  inferInstanceAs (Decidable (_ ∧ _))

theorem decodes_iff {db : Database} {row : Nat × RequestRow} (hvalid : db.Valid Request.WellFormed)
    (hrow : row ∈ db.requests.rows)
    : (∃ req, decodeRequest row = .returned (some req)) ↔ row.2.Decodable := by
  have ⟨saved, status, createdAt, hwf, hbound, _, heq⟩ := hvalid.encoded row hrow
  have hdecodable : row.2.Decodable ↔ saved.urlLen ≠ 0 ∧ saved.Short := by
    rw [heq]
    unfold RequestRow.Decodable
    simp only [encodeRequest, columnLen, Int.toNat_natCast, bodyLen_encodeRequest hwf]
    constructor
    . intro h
      exact ⟨h.1, h.2.1, h.2.2.1, h.2.2.2⟩
    . intro h
      exact ⟨h.1, h.2.url, h.2.headers, h.2.body⟩
  rw [hdecodable]
  constructor
  . rintro ⟨req, hreq⟩
    have hpos := (decoded_cases hreq).2.1
    rw [heq] at hpos
    simp only [encodeRequest, columnLen, Int.toNat_natCast] at hpos
    exact ⟨by omega, short_of_decodeRequest hwf hbound heq hreq⟩
  . rintro ⟨hlen, hshort⟩
    have hpair : row = (row.1, encodeRequest saved status createdAt) := by rw [← heq]
    have hurl : saved.url.getD [] ≠ [] := by
      intro hnil
      rw [← hwf.url, hnil] at hlen
      exact hlen rfl
    rw [hpair, decodeRequest_encodeRequest hwf hshort, if_neg hurl]
    exact ⟨_, rfl⟩

section Run

variable {es : List CallEnv} {s : Conn}

-- The request that a call in which nothing fails claims, if any, and what it leaves behind.
def claimNext (pick : Nat) (s : Conn) : Option Request × Conn :=
  match pickedRow pick s.db with
  | none => (none, s)
  | some row =>
    match decodeRequest row with
    | .returned (some req) => (some req, setStatus s (.integer 1) (.integer req.id))
    | _ => (none, s)

-- The tie that the SELECT of a call breaks.
def pickOf (es : List CallEnv) : Nat := ((es.drop 2).headD default).pick

theorem Calm.suffix {es' : List CallEnv} (h : Calm es) (hsuffix : es' <:+ es) : Calm es' := by
  intro e he
  exact h e (hsuffix.mem he)

theorem Calm.head (h : Calm es) : (es.headD default).fault = false := by
  cases es with
  | nil => rfl
  | cons e es => exact h e (by simp)

theorem run_dbGetNextPendingRequest_of_calm (hidle : s.saved = none) (hcalm : Calm es)
    : (dbGetNextPendingRequest.run answer es s).1.toOption = (claimNext (pickOf es) s).1 ∧
        (dbGetNextPendingRequest.run answer es s).2 = (claimNext (pickOf es) s).2 := by
  have hbegin : answer (.exec .beginImmediate) (es.headD default) s = (.ok, begun s) := by
    simp only [answer, hcalm.head, Bool.false_eq_true, if_false, execCommand, hidle, begun]
  rcases plain_answer.run_dbGetNextPendingRequest hbegin with
    ⟨row, req, hclaims, hrun⟩ | ⟨hnone, out, es', hes', hout, hrun⟩
  . have hcommit := (hcalm.suffix (List.drop_suffix (commitIndex row.2) es)).head
    have hpicked : pickedRow (pickOf es) s.db = some row := hclaims.picked
    have hnext : claimNext (pickOf es) s = (some req, setStatus s (.integer 1) (.integer req.id)) := by
      unfold claimNext
      simp only [hpicked, hclaims.decoded]
    rw [hrun, hnext]
    refine ⟨rfl, ?_⟩
    simp only [answer, hcommit, Bool.false_eq_true, if_false, execCommand, setStatus, begun]
    rw [← hidle]
  . have hrollback : (answer (.exec .rollback) (es'.headD default) (begun s)).2 = s := by
      simp only [answer, (hcalm.suffix hes').head, Bool.false_eq_true, if_false, execCommand, begun]
      rw [← hidle]
    have hnext : claimNext (pickOf es) s = (none, s) := by
      unfold claimNext
      cases hpicked : pickedRow (pickOf es) s.db with
      | none => rfl
      | some row =>
        dsimp only
        split
        . next req hdecoded =>
          have hclaims : Claims es s.db row req := by
            refine ⟨hpicked, hdecoded, ?_⟩
            apply calm_of_forall
            intro e he
            exact hcalm e (List.mem_of_mem_tail he)
          exact absurd hclaims (hnone row req)
        . rfl
    rw [hrun, hrollback, hnext]
    exact ⟨hout, rfl⟩

end Run

section Pending

variable {db : Database} {s : Conn} {row : Nat × RequestRow}

theorem mem_pendingRequests
    : row ∈ pendingRequests db ↔ row ∈ db.requests.rows ∧ row.2.status.same (.integer 0) = true := by
  unfold pendingRequests
  rw [List.mem_filter]

theorem increasing_pendingRequests (db : Database)
    : (pendingRequests db).Pairwise (fun r r' => r.1 < r'.1) := by
  apply List.Pairwise.filter
  exact db.requests.increasing

theorem oldestPending_ne_nil (h : pendingRequests db ≠ []) : oldestPending db ≠ [] := by
  have hmem : (pendingRequests db).minOn (fun r => r.2.createdAt) h ∈ oldestPending db := by
    unfold oldestPending
    rw [List.mem_filter, List.all_eq_true]
    constructor
    . apply List.minOn_mem
    . intro r hr
      rw [decide_eq_true_iff]
      exact List.apply_minOn_le_of_mem (f := fun r : Nat × RequestRow => r.2.createdAt) hr
  exact List.ne_nil_of_mem hmem

theorem pickedRow_ne_none (h : pendingRequests db ≠ []) (pick : Nat) : pickedRow pick db ≠ none := by
  unfold pickedRow
  rw [Ne, List.getElem?_eq_none_iff, not_le]
  apply Nat.mod_lt
  apply List.length_pos_iff.mpr
  exact oldestPending_ne_nil h

theorem mem_pendingRequests_of_pickedRow {pick : Nat} (h : pickedRow pick db = some row)
    : row ∈ pendingRequests db := by
  rw [mem_pendingRequests]
  exact mem_of_pickedRow h

theorem pendingRequests_setStatus (s : Conn) (id : Int)
    : pendingRequests (setStatus s (.integer 1) (.integer id)).db =
        (pendingRequests s.db).filter (fun r => !decide ((r.1 : Int) = id)) := by
  unfold pendingRequests setStatus
  dsimp only
  rw [Table.filter_update]
  . apply List.filter_congr
    intro r _
    congr 1
    rw [Bool.eq_iff_iff, Value.same_iff, decide_eq_true_iff]
    simp [eq_comm]
  . intro r
    rfl

theorem length_pendingRequests_setStatus (s : Conn) (id : Int)
    : (pendingRequests (setStatus s (.integer 1) (.integer id)).db).length + 1 =
          (pendingRequests s.db).length ↔
        ∃ row ∈ pendingRequests s.db, (row.1 : Int) = id := by
  have hlength := Table.length_filter_id_ne (increasing_pendingRequests s.db) id
  rw [pendingRequests_setStatus]
  cases hany : (pendingRequests s.db).any (fun r => decide ((r.1 : Int) = id)) with
  | true =>
    rw [hany, if_pos rfl] at hlength
    rw [List.any_eq_true] at hany
    simpa [hlength] using hany
  | false =>
    rw [hany, if_neg Bool.false_ne_true] at hlength
    rw [List.any_eq_false] at hany
    constructor
    . intro h
      omega
    . rintro ⟨row, hrow, hid⟩
      exact absurd (decide_eq_true hid) (hany row hrow)

end Pending

/-- A claim returns a request and takes one pending row. -/
structure Progresses (s : Conn) (res : Outcome (Option Request) × Conn) : Prop where
  returned : ∃ req, res.1 = .returned (some req)
  fewer : (pendingRequests res.2.db).length + 1 = (pendingRequests s.db).length

-- The row that is picked can be decoded, and its id as an `int` is the id of a pending row.
def ProgressCondition (pick : Nat) (s : Conn) : Prop :=
  ∀ row, pickedRow pick s.db = some row →
    row.2.Decodable ∧ ∃ row' ∈ pendingRequests s.db, (row'.1 : Int) = Lib.toInt row.1

def Claimable (row : Nat × RequestRow) : Prop := row.2.Decodable ∧ row.1 < 2 ^ 31

instance (row : Nat × RequestRow) : Decidable (Claimable row) :=
  inferInstanceAs (Decidable (_ ∧ _))

-- Claims one after the other.
def claimAll (ess : List (List CallEnv)) (s : Conn) : List (Outcome (Option Request)) × Conn :=
  match ess with
  | [] => ([], s)
  | es :: ess =>
    let res := dbGetNextPendingRequest.run answer es s
    let rest := claimAll ess res.2
    (res.1 :: rest.1, rest.2)

structure Drained (res : List (Outcome (Option Request)) × Conn) : Prop where
  returned : ∀ out ∈ res.1, ∃ req, out = .returned (some req)
  empty : pendingRequests res.2.db = []

section Progress

variable {s : Conn} {pick : Nat}

theorem claimNext_cases (hvalid : s.db.Valid Request.WellFormed) (hpending : pendingRequests s.db ≠ [])
    (pick : Nat)
    : ∃ row, pickedRow pick s.db = some row ∧
        ((¬ row.2.Decodable ∧ claimNext pick s = (none, s)) ∨
          (row.2.Decodable ∧ ∃ req,
            claimNext pick s = (some req, setStatus s (.integer 1) (.integer (Lib.toInt row.1))))) := by
  rcases Option.ne_none_iff_exists'.mp (pickedRow_ne_none hpending pick) with ⟨row, hrow⟩
  have hdecodes := decodes_iff hvalid (mem_of_pickedRow hrow).1
  refine ⟨row, hrow, ?_⟩
  unfold claimNext
  simp only [hrow]
  split
  . next req hdecoded =>
    right
    refine ⟨hdecodes.mp ⟨req, hdecoded⟩, req, ?_⟩
    rw [id_of_decodeRequest hdecoded]
  . next hnot =>
    left
    refine ⟨?_, rfl⟩
    intro h
    rcases hdecodes.mpr h with ⟨req, hreq⟩
    exact hnot req hreq

theorem claimNext_progresses_iff (hvalid : s.db.Valid Request.WellFormed)
    (hpending : pendingRequests s.db ≠ [])
    : ((claimNext pick s).1 ≠ none ∧
          (pendingRequests (claimNext pick s).2.db).length + 1 = (pendingRequests s.db).length) ↔
        ProgressCondition pick s := by
  rcases claimNext_cases hvalid hpending pick with ⟨row, hrow, hcases⟩
  have hcondition : ProgressCondition pick s ↔
      row.2.Decodable ∧ ∃ row' ∈ pendingRequests s.db, (row'.1 : Int) = Lib.toInt row.1 := by
    unfold ProgressCondition
    rw [hrow]
    simp
  rw [hcondition]
  rcases hcases with ⟨hnot, hclaim⟩ | ⟨hdecodable, req, hclaim⟩
  . rw [hclaim]
    constructor
    . intro h
      exact absurd rfl h.1
    . intro h
      exact absurd h.1 hnot
  . rw [hclaim, ← length_pendingRequests_setStatus]
    constructor
    . intro h
      exact ⟨hdecodable, h.2⟩
    . intro h
      exact ⟨Option.some_ne_none req, h.2⟩

theorem Database.Valid.claimNext (hvalid : s.db.Valid Request.WellFormed) (pick : Nat)
    : (claimNext pick s).2.db.Valid Request.WellFormed := by
  unfold HttpRuntime.claimNext
  split
  . exact hvalid
  . split
    . apply hvalid.setStatus
    . exact hvalid

theorem saved_claimNext (hidle : s.saved = none) (pick : Nat) : (claimNext pick s).2.saved = none := by
  unfold claimNext
  split
  . exact hidle
  . split <;> exact hidle

theorem length_pendingRequests_claimNext (s : Conn) (pick : Nat)
    : (pendingRequests s.db).length ≤ (pendingRequests (claimNext pick s).2.db).length + 1 := by
  unfold claimNext
  split
  . apply Nat.le_succ
  . split
    . next req _ =>
      have hlength := Table.length_filter_id_ne (increasing_pendingRequests s.db) req.id
      rw [pendingRequests_setStatus]
      split at hlength <;> omega
    . apply Nat.le_succ

theorem claimNext_unchanged (h : (claimNext pick s).1 = none) : (claimNext pick s).2 = s := by
  unfold claimNext at h ⊢
  split at h
  . rfl
  . split at h
    . cases h
    . rfl

theorem claimAll_cons (hidle : s.saved = none) {es : List CallEnv} (hcalm : Calm es)
    (ess : List (List CallEnv))
    : claimAll (es :: ess) s =
        ((dbGetNextPendingRequest.run answer es s).1 :: (claimAll ess (claimNext (pickOf es) s).2).1,
          (claimAll ess (claimNext (pickOf es) s).2).2) := by
  rw [claimAll, (run_dbGetNextPendingRequest_of_calm hidle hcalm).2]

theorem length_pendingRequests_claimAll {ess : List (List CallEnv)} (hidle : s.saved = none)
    (hcalm : ∀ es ∈ ess, Calm es)
    : (pendingRequests s.db).length ≤ (pendingRequests (claimAll ess s).2.db).length + ess.length := by
  induction ess generalizing s with
  | nil => apply Nat.le_refl
  | cons es ess ih =>
    rw [List.forall_mem_cons] at hcalm
    have hnext := length_pendingRequests_claimNext s (pickOf es)
    have hcons := claimAll_cons hidle hcalm.1 ess
    specialize ih (saved_claimNext hidle (pickOf es)) hcalm.2
    rw [hcons, List.length_cons]
    dsimp only
    omega

theorem mem_pendingRequests_setStatus {id : Int} {r : Nat × RequestRow}
    : r ∈ pendingRequests (setStatus s (.integer 1) (.integer id)).db ↔
        r ∈ pendingRequests s.db ∧ (r.1 : Int) ≠ id := by
  rw [pendingRequests_setStatus, List.mem_filter]
  simp

-- The UPDATE took the row that was picked, for a row with a larger id could not be taken.
theorem claimable_of_claimed {row : Nat × RequestRow} (hrow : row ∈ pendingRequests s.db)
    (hdecodable : row.2.Decodable)
    (hrest : ∀ r ∈ pendingRequests (setStatus s (.integer 1) (.integer (Lib.toInt row.1))).db,
      Claimable r)
    : ∀ r ∈ pendingRequests s.db, Claimable r := by
  intro r hr
  by_cases hid : (r.1 : Int) = Lib.toInt row.1
  . have hlt : r.1 < 2 ^ 31 := by
      have := Lib.toInt_lt row.1
      omega
    refine ⟨?_, hlt⟩
    by_cases hself : (row.1 : Int) = Lib.toInt row.1
    . have hsame : r = row := by
        apply Table.eq_of_mem_of_id_eq (mem_pendingRequests.mp hr).1 (mem_pendingRequests.mp hrow).1
        omega
      rw [hsame]
      exact hdecodable
    . have hlarge := (hrest row (mem_pendingRequests_setStatus.mpr ⟨hrow, hself⟩)).2
      exact absurd (Lib.toInt_ofNat hlarge).symm hself
  . apply hrest
    rw [mem_pendingRequests_setStatus]
    exact ⟨hr, hid⟩

/-- As many claims as there are pending rows leave none exactly when every one of them is claimable. -/
theorem claimAll_drained_iff {ess : List (List CallEnv)} (hvalid : s.db.Valid Request.WellFormed)
    (hidle : s.saved = none) (hcalm : ∀ es ∈ ess, Calm es)
    (hlength : ess.length = (pendingRequests s.db).length)
    : Drained (claimAll ess s) ↔ ∀ row ∈ pendingRequests s.db, Claimable row := by
  induction ess generalizing s with
  | nil =>
    have hnil := List.length_eq_zero_iff.mp hlength.symm
    rw [hnil]
    constructor
    . simp
    . intro _
      exact ⟨by simp [claimAll], hnil⟩
  | cons es ess ih =>
    rw [List.forall_mem_cons] at hcalm
    rw [List.length_cons] at hlength
    have hpending : pendingRequests s.db ≠ [] := by
      apply List.ne_nil_of_length_pos
      omega
    rcases claimNext_cases hvalid hpending (pickOf es) with ⟨row, hrow, hcases⟩
    have hrow := mem_pendingRequests_of_pickedRow hrow
    have hvalid' := hvalid.claimNext (pickOf es)
    have hidle' := saved_claimNext hidle (pickOf es)
    have hrest := length_pendingRequests_claimAll hidle' hcalm.2
    have hclaimed := (run_dbGetNextPendingRequest_of_calm hidle hcalm.1).1
    rw [claimAll_cons hidle hcalm.1]
    rcases hcases with ⟨hnot, hclaim⟩ | ⟨hdecodable, req, hclaim⟩
    . rw [hclaim] at hclaimed
      constructor
      . intro h
        have hreturned := h.returned _ (List.mem_cons_self ..)
        exact absurd hclaimed (Outcome.toOption_ne_none_iff.mpr hreturned)
      . intro h
        exact absurd (h row hrow).1 hnot
    . rw [hclaim] at hvalid' hidle' hrest hclaimed ⊢
      have hlength' := length_pendingRequests_setStatus s (Lib.toInt row.1)
      constructor
      . intro h
        have hfewer := length_pendingRequests_claimNext s (pickOf es)
        rw [hclaim] at hfewer
        dsimp only at hrest hfewer
        rw [h.empty, List.length_nil] at hrest
        have hdrained := (ih hvalid' hidle' hcalm.2 (by dsimp only; omega)).mp
          ⟨fun r hr => h.returned r (List.mem_cons_of_mem _ hr), h.empty⟩
        exact claimable_of_claimed hrow hdecodable hdrained
      . intro h
        have hid := Lib.toInt_ofNat (h row hrow).2
        have hfewer := hlength'.mpr ⟨row, hrow, hid.symm⟩
        have hdrained := (ih hvalid' hidle' hcalm.2 (by dsimp only; omega)).mpr
          (fun r hr => h r (mem_pendingRequests_setStatus.mp hr).1)
        constructor
        . rw [List.forall_mem_cons]
          exact ⟨⟨req, Outcome.toOption_eq_some_iff.mp hclaimed⟩, hdrained.returned⟩
        . exact hdrained.empty

/--
In every reachable state where BEGIN can succeed, a claim makes progress exactly when it picks a row
that it can return and take, and repeated claims drain the queue exactly when every pending row is
such a row.
-/
theorem dbGetNextPendingRequest_progress (hreach : s.Reachable Request.WellFormed)
    (hidle : s.inTransaction = false)
    : (∀ es, Calm es → pendingRequests s.db ≠ [] →
          (Progresses s (dbGetNextPendingRequest.run answer es s) ↔ ProgressCondition (pickOf es) s)) ∧
        (∀ ess, (∀ es ∈ ess, Calm es) → ess.length = (pendingRequests s.db).length →
          (Drained (claimAll ess s) ↔ ∀ row ∈ pendingRequests s.db, Claimable row)) := by
  have hsaved : s.saved = none := by
    simpa [Conn.inTransaction] using hidle
  constructor
  . intro es hcalm hpending
    obtain ⟨hclaimed, hconn⟩ := run_dbGetNextPendingRequest_of_calm hsaved hcalm
    rw [← claimNext_progresses_iff hreach.valid.1 hpending, ← hclaimed, ← hconn,
      Outcome.toOption_ne_none_iff]
    constructor
    . exact fun h => ⟨h.returned, h.fewer⟩
    . exact fun h => ⟨h.1, h.2⟩
  . intro ess hcalm hlength
    apply claimAll_drained_iff hreach.valid.1 hsaved hcalm hlength

theorem dbGetNextPendingRequest_progress_onePending
    : Progresses onePending (dbGetNextPendingRequest.run answer [] onePending) ∧
        Drained (claimAll [[]] onePending) := by
  have h := dbGetNextPendingRequest_progress onePending_reachable (by decide +kernel)
  have hrow : pickedRow 0 onePending.db = some (1, requestRow postRequest default) := by
    decide +kernel
  constructor
  . apply (h.1 [] (by simp [Calm]) (by decide +kernel)).mpr
    intro row hpicked
    have heq := hpicked.symm.trans hrow
    rw [Option.some.injEq] at heq
    rw [heq]
    decide +kernel
  . apply (h.2 [[]] (by simp [Calm]) (by decide +kernel)).mpr
    decide +kernel

-- A request without a URL was saved before one with a URL.
def blocked : Conn :=
  let s := ((dbSaveRequest (some emptyUrlRequest)).run answer [] oneCollection).2
  ((dbSaveRequest (some postRequest)).run answer (List.replicate 16 { now := 1 }) s).2

theorem blocked_reachable : blocked.Reachable Request.WellFormed :=
  (oneCollection_reachable.run (issued_dbSaveRequest emptyUrlRequest_storable.1) []).run
    (issued_dbSaveRequest postRequest_wellFormed) _

/-- The save of the request without a URL is a success, and no claim gets past its row. -/
theorem dbGetNextPendingRequest_no_progress
    : blocked.Reachable Request.WellFormed ∧
        blocked.inTransaction = false ∧
        ((dbSaveRequest (some emptyUrlRequest)).run answer [] oneCollection).1.1 = sqliteOk ∧
        (pendingRequests blocked.db).length = 2 ∧
        (dbGetNextPendingRequest.run answer [] blocked).1 = .returned none ∧
        (dbGetNextPendingRequest.run answer [] blocked).2 = blocked ∧
        ¬ Progresses blocked (dbGetNextPendingRequest.run answer [] blocked) := by
  have hnone : (dbGetNextPendingRequest.run answer [] blocked).1 = .returned none := by decide +kernel
  have hsame : (dbGetNextPendingRequest.run answer [] blocked).2 = blocked := by
    have hidle : blocked.saved = none := Option.not_isSome_iff_eq_none.mp (by decide +kernel)
    have ⟨hclaimed, hconn⟩ := @run_dbGetNextPendingRequest_of_calm [] blocked hidle (by simp [Calm])
    rw [hnone] at hclaimed
    rw [hconn]
    exact claimNext_unchanged hclaimed.symm
  refine ⟨blocked_reachable, by decide +kernel, by decide +kernel, by decide +kernel, hnone, hsame, ?_⟩
  intro h
  rcases h.returned with ⟨req, hreq⟩
  rw [hnone] at hreq
  cases hreq

end Progress

end HttpRuntime
