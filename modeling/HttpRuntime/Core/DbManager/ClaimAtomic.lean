import HttpRuntime.Core.DbManager.Claim
import HttpRuntime.Core.DbManager.Decode

/-!
This module contains when a claim is all or nothing: the table that is committed differs by the one
row that is returned, or not at all, and no transaction stays open.
-/

open Lib Lib.Sql

namespace HttpRuntime

/-- What the file holds, while a transaction may be open on the connection. -/
def Conn.committed (s : Conn) : Database := s.saved.getD s.db

/-- Every call may fail but this command. -/
def reliable (cmd : Command) : Server Call Reply CallEnv Conn := fun c env s =>
  if c = .exec cmd then answer c { env with fault := false } s else answer c env s

theorem plain_reliable (cmd : Command) : Plain (reliable cmd) := by
  intro c env s hc
  unfold reliable
  rw [if_neg (hc cmd)]

def claimRow (t : Table RequestRow) (row : Nat × RequestRow) : Table RequestRow :=
  t.update (fun r => decide (r.1 = row.1)) (fun r => { r with status := .integer 1 })

/-- The result of a claim on `s` is all or nothing. -/
structure AllOrNothing (s : Conn) (res : Outcome (Option Request) × Conn) : Prop where
  claimed : ∀ req, res.1 = .returned (some req) → ∃ row ∈ s.committed.requests.rows,
    decodeRequest row = .returned (some req) ∧
    (row.1 : Int) = req.id ∧
    row.2.status.same (.integer 0) = true ∧
    res.2.committed.requests = claimRow s.committed.requests row
  nothing : (∀ req, res.1 ≠ .returned (some req)) → res.2.committed.requests = s.committed.requests
  closed : res.2.inTransaction = false

/-- No transaction is open, and a run that gets to COMMIT can commit the row that it returns. -/
structure ClaimCondition (es : List CallEnv) (s : Conn) : Prop where
  idle : s.inTransaction = false
  commit : ∀ row req, (es.headD default).fault = false → Claims es s.db row req →
    row.1 < 2 ^ 31 ∧ ((es.drop (commitIndex row.2)).headD default).fault = false

section Decode

variable {row : Nat × RequestRow} {req : Request}

theorem len_le_of_copyOf {src copy : Option Bytes} {len : Nat} (h : copyOf src len = .returned copy)
    (hne : copy ≠ none) : len ≤ readable src := by
  unfold copyOf at h
  split at h
  . cases h
  . next hfits =>
    rw [Outcome.returned.injEq] at h
    rw [not_and, Nat.not_lt] at hfits
    exact hfits (by rw [h]; exact hne)

/-- A row that is decoded has a URL, and none of its lengths is beyond its column. -/
theorem decoded_cases (h : decodeRequest row = .returned (some req))
    : req.id = Lib.toInt row.1 ∧
        columnLen row.2.urlLen > 0 ∧
        columnLen row.2.urlLen ≤ readable (columnString row.2.url) ∧
        (columnLen row.2.headersLen > 0 →
          columnLen row.2.headersLen ≤ readable (columnString row.2.headers)) ∧
        (columnLen row.2.bodyLen > 0 → columnLen row.2.bodyLen ≤ readable (columnBlob row.2.body)) := by
  unfold decodeRequest at h
  split at h
  . next url headers body hurl hheaders hbody =>
    split at h
    . cases h
    . next hnoUrl =>
      rw [not_or] at hnoUrl
      split at h
      . cases h
      . next hnoHeaders =>
        split at h
        . cases h
        . next hnoBody =>
          rw [Outcome.returned.injEq, Option.some.injEq] at h
          refine ⟨by rw [← h], Nat.pos_of_ne_zero hnoUrl.2, len_le_of_copyOf hurl hnoUrl.1, ?_, ?_⟩
          . intro hpos
            exact len_le_of_copyOf hheaders (fun hnone => hnoHeaders ⟨hpos, hnone⟩)
          . intro hpos
            exact len_le_of_copyOf hbody (fun hnone => hnoBody ⟨hpos, hnone⟩)
  . cases h

theorem id_of_decodeRequest (h : decodeRequest row = .returned (some req)) : req.id = Lib.toInt row.1 :=
  (decoded_cases h).1

theorem readable_columnString_le (v : Value) : readable (columnString v) ≤ v.size + 1 := by
  cases v <;> simp [columnString, columnText, readable, Value.size]

theorem readable_columnBlob_le (v : Value) : readable (columnBlob v) ≤ v.size := by
  cases v with
  | text s => cases s <;> simp [columnBlob, readable, Value.size]
  | blob s => cases s <;> simp [columnBlob, readable, Value.size]
  | null => exact Nat.zero_le _
  | integer n => exact Nat.zero_le _
  | real bits => exact Nat.zero_le _

variable {saved : Request}

theorem size_le_of_bound (h : none ∉ insertRequestParams saved)
    : (textValue saved.url saved.urlLen).size ≤ sqliteMaxLength ∧
        (textValue saved.headers saved.headersLen).size ≤ sqliteMaxLength ∧
        (blobValue (some (saved.body.getD [])) saved.bodyLen).size ≤ sqliteMaxLength := by
  refine ⟨?_, ?_, ?_⟩
  all_goals
    apply Nat.le_of_not_lt
    intro hlarge
    simp [insertRequestParams, bindText, bindBlob, hlarge] at h

/-- What SQLite holds of a value is short, so a row whose lengths are not beyond it was saved whole. -/
theorem short_of_decodeRequest {status : Value} {createdAt : Nat} (hwf : saved.WellFormed)
    (hbound : none ∉ insertRequestParams saved) (hrow : row.2 = encodeRequest saved status createdAt)
    (h : decodeRequest row = .returned (some req)) : saved.Short := by
  have ⟨_, _, hurl, hheaders, hbody⟩ := decoded_cases h
  have ⟨hsizeUrl, hsizeHeaders, hsizeBody⟩ := size_le_of_bound hbound
  rw [hrow] at hurl hheaders hbody
  simp only [encodeRequest, columnLen, Int.toNat_natCast, bodyLen_encodeRequest hwf] at hurl hheaders hbody
  have hreadUrl := readable_columnString_le (textValue saved.url saved.urlLen)
  have hreadHeaders := readable_columnString_le (textValue saved.headers saved.headersLen)
  have hreadBody := readable_columnBlob_le (blobValue (some (saved.body.getD [])) saved.bodyLen)
  unfold sqliteMaxLength at hsizeUrl hsizeHeaders hsizeBody
  constructor
  . omega
  . cases Nat.eq_zero_or_pos saved.headersLen with
    | inl hzero => omega
    | inr hpos =>
      have := hheaders hpos
      omega
  . cases Nat.eq_zero_or_pos saved.bodyLen with
    | inl hzero => omega
    | inr hpos =>
      have := hbody hpos
      omega

theorem key_of_decodeRequest {status : Value} {createdAt : Nat} (hwf : saved.WellFormed)
    (hbound : none ∉ insertRequestParams saved) (hurl : saved.url ≠ none)
    (hrow : row.2 = encodeRequest saved status createdAt)
    (h : decodeRequest row = .returned (some req)) : row.2.key = req.identity := by
  have hshort := short_of_decodeRequest hwf hbound hrow h
  have hpair : row = (row.1, encodeRequest saved status createdAt) := by rw [← hrow]
  rw [hpair, decodeRequest_encodeRequest hwf hshort, Outcome.returned.injEq] at h
  split at h
  . cases h
  . rw [Option.some.injEq] at h
    have hkey : row.2.key = saved.boundKey := by
      rw [hrow]
      rfl
    rw [hkey, boundKey_eq_identity hwf hurl hshort.url hshort.body, ← h]
    unfold Request.identity decodedRequest
    dsimp only
    rw [safeCopyBlob_getD hwf.url, safeCopyBlob_getD hwf.body]

end Decode

section Update

variable {db : Database} {Saved : Request → Prop}

theorem setStatus_claimed {s : Conn} {row : Nat × RequestRow} {id : Int} (h : (row.1 : Int) = id)
    : (setStatus s (.integer 1) (.integer id)).db.requests = claimRow s.db.requests row := by
  unfold setStatus claimRow
  dsimp only
  congr 1
  funext r
  rw [← h, Bool.eq_iff_iff, Value.same_iff, decide_eq_true_iff]
  simp [eq_comm]

theorem mem_of_pickedRow {pick : Nat} {row : Nat × RequestRow} (h : pickedRow pick db = some row)
    : row ∈ db.requests.rows ∧ row.2.status.same (.integer 0) = true := by
  have hmem := List.mem_of_getElem? h
  unfold oldestPending pendingRequests at hmem
  rw [List.mem_filter, List.mem_filter] at hmem
  exact hmem.1

theorem Database.Valid.eq_of_key_eq (h : db.Valid Saved) {row row' : Nat × RequestRow}
    (hrow : row ∈ db.requests.rows) (hrow' : row' ∈ db.requests.rows) (hkey : row.2.key = row'.2.key)
    : row = row' := by
  have ⟨req, status, createdAt, _, _, hurl, heq⟩ := h.encoded row hrow
  have hnull : ∀ v ∈ row.2.key, v ≠ .null := by
    rw [heq]
    exact boundKey_ne_null hurl
  exact h.requests.eq_of_key_eq hrow hrow' hkey hnull

end Update

section Atomic

variable {es : List CallEnv} {s : Conn}

theorem reliable_self (cmd : Command) (env : CallEnv) (s : Conn)
    : reliable cmd (.exec cmd) env s = execCommand s cmd := by
  simp only [reliable, answer, if_true, Bool.false_eq_true, if_false]

theorem reliable_of_ne {cmd : Command} {c : Call} (h : c ≠ .exec cmd) (env : CallEnv) (s : Conn)
    : reliable cmd c env s = answer c env s := by
  unfold reliable
  rw [if_neg h]

theorem answer_exec (cmd : Command) {env : CallEnv} (h : env.fault = false) (s : Conn)
    : answer (.exec cmd) env s = execCommand s cmd := by
  simp only [answer, h, Bool.false_eq_true, if_false]

-- The state after BEGIN.
def begun (s : Conn) : Conn := { s with saved := some s.db }

theorem run_dbGetNextPendingRequest_of_not_begun
    (h : s.inTransaction = true ∨ (es.headD default).fault = true)
    : dbGetNextPendingRequest.run (reliable .rollback) es s = (.returned none, s) := by
  rw [dbGetNextPendingRequest_eq, Prog.run_call]
  have hbegin : reliable .rollback (.exec .beginImmediate) (es.headD default) s = (.error, s) := by
    rw [reliable_of_ne (by decide)]
    simp only [answer]
    split
    . rfl
    . next hfault =>
      have hopen : s.saved.isSome = true := h.resolve_right hfault
      rw [Option.isSome_iff_exists] at hopen
      rcases hopen with ⟨db, hdb⟩
      simp only [execCommand, hdb]
  rw [hbegin]
  rfl

theorem run_dbGetNextPendingRequest_of_begun (hidle : s.saved = none)
    (hfault : (es.headD default).fault = false)
    : (∃ row req, Claims es s.db row req ∧
          dbGetNextPendingRequest.run (reliable .rollback) es s =
            (.returned (some req),
              (reliable .rollback (.exec .commit) ((es.drop (commitIndex row.2)).headD default)
                (setStatus (begun s) (.integer 1) (.integer req.id))).2)) ∨
        ((∀ row req, ¬ Claims es s.db row req) ∧
          ∃ out, out.toOption = none ∧
            dbGetNextPendingRequest.run (reliable .rollback) es s = (out, s)) := by
  have hbegin : reliable .rollback (.exec .beginImmediate) (es.headD default) s = (.ok, begun s) := by
    rw [reliable_of_ne (by decide), answer_exec _ hfault]
    simp only [execCommand, hidle, begun]
  rcases (plain_reliable .rollback).run_dbGetNextPendingRequest hbegin with
    h | ⟨hnone, out, es', _, hout, hrun⟩
  . exact Or.inl h
  . right
    refine ⟨hnone, out, hout, ?_⟩
    rw [hrun, reliable_self]
    simp only [execCommand, begun]
    rw [← hidle]

theorem AllOrNothing.unchanged (h : s.inTransaction = false) {out : Outcome (Option Request)}
    (hout : out.toOption = none) : AllOrNothing s (out, s) where
  claimed := by
    intro req heq
    rw [← Outcome.toOption_eq_some_iff, hout] at heq
    cases heq
  nothing := by simp
  closed := h

section Commit

variable {row : Nat × RequestRow} {req : Request}

-- The end of a run that gets to COMMIT.
def committed (es : List CallEnv) (s : Conn) (row : Nat × RequestRow) (req : Request)
    : Outcome (Option Request) × Conn :=
  (.returned (some req),
    (reliable .rollback (.exec .commit) ((es.drop (commitIndex row.2)).headD default)
      (setStatus (begun s) (.integer 1) (.integer req.id))).2)

theorem inTransaction_committed
    : (committed es s row req).2.inTransaction =
        ((es.drop (commitIndex row.2)).headD default).fault := by
  rw [committed, reliable_of_ne (by decide)]
  simp only [answer]
  split
  . next hfault =>
    rw [hfault]
    rfl
  . next hfault =>
    rw [Bool.not_eq_true] at hfault
    rw [hfault]
    rfl

theorem requests_committed (hfault : ((es.drop (commitIndex row.2)).headD default).fault = false)
    (hid : (row.1 : Int) = req.id)
    : (committed es s row req).2.committed.requests = claimRow s.db.requests row := by
  simp only [committed]
  rw [reliable_of_ne (by decide), answer_exec _ hfault]
  exact setStatus_claimed hid

theorem allOrNothing_committed_iff (hvalid : s.db.Valid Request.WellFormed) (hidle : s.saved = none)
    (hclaims : Claims es s.db row req)
    : AllOrNothing s (committed es s row req) ↔
        row.1 < 2 ^ 31 ∧ ((es.drop (commitIndex row.2)).headD default).fault = false := by
  have ⟨hrow, hstatus⟩ := mem_of_pickedRow hclaims.picked
  have hcommitted : s.committed = s.db := by
    rw [Conn.committed, hidle, Option.getD_none]
  have hreqId := id_of_decodeRequest hclaims.decoded
  have hkey (row : Nat × RequestRow) (hrow : row ∈ s.db.requests.rows)
      (hdecoded : decodeRequest row = .returned (some req)) : row.2.key = req.identity := by
    have ⟨saved, status, createdAt, hwf, hbound, hurl, heq⟩ := hvalid.encoded row hrow
    exact key_of_decodeRequest hwf hbound hurl heq hdecoded
  constructor
  . intro h
    constructor
    . rcases h.claimed req rfl with ⟨row', hrow', hdecoded', hid', _, _⟩
      rw [hcommitted] at hrow'
      have hsame : row = row' := by
        apply hvalid.eq_of_key_eq hrow hrow'
        rw [hkey row hrow hclaims.decoded, hkey row' hrow' hdecoded']
      rw [← hsame, hreqId] at hid'
      have := Lib.toInt_lt row.1
      omega
    . rw [← @inTransaction_committed es s row req]
      exact h.closed
  . intro h
    have hid : (row.1 : Int) = req.id := by
      rw [hreqId, Lib.toInt_ofNat h.1]
    constructor
    . intro req' hreq'
      cases hreq'
      refine ⟨row, ?_, hclaims.decoded, hid, hstatus, ?_⟩
      . rw [hcommitted]
        exact hrow
      . rw [hcommitted]
        exact requests_committed h.2 hid
    . intro hnone
      exact absurd rfl (hnone req)
    . rw [inTransaction_committed]
      exact h.2

end Commit

/--
Whatever fails in it but ROLLBACK, a claim is all or nothing exactly when no transaction was open
before it and the row that it comes to commit can be committed.
-/
theorem dbGetNextPendingRequest_atomic_iff (hreach : s.Reachable Request.WellFormed)
    (es : List CallEnv)
    : AllOrNothing s (dbGetNextPendingRequest.run (reliable .rollback) es s) ↔ ClaimCondition es s := by
  cases hopen : s.inTransaction with
  | true =>
    rw [run_dbGetNextPendingRequest_of_not_begun (Or.inl hopen)]
    constructor
    . intro h
      rw [h.closed] at hopen
      cases hopen
    . intro h
      rw [h.idle] at hopen
      cases hopen
  | false =>
    have hidle : s.saved = none := by
      simpa [Conn.inTransaction] using hopen
    cases hfault : (es.headD default).fault with
    | true =>
      rw [run_dbGetNextPendingRequest_of_not_begun (Or.inr hfault)]
      constructor
      . intro _
        refine ⟨hopen, ?_⟩
        intro row req hnot
        rw [hfault] at hnot
        cases hnot
      . intro _
        exact AllOrNothing.unchanged hopen rfl
    | false =>
      rcases run_dbGetNextPendingRequest_of_begun hidle hfault with
        ⟨row, req, hclaims, hrun⟩ | ⟨hnone, out, hout, hrun⟩
      . rw [hrun]
        have hiff := allOrNothing_committed_iff hreach.valid.1 hidle hclaims
        constructor
        . intro h
          refine ⟨hopen, ?_⟩
          intro row' req' _ hclaims'
          have ⟨hrow, _⟩ := hclaims.unique hclaims'
          rw [← hrow]
          exact hiff.mp h
        . intro h
          exact hiff.mpr (h.commit row req hfault hclaims)
      . rw [hrun]
        constructor
        . intro _
          refine ⟨hopen, ?_⟩
          intro row req _ hclaims
          exact absurd hclaims (hnone row req)
        . intro _
          exact AllOrNothing.unchanged hopen hout

section Examples

-- A database with one pending request.
def onePending : Conn :=
  ((dbSaveRequest (some postRequest)).run answer [] oneCollection).2

theorem onePending_reachable : onePending.Reachable Request.WellFormed :=
  oneCollection_reachable.run (issued_dbSaveRequest postRequest_wellFormed) []

theorem dbGetNextPendingRequest_atomic_onePending
    : AllOrNothing onePending (dbGetNextPendingRequest.run (reliable .rollback) [] onePending) := by
  apply (dbGetNextPendingRequest_atomic_iff onePending_reachable []).mpr
  refine ⟨by decide +kernel, ?_⟩
  intro row req _ hclaims
  have hpicked := hclaims.picked
  have hrow : pickedRow 0 onePending.db = some (1, requestRow postRequest default) := by
    decide +kernel
  rw [List.drop_nil, List.headD_nil] at hpicked
  have heq := hpicked.symm.trans hrow
  rw [Option.some.injEq] at heq
  rw [heq]
  exact ⟨by decide, rfl⟩

-- Everything up to COMMIT goes through.
def commitFails : List CallEnv := List.replicate 9 default ++ [{ fault := true }]

/-- A request is returned although COMMIT failed: its row is still pending, in an open transaction. -/
theorem dbGetNextPendingRequest_not_atomic
    : onePending.Reachable Request.WellFormed ∧
        (let res := dbGetNextPendingRequest.run (reliable .rollback) commitFails onePending
        res.1 = .returned (some { postRequest with id := 1 }) ∧
          res.2.committed.requests.rows = onePending.committed.requests.rows ∧
          res.2.inTransaction = true ∧
          ¬ AllOrNothing onePending res) := by
  refine ⟨onePending_reachable, by decide +kernel, by decide +kernel, by decide +kernel, ?_⟩
  intro h
  exact absurd h.closed (by decide +kernel)

end Examples

end Atomic

end HttpRuntime
