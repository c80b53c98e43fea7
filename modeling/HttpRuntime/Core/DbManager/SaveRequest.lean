import HttpRuntime.Core.DbManager.Reachable

/-!
This module contains what `db_save_request` does: the table it leaves behind, the id it hands out,
and when it is total and atomic.
-/

open Lib Lib.Sql

namespace HttpRuntime

variable {req : Request} {es : List CallEnv} {s : Conn}

def requestRow (req : Request) (env : CallEnv) : RequestRow :=
  encodeRequest req (.integer 0) env.now

-- The identity under which SQLite sees the request, after the lengths became ints.
def Request.boundKey (req : Request) : List Value := (requestRow req default).key

/-- The identity of the request itself. No body is stored as an empty one. -/
def Request.identity (req : Request) : List Value :=
  [.integer req.collectionId, .integer req.method.toInt, .text (req.url.getD []),
    .blob (req.body.getD [])]

-- The state after the INSERT.
def insertedRequest (env : CallEnv) (s : Conn) (req : Request) : Conn :=
  let res := s.db.requests.insertOrIgnore RequestRow.key (requestRow req env)
  {
    s with
    db := { s.db with requests := res.1 }
    lastRowid := if res.2 then res.1.seq else s.lastRowid
  }

-- The row that the lookup after the INSERT finds.
def savedRow (env : CallEnv) (db : Database) (req : Request) : Nat × RequestRow :=
  (db.requests.lookup RequestRow.key req.boundKey).getD (db.requests.seq + 1, requestRow req env)

theorem boundText_eq_self {bytes : Bytes} (h : bytes.length < 2 ^ 31)
    : boundText bytes bytes.length = bytes := by
  unfold boundText
  rw [Lib.toInt_ofNat h]
  simp

theorem blobValue_none (len : Nat) : blobValue none len = .null := by
  unfold blobValue
  rfl

theorem blobValue_ne_null (bytes : Bytes) (len : Nat) : blobValue (some bytes) len ≠ .null := by
  unfold blobValue
  dsimp only
  split <;> simp

theorem blobValue_of_short {bytes : Bytes} (h : bytes.length < 2 ^ 31)
    : blobValue (some bytes) bytes.length = .blob bytes := by
  unfold blobValue boundBlob
  rw [Lib.toInt_ofNat h]
  dsimp only
  rw [if_neg (by omega), Int.toNat_natCast, List.take_length]

theorem textValue_eq_text {p : Option Bytes} {len : Nat} (h : p ≠ none)
    : textValue p len = .text (boundText (p.getD []) len) := by
  cases p with
  | none => exact absurd rfl h
  | some bytes => rfl

theorem boundKey_eq (hurl : req.url ≠ none)
    : req.boundKey =
        [.integer req.collectionId, .integer req.method.toInt,
          .text (boundText (req.url.getD []) req.urlLen),
          blobValue (some (req.body.getD [])) req.bodyLen] := by
  unfold Request.boundKey requestRow encodeRequest RequestRow.key
  dsimp only
  rw [textValue_eq_text hurl]

theorem boundKey_eq_identity (hwf : req.WellFormed) (hurl : req.url ≠ none)
    (hurlLen : req.urlLen < 2 ^ 31) (hbodyLen : req.bodyLen < 2 ^ 31)
    : req.boundKey = req.identity := by
  rw [← hwf.url] at hurlLen
  rw [← hwf.body] at hbodyLen
  rw [boundKey_eq hurl, ← hwf.url, ← hwf.body, boundText_eq_self hurlLen,
    blobValue_of_short hbodyLen]
  rfl

theorem boundKey_ne_null (hurl : req.url ≠ none) : ∀ v ∈ req.boundKey, v ≠ .null := by
  rw [boundKey_eq hurl]
  simp [blobValue_ne_null]

theorem key_requestRow (env : CallEnv) : (requestRow req env).key = req.boundKey := rfl

theorem stepInsertRequest_cases (hurl : req.url ≠ none) (env : CallEnv)
    : stepInsertRequest env s (insertRequestValues req) = (.done, insertedRequest env s req) ∨
        (stepInsertRequest env s (insertRequestValues req) = (.error, s) ∧
          ∀ row ∈ s.db.collections.rows, req.collectionId ≠ row.1) := by
  have hne : textValue req.url req.urlLen ≠ .null := by
    intro heq
    exact hurl (textValue_eq_null.mp heq)
  have hunfold : stepInsertRequest env s (insertRequestValues req) =
      if textValue req.url req.urlLen = .null then
        (.done, { s with db := { s.db with requests := s.db.requests.skip } })
      else
        let res := s.db.requests.insertOrIgnore RequestRow.key (requestRow req env)
        let db := { s.db with requests := res.1 }
        if res.2 = false then
          (.done, { s with db := db })
        else if Value.integer req.collectionId = .null ∨
            s.db.collections.rows.any (fun r => decide (Value.integer req.collectionId = .integer r.1)) then
          (.done, { s with db := db, lastRowid := res.1.seq })
        else
          (.error, s) := rfl
  rw [hunfold, if_neg hne, insertedRequest]
  cases hadded : (s.db.requests.insertOrIgnore RequestRow.key (requestRow req env)).2 with
  | false =>
    left
    simp [hadded]
  | true =>
    by_cases hfk : s.db.collections.rows.any
        (fun r => decide (Value.integer req.collectionId = .integer r.1)) = true
    . left
      simp only [hadded, hfk, or_true, if_true, Bool.true_eq_false, if_false]
    . right
      constructor
      . simp only [hadded, hfk, or_false, if_false, Bool.true_eq_false, reduceCtorEq]
      . intro row hrow heq
        apply hfk
        rw [List.any_eq_true]
        exact ⟨row, hrow, by rw [heq]; simp⟩

theorem stepInsertRequest_run (hurl : req.url ≠ none)
    (hcoll : ∃ row ∈ s.db.collections.rows, req.collectionId = row.1) (env : CallEnv)
    : stepInsertRequest env s (insertRequestValues req) =
        (.done, insertedRequest env s req) := by
  cases stepInsertRequest_cases (s := s) hurl env with
  | inl h => exact h
  | inr h =>
    rcases hcoll with ⟨row, hrow, heq⟩
    exact absurd heq (h.2 row hrow)

theorem lookup_insertedRequest (hurl : req.url ≠ none) (env : CallEnv)
    : (insertedRequest env s req).db.requests.lookup RequestRow.key req.boundKey =
        some (savedRow env s.db req) := by
  unfold insertedRequest savedRow
  dsimp only
  rw [← key_requestRow env]
  apply Table.lookup_insertOrIgnore_self
  rw [key_requestRow]
  exact boundKey_ne_null hurl

section Run

theorem dbSaveRequest_not_calm (h : calm 10 es = false ∨ none ∈ insertRequestParams req)
    : (dbSaveRequest (some req)).run answer es s = ((sqliteError, some req), s) := by
  unfold dbSaveRequest
  apply run_statement_of_not_calm
  . exact h
  . rfl

-- The second statement of `db_save_request`.
theorem run_selectRequestId (hcalm : calm 10 es = true) (hbound : none ∉ insertRequestParams req)
    (hdone : (stepInsertRequest ((es.drop 9).headD default) s (insertRequestValues req)).1 = .done)
    : (dbSaveRequest (some req)).run answer es s =
        (statement .selectRequestId (selectRequestParams req) (.ret (sqliteError, some req)) fun r =>
          match r with
          | .row cols => .ret (sqliteOk, some { req with id := columnInt (cols.headD .null) })
          | _ => .ret (sqliteError, some req)).run answer (es.drop 10)
            (stepInsertRequest ((es.drop 9).headD default) s (insertRequestValues req)).2 := by
  unfold dbSaveRequest
  dsimp only
  rw [run_statement_of_calm (insertRequestParams_eq hbound) hcalm]
  have hstep : (stepStatement ((es.drop ((insertRequestValues req).length + 1)).headD default) s
      .insertRequest (insertRequestValues req)).1 = .done := hdone
  rw [hstep]
  rfl

theorem selectRequestParams_eq (hbody : req.body ≠ none)
    (hbound : none ∉ insertRequestParams req)
    : selectRequestParams req = req.boundKey.map some := by
  have hurl' : bindText req.url req.urlLen ≠ none := by
    intro heq
    simp [insertRequestParams, heq] at hbound
  have hbody' : bindBlob (some (req.body.getD [])) req.bodyLen ≠ none := by
    intro heq
    simp [insertRequestParams, heq] at hbound
  have hsome : some (req.body.getD []) = req.body := by
    cases h : req.body with
    | none => exact absurd h hbody
    | some body => rfl
  unfold selectRequestParams
  rw [← hsome, bindText_of_ne_none hurl', bindBlob_of_ne_none hbody']
  rfl

theorem selectRequestParams_of_body_eq_none (hbody : req.body = none)
    (hbound : none ∉ insertRequestParams req)
    : selectRequestParams req =
        [Value.integer req.collectionId, .integer req.method.toInt, textValue req.url req.urlLen,
          .null].map some := by
  have hurl' : bindText req.url req.urlLen ≠ none := by
    intro heq
    simp [insertRequestParams, heq] at hbound
  have hbind : bindBlob none req.bodyLen = some .null := by
    unfold bindBlob
    rw [blobValue_none]
    rfl
  unfold selectRequestParams
  rw [bindText_of_ne_none hurl', hbody, hbind]
  rfl

variable (hcalm : calm 10 es = true) (hbound : none ∉ insertRequestParams req)
  (hstep : stepInsertRequest ((es.drop 9).headD default) s (insertRequestValues req) =
    (.done, insertedRequest ((es.drop 9).headD default) s req))

include hcalm hbound hstep

theorem dbSaveRequest_found (hurl : req.url ≠ none) (hbody : req.body ≠ none)
    (hlookup : calm 6 (es.drop 10) = true)
    : (dbSaveRequest (some req)).run answer es s =
        ((sqliteOk, some { req with id := Lib.toInt (savedRow ((es.drop 9).headD default) s.db req).1 }),
          insertedRequest ((es.drop 9).headD default) s req) := by
  rw [run_selectRequestId hcalm hbound (by rw [hstep]), hstep]
  dsimp only
  rw [run_statement_of_calm (selectRequestParams_eq hbody hbound) hlookup]
  simp only [stepStatement, stepSelectRequestId]
  rw [lookup_insertedRequest hurl]
  rfl

/-- Without a body the lookup compares with NULL and finds nothing. -/
theorem dbSaveRequest_not_found (h : req.body = none ∨ calm 6 (es.drop 10) = false)
    : (dbSaveRequest (some req)).run answer es s =
        ((sqliteError, some req), insertedRequest ((es.drop 9).headD default) s req) := by
  rw [run_selectRequestId hcalm hbound (by rw [hstep]), hstep]
  dsimp only
  cases hlookup : calm 6 (es.drop 10) with
  | false =>
    apply run_statement_of_not_calm
    . exact Or.inl hlookup
    . rfl
  | true =>
    have hbody : req.body = none := by
      cases h with
      | inl h => exact h
      | inr h =>
        rw [hlookup] at h
        cases h
    rw [run_statement_of_calm (selectRequestParams_of_body_eq_none hbody hbound) hlookup]
    simp only [stepStatement, stepSelectRequestId]
    rw [Table.lookup_of_null_mem (by simp)]
    rfl

end Run

theorem sqliteOk_ne_error : sqliteOk ≠ sqliteError := by decide

theorem dbSaveRequest_refused (hcalm : calm 10 es = true) (hbound : none ∉ insertRequestParams req)
    (hstep : stepInsertRequest ((es.drop 9).headD default) s (insertRequestValues req) = (.error, s))
    : ((dbSaveRequest (some req)).run answer es s).1 = (sqliteError, some req) := by
  unfold dbSaveRequest
  rw [run_statement_of_calm (insertRequestParams_eq hbound) hcalm]
  simp only [stepStatement, insertRequestValues, List.length_cons, List.length_nil] at hstep ⊢
  rw [hstep]
  rfl

theorem dbSaveRequest_ok (hurl : req.url ≠ none)
    (h : ((dbSaveRequest (some req)).run answer es s).1.1 = sqliteOk)
    : ∃ env,
        req.body ≠ none ∧
        none ∉ insertRequestParams req ∧
        (dbSaveRequest (some req)).run answer es s =
          ((sqliteOk, some { req with id := Lib.toInt (savedRow env s.db req).1 }),
            insertedRequest env s req) := by
  by_cases hins : calm 10 es = true ∧ none ∉ insertRequestParams req
  . cases stepInsertRequest_cases (s := s) hurl ((es.drop 9).headD default) with
    | inl hstep =>
      by_cases hgo : req.body ≠ none ∧ calm 6 (es.drop 10) = true
      . exact ⟨_, hgo.1, hins.2, dbSaveRequest_found hins.1 hins.2 hstep hurl hgo.1 hgo.2⟩
      . rw [not_and_or, not_not, Bool.not_eq_true] at hgo
        rw [dbSaveRequest_not_found hins.1 hins.2 hstep hgo] at h
        exact absurd h.symm sqliteOk_ne_error
    | inr hstep =>
      rw [dbSaveRequest_refused hins.1 hins.2 hstep.1] at h
      exact absurd h.symm sqliteOk_ne_error
  . rw [not_and_or, Bool.not_eq_true, not_not] at hins
    rw [dbSaveRequest_not_calm hins] at h
    exact absurd h.symm sqliteOk_ne_error

theorem dbSaveRequest_of_body_eq_none (hurl : req.url ≠ none) (hbody : req.body = none)
    : ((dbSaveRequest (some req)).run answer es s).1 = (sqliteError, some req) := by
  by_cases hins : calm 10 es = true ∧ none ∉ insertRequestParams req
  . cases stepInsertRequest_cases (s := s) hurl ((es.drop 9).headD default) with
    | inl hstep => rw [dbSaveRequest_not_found hins.1 hins.2 hstep (Or.inl hbody)]
    | inr hstep => exact dbSaveRequest_refused hins.1 hins.2 hstep.1
  . rw [not_and_or, Bool.not_eq_true, not_not] at hins
    rw [dbSaveRequest_not_calm hins]

section Total

structure NoResourceFailure (req : Request) (es : List CallEnv) : Prop where
  calm : ∀ e ∈ es, e.fault = false
  url : (textValue req.url req.urlLen).size ≤ sqliteMaxLength
  headers : (textValue req.headers req.headersLen).size ≤ sqliteMaxLength
  body : (blobValue (some (req.body.getD [])) req.bodyLen).size ≤ sqliteMaxLength

def identityRows (db : Database) (req : Request) : List (Nat × RequestRow) :=
  db.requests.rows.filter (fun row => row.2.key = req.identity)

/--
`db_save_request` succeeds with the id of the only row of the request, and where it fails it leaves
the rows alone.
-/
structure SavesTotally (es : List CallEnv) (s : Conn) (req : Request) : Prop where
  saved : NoResourceFailure req es →
    let res := (dbSaveRequest (some req)).run answer es s
    res.1.1 = sqliteOk ∧
      ∃ row, identityRows res.2.db req = [row] ∧ res.1.2 = some { req with id := row.1 }
  atomic :
    let res := (dbSaveRequest (some req)).run answer es s
    res.1.1 = sqliteError → res.2.db.requests.rows = s.db.requests.rows

-- The id of the row of `req`, or the one that a row of it will get.
def rowIdOf (db : Database) (req : Request) : Nat :=
  ((db.requests.lookup RequestRow.key req.identity).map Prod.fst).getD (db.requests.seq + 1)

-- The INSERT goes through and adds a row.
def AddsRow (es : List CallEnv) (s : Conn) (req : Request) : Prop :=
  calm 10 es = true ∧
    none ∉ insertRequestParams req ∧
    s.db.requests.lookup RequestRow.key req.boundKey = none

structure SaveRequestCondition (es : List CallEnv) (s : Conn) (req : Request) : Prop where
  body : NoResourceFailure req es → req.body ≠ none
  urlLen : NoResourceFailure req es → req.urlLen < 2 ^ 31
  bodyLen : NoResourceFailure req es → req.bodyLen < 2 ^ 31
  rowId : NoResourceFailure req es → rowIdOf s.db req < 2 ^ 31
  lookup : AddsRow es s req → req.body ≠ none ∧ calm 6 (es.drop 10) = true

variable {Saved : Request → Prop}

theorem bound_of_noResourceFailure (h : NoResourceFailure req es) : none ∉ insertRequestParams req := by
  simp [insertRequestParams, bindInt, bindText, bindBlob, Nat.not_lt.mpr h.url, Nat.not_lt.mpr h.headers,
    Nat.not_lt.mpr h.body]

theorem db_insertedRequest_valid (hvalid : s.db.Valid Saved) (hsaved : Saved req)
    (hurl : req.url ≠ none) (hbound : none ∉ insertRequestParams req) (env : CallEnv)
    : (insertedRequest env s req).db.Valid Saved :=
  hvalid.insertRequest hsaved hbound hurl _ _

theorem identityRows_eq {db : Database} (hvalid : db.Valid Saved)
    (hkey : req.boundKey = req.identity) (hurl : req.url ≠ none) {row : Nat × RequestRow}
    (hlookup : db.requests.lookup RequestRow.key req.boundKey = some row)
    : identityRows db req = [row] := by
  rw [← hvalid.requests.filter_eq hlookup]
  unfold identityRows
  apply List.filter_congr
  intro row _
  rw [← hkey, Bool.eq_iff_iff, decide_eq_true_iff, allSame_iff]
  constructor
  . intro h
    exact ⟨h, h ▸ boundKey_ne_null hurl⟩
  . intro h
    exact h.1

theorem rowIdOf_eq (hkey : req.boundKey = req.identity) (env : CallEnv)
    : rowIdOf s.db req = (savedRow env s.db req).1 := by
  unfold rowIdOf savedRow
  rw [hkey]
  cases s.db.requests.lookup RequestRow.key req.identity <;> rfl

theorem rows_insertedRequest_of_some {row : Nat × RequestRow}
    (h : s.db.requests.lookup RequestRow.key req.boundKey = some row) (env : CallEnv)
    : (insertedRequest env s req).db.requests.rows = s.db.requests.rows := by
  unfold insertedRequest
  dsimp only
  rw [Table.insertOrIgnore_of_some (by rw [key_requestRow]; exact h)]
  rfl

theorem rows_insertedRequest_of_none
    (h : s.db.requests.lookup RequestRow.key req.boundKey = none) (env : CallEnv)
    : (insertedRequest env s req).db.requests.rows =
        s.db.requests.rows ++ [(s.db.requests.seq + 1, requestRow req env)] := by
  unfold insertedRequest
  dsimp only
  rw [Table.insertOrIgnore_of_none (by rw [key_requestRow]; exact h)]
  rfl

theorem length_le_of_identityRows (hvalid : s.db.Valid Saved) (hwf : req.WellFormed)
    {row : Nat × RequestRow} (h : identityRows s.db req = [row])
    : req.urlLen ≤ sqliteMaxLength ∧ req.bodyLen ≤ sqliteMaxLength := by
  have hrow : row ∈ identityRows s.db req := by simp [h]
  unfold identityRows at hrow
  rw [List.mem_filter, decide_eq_true_iff] at hrow
  have ⟨hurl, hbody⟩ := hvalid.size_le hrow.1
  have hkey := hrow.2
  unfold RequestRow.key Request.identity at hkey
  simp only [List.cons.injEq] at hkey
  rw [hkey.2.2.1] at hurl
  rw [hkey.2.2.2.1] at hbody
  rw [← hwf.url, ← hwf.body]
  exact ⟨hurl, hbody⟩

theorem dbSaveRequest_of_fits (hvalid : s.db.Valid Request.WellFormed) (hwf : req.WellFormed)
    (hurl : req.url ≠ none) (hcoll : ∃ row ∈ s.db.collections.rows, req.collectionId = row.1)
    (hres : NoResourceFailure req es) (hbody : req.body ≠ none) (hurlLen : req.urlLen < 2 ^ 31)
    (hbodyLen : req.bodyLen < 2 ^ 31)
    : ∃ row s',
        (dbSaveRequest (some req)).run answer es s =
          ((sqliteOk, some { req with id := Lib.toInt row.1 }), s') ∧
        identityRows s'.db req = [row] ∧
        rowIdOf s.db req = row.1 := by
  have hbound := bound_of_noResourceFailure hres
  have hkey := boundKey_eq_identity hwf hurl hurlLen hbodyLen
  have hvalid' := db_insertedRequest_valid hvalid hwf hurl hbound ((es.drop 9).headD default)
  have hstep := stepInsertRequest_run hurl hcoll ((es.drop 9).headD default)
  refine ⟨_, _, dbSaveRequest_found ?_ hbound hstep hurl hbody ?_, ?_, ?_⟩
  . exact calm_of_forall hres.calm 10
  . exact calm_of_forall (fun e he => hres.calm e (List.mem_of_mem_drop he)) 6
  . exact identityRows_eq hvalid' hkey hurl (lookup_insertedRequest hurl _)
  . exact rowIdOf_eq hkey _

theorem SavesTotally.condition (h : SavesTotally es s req) (hreach : s.Reachable Request.WellFormed)
    (hwf : req.WellFormed) (hurl : req.url ≠ none)
    (hcoll : ∃ row ∈ s.db.collections.rows, req.collectionId = row.1)
    : SaveRequestCondition es s req := by
  have hstep := stepInsertRequest_run hurl hcoll ((es.drop 9).headD default)
  have hbody : NoResourceFailure req es → req.body ≠ none := by
    intro hres hnone
    have hrun := dbSaveRequest_not_found (calm_of_forall hres.calm 10)
      (bound_of_noResourceFailure hres) hstep (Or.inl hnone)
    have hok := (h.saved hres).1
    rw [hrun] at hok
    exact sqliteOk_ne_error hok.symm
  have hshort (hres : NoResourceFailure req es) : req.urlLen < 2 ^ 31 ∧ req.bodyLen < 2 ^ 31 := by
    rcases (h.saved hres).2 with ⟨row, hrow, _⟩
    have hvalid := (hreach.run (issued_dbSaveRequest hwf) es).valid
    have := length_le_of_identityRows hvalid.1 hwf hrow
    unfold sqliteMaxLength at this
    omega
  constructor
  . exact hbody
  . intro hres
    exact (hshort hres).1
  . intro hres
    exact (hshort hres).2
  . intro hres
    rcases dbSaveRequest_of_fits hreach.valid.1 hwf hurl hcoll hres (hbody hres) (hshort hres).1
      (hshort hres).2 with ⟨row, s', hrun, hrows, hid⟩
    rcases (h.saved hres).2 with ⟨row', hrows', hid'⟩
    rw [hrun] at hrows' hid'
    dsimp only at hrows' hid'
    rw [hrows, List.cons.injEq] at hrows'
    have hint : Lib.toInt row.1 = row.1 := by
      rw [Option.some.injEq, Request.mk.injEq, ← hrows'.1] at hid'
      exact hid'.1
    have hlt := Lib.toInt_lt row.1
    rw [hint] at hlt
    rw [hid]
    exact_mod_cast hlt
  . intro hadds
    by_contra hlookup
    rw [not_and_or, not_not, Bool.not_eq_true] at hlookup
    have hrun := dbSaveRequest_not_found hadds.1 hadds.2.1 hstep hlookup
    have hrows := h.atomic
    rw [hrun] at hrows
    have := hrows rfl
    dsimp only at this
    rw [rows_insertedRequest_of_none hadds.2.2] at this
    simp at this

theorem SaveRequestCondition.savesTotally (h : SaveRequestCondition es s req)
    (hreach : s.Reachable Request.WellFormed) (hwf : req.WellFormed) (hurl : req.url ≠ none)
    (hcoll : ∃ row ∈ s.db.collections.rows, req.collectionId = row.1) : SavesTotally es s req := by
  have hstep := stepInsertRequest_run hurl hcoll ((es.drop 9).headD default)
  constructor
  . intro hres
    rcases dbSaveRequest_of_fits hreach.valid.1 hwf hurl hcoll hres (h.body hres) (h.urlLen hres)
      (h.bodyLen hres) with ⟨row, s', hrun, hrows, hid⟩
    have hlt := h.rowId hres
    rw [hid] at hlt
    dsimp only
    rw [hrun, Lib.toInt_ofNat hlt]
    exact ⟨rfl, row, hrows, rfl⟩
  . dsimp only
    intro herror
    by_cases hins : calm 10 es = true ∧ none ∉ insertRequestParams req
    . cases hlookup : s.db.requests.lookup RequestRow.key req.boundKey with
      | some row =>
        by_cases hgo : req.body ≠ none ∧ calm 6 (es.drop 10) = true
        . rw [dbSaveRequest_found hins.1 hins.2 hstep hurl hgo.1 hgo.2] at herror
          exact absurd herror sqliteOk_ne_error
        . rw [not_and_or, not_not, Bool.not_eq_true] at hgo
          rw [dbSaveRequest_not_found hins.1 hins.2 hstep hgo]
          exact rows_insertedRequest_of_some hlookup _
      | none =>
        have hgo := h.lookup ⟨hins.1, hins.2, hlookup⟩
        rw [dbSaveRequest_found hins.1 hins.2 hstep hurl hgo.1 hgo.2] at herror
        exact absurd herror sqliteOk_ne_error
    . rw [not_and_or, Bool.not_eq_true, not_not] at hins
      rw [dbSaveRequest_not_calm hins]

/--
On a reachable database, `db_save_request` is total and atomic exactly under the condition: the body
is not NULL, the lengths and the row id fit in an `int`, and nothing fails once a row was added.
-/
theorem dbSaveRequest_total_iff (hreach : s.Reachable Request.WellFormed) (hwf : req.WellFormed)
    (hurl : req.url ≠ none) (hcoll : ∃ row ∈ s.db.collections.rows, req.collectionId = row.1)
    (es : List CallEnv) : SavesTotally es s req ↔ SaveRequestCondition es s req := by
  constructor
  . intro h
    exact h.condition hreach hwf hurl hcoll
  . intro h
    exact h.savesTotally hreach hwf hurl hcoll

-- A database with one collection, and a request without and with a body.
def oneCollection : Conn :=
  ((dbSaveCollection (some { id := 0, name := some [99], nameLen := 1 })).run answer []
    (Conn.open .empty)).2

def getRequest : Request where
  id := 0
  collectionId := 1
  method := .get
  url := some [117]
  urlLen := 1
  headers := none
  headersLen := 0
  body := none
  bodyLen := 0
  status := 0

def postRequest : Request :=
  { getRequest with method := .post, body := some [98], bodyLen := 1 }

theorem oneCollection_reachable : oneCollection.Reachable Saved :=
  Conn.Reachable.first.run (issued_dbSaveCollection _) []

theorem getRequest_wellFormed : getRequest.WellFormed := by
  constructor <;> decide

theorem postRequest_wellFormed : postRequest.WellFormed := by
  constructor <;> decide

theorem dbSaveRequest_total_postRequest : SavesTotally [] oneCollection postRequest := by
  apply (dbSaveRequest_total_iff oneCollection_reachable postRequest_wellFormed (by decide)
    (by decide) []).mpr
  constructor
  all_goals
    intro _
    decide +kernel

/-- A request without a body is stored and still reported as an error. -/
theorem dbSaveRequest_total_getRequest_fails
    : oneCollection.Reachable Request.WellFormed ∧
        getRequest.WellFormed ∧
        getRequest.url ≠ none ∧
        (∃ row ∈ oneCollection.db.collections.rows, getRequest.collectionId = row.1) ∧
        NoResourceFailure getRequest [] ∧
        ((dbSaveRequest (some getRequest)).run answer [] oneCollection).1.1 = sqliteError ∧
        ((dbSaveRequest (some getRequest)).run answer [] oneCollection).2.db.requests.rows ≠
          oneCollection.db.requests.rows ∧
        ¬ SavesTotally [] oneCollection getRequest := by
  have hres : NoResourceFailure getRequest [] := by
    constructor <;> decide +kernel
  refine ⟨oneCollection_reachable, getRequest_wellFormed, by decide, by decide, hres, by decide +kernel,
    by decide +kernel, ?_⟩
  intro h
  have hok := (h.saved hres).1
  exact absurd hok (by decide +kernel)

end Total

end HttpRuntime
