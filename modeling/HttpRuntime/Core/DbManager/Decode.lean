import HttpRuntime.Core.DbManager.Claim
import HttpRuntime.Core.DbManager.SaveRequest

/-!
This module contains how a stored request is read back: `map_row_to_request` after
`db_save_request`.
-/

open Lib Lib.Sql

namespace HttpRuntime

variable {α : Type} {req : Request} {es : List CallEnv} {s : Conn}

def Calm (es : List CallEnv) : Prop := ∀ e ∈ es, e.fault = false

theorem copyOf_of_fits {src : Option Bytes} {len : Nat} (h : len ≤ readable src)
    : copyOf src len = .returned (safeCopyBlob src len) := by
  unfold copyOf
  rw [if_neg]
  intro hover
  exact absurd hover.2 (Nat.not_lt.mpr h)

theorem safeCopyBlob_getD {src : Option Bytes} {len : Nat} (h : (src.getD []).length = len)
    : (safeCopyBlob src len).getD [] = src.getD [] := by
  unfold safeCopyBlob
  cases src with
  | none => split <;> rfl
  | some bytes =>
    rw [Option.getD_some] at h
    split
    . next hzero =>
      rw [hzero, List.length_eq_zero_iff] at h
      rw [h]
      rfl
    . rw [← h]
      simp

theorem safeCopyBlob_ne_none {src : Option Bytes} {len : Nat} (h : (src.getD []).length = len)
    (hpos : len > 0) : safeCopyBlob src len ≠ none := by
  unfold safeCopyBlob
  rw [if_neg (by omega)]
  cases src with
  | none =>
    rw [← h] at hpos
    cases hpos
  | some bytes => simp

def decodedRequest (req : Request) (id : Nat) (status : Value) : Request where
  id := Lib.toInt id
  collectionId := req.collectionId
  method := req.method
  url := safeCopyBlob req.url req.urlLen
  urlLen := req.urlLen
  headers := safeCopyBlob req.headers req.headersLen
  headersLen := req.headersLen
  body := safeCopyBlob req.body req.bodyLen
  bodyLen := req.bodyLen
  status := columnInt status

theorem textValue_eq_self {p : Option Bytes} {len : Nat} (h : (p.getD []).length = len)
    (hlen : len < 2 ^ 31) : columnText (textValue p len) = p := by
  cases p with
  | none => rfl
  | some bytes =>
    rw [Option.getD_some] at h
    rw [← h] at hlen ⊢
    simp only [textValue, columnText, boundText_eq_self hlen]

theorem copyOf_columnString {p : Option Bytes} {len : Nat} (h : (p.getD []).length = len)
    (hlen : len < 2 ^ 31)
    : copyOf (columnString (textValue p len)) len = .returned (safeCopyBlob p len) := by
  unfold columnString
  rw [textValue_eq_self h hlen]
  cases p with
  | none =>
    rw [← h]
    rfl
  | some bytes =>
    rw [Option.getD_some] at h
    rw [copyOf_of_fits (by simp [readable, ← h])]
    unfold safeCopyBlob
    rw [Option.map_some, Option.map_some, Option.map_some, List.take_append_of_le_length (by omega)]

theorem copyOf_columnBlob {p : Option Bytes} {len : Nat} (h : (p.getD []).length = len)
    (hlen : len < 2 ^ 31)
    : copyOf (columnBlob (blobValue (some (p.getD [])) len)) len = .returned (safeCopyBlob p len) := by
  rw [← h] at hlen ⊢
  rw [blobValue_of_short hlen]
  cases p with
  | none => rfl
  | some bytes =>
    rw [Option.getD_some]
    cases bytes with
    | nil => rfl
    | cons c bytes => exact copyOf_of_fits (Nat.le_refl _)

theorem bodyLen_encodeRequest (hwf : req.WellFormed)
    : (if req.body ≠ none then req.bodyLen else 0) = req.bodyLen := by
  split
  . rfl
  . next hbody =>
    rw [not_not] at hbody
    rw [← hwf.body, hbody]
    rfl

theorem toInt_method (m : Method) : Lib.toInt m.toInt = m.toInt := by
  cases m <;> decide

theorem decodeRequest_encodeRequest (hwf : req.WellFormed) (hshort : req.Short) (id : Nat)
    (status : Value) (createdAt : Nat)
    : decodeRequest (id, encodeRequest req status createdAt) =
        .returned (if req.url.getD [] = [] then none else some (decodedRequest req id status)) := by
  unfold decodeRequest
  simp only [encodeRequest, columnLen, bodyLen_encodeRequest hwf, Int.toNat_natCast]
  rw [copyOf_columnString hwf.url hshort.url, copyOf_columnString hwf.headers hshort.headers,
    copyOf_columnBlob hwf.body hshort.body]
  dsimp only
  by_cases hurl : req.url.getD [] = []
  . have hzero : req.urlLen = 0 := by
      rw [← hwf.url, hurl]
      rfl
    rw [if_pos hurl, if_pos (Or.inr hzero)]
  . have hurlLen : req.urlLen > 0 := by
      rw [← hwf.url]
      exact List.length_pos_iff.mpr hurl
    rw [if_neg hurl, if_neg, if_neg, if_neg]
    . simp only [decodedRequest, columnInt, toInt_method, Method.ofInt_toInt,
        Lib.toInt_eq_self hwf.collectionId_ge hwf.collectionId_lt]
    . intro hbody
      exact safeCopyBlob_ne_none hwf.body hbody.1 hbody.2
    . intro hheaders
      exact safeCopyBlob_ne_none hwf.headers hheaders.1 hheaders.2
    . intro hurl'
      cases hurl' with
      | inl hnone => exact safeCopyBlob_ne_none hwf.url hurlLen hnone
      | inr hzero => omega

def decodeRow (db : Database) (id : Int) : DbProg (Outcome (Option Request)) :=
  match db.requests.rows.find? (fun row => decide ((row.1 : Int) = id)) with
  | some row => mapRowToRequest (requestColumns row) (.ret .crashed) (fun req => .ret (.returned req))
  | none => .ret (.returned none)

theorem run_decodeRow {db : Database} {id : Int} {row : Nat × RequestRow}
    (hfind : db.requests.rows.find? (fun row => decide ((row.1 : Int) = id)) = some row)
    {decoded : Option Request} (hdecoded : decodeRequest row = .returned decoded) (h : Calm es)
    : (decodeRow db id).run answer es s = (.returned decoded, s) := by
  unfold decodeRow
  rw [hfind]
  dsimp only
  rcases plain_answer.run_mapRowToRequest (α := Outcome (Option Request)) es s row (.ret .crashed)
    (fun req => .ret (.returned req)) with ⟨_, hrun⟩ | ⟨hnot, _⟩
  . rw [hrun, hdecoded]
    rfl
  . rw [calm_of_forall h, hdecoded] at hnot
    simp at hnot

-- NULL and empty are identified.
structure SameContent (req req' : Request) : Prop where
  collectionId : req'.collectionId = req.collectionId
  method : req'.method = req.method
  url : req'.url.getD [] = req.url.getD []
  urlLen : req'.urlLen = req.urlLen
  body : req'.body.getD [] = req.body.getD []
  bodyLen : req'.bodyLen = req.bodyLen

structure SameHeaders (req req' : Request) : Prop where
  headers : req'.headers.getD [] = req.headers.getD []
  headersLen : req'.headersLen = req.headersLen

theorem mem_identityRows {db : Database} {row : Nat × RequestRow}
    : row ∈ identityRows db req ↔ row ∈ db.requests.rows ∧ row.2.key = req.identity := by
  unfold identityRows
  rw [List.mem_filter, decide_eq_true_iff]

theorem lookup_identity_eq_none_iff (hurl : req.url ≠ none) (hkey : req.boundKey = req.identity)
    {db : Database}
    : db.requests.lookup RequestRow.key req.boundKey = none ↔ identityRows db req = [] := by
  unfold Table.lookup identityRows
  rw [List.find?_eq_none, List.filter_eq_nil_iff]
  apply forall_congr'
  intro row
  apply forall_congr'
  intro _
  rw [decide_eq_true_iff, allSame_iff, ← hkey]
  constructor
  . intro h heq
    exact h ⟨heq, heq ▸ boundKey_ne_null hurl⟩
  . intro h hsame
    exact h hsame.1

theorem sameContent_decodedRequest {req' : Request} (hwf : req.WellFormed) (hwf' : req'.WellFormed)
    (h : req'.identity = req.identity) (id : Nat) (status : Value)
    : SameContent req (decodedRequest req' id status) := by
  unfold Request.identity at h
  simp only [List.cons.injEq, Value.integer.injEq, Value.text.injEq, Value.blob.injEq] at h
  unfold decodedRequest
  constructor
  . exact h.1
  . exact Method.toInt_injective h.2.1
  . rw [safeCopyBlob_getD hwf'.url, h.2.2.1]
  . rw [← hwf'.url, ← hwf.url, h.2.2.1]
  . rw [safeCopyBlob_getD hwf'.body, h.2.2.2.1]
  . rw [← hwf'.body, ← hwf.body, h.2.2.2.1]

theorem sameHeaders_decodedRequest_iff {req' : Request} (hwf : req.WellFormed)
    (hwf' : req'.WellFormed) (id : Nat) (status : Value)
    : SameHeaders req (decodedRequest req' id status) ↔
        req'.headers.getD [] = req.headers.getD [] := by
  unfold decodedRequest
  constructor
  . intro h
    rw [← h.headers, safeCopyBlob_getD hwf'.headers]
  . intro h
    constructor
    . rw [safeCopyBlob_getD hwf'.headers, h]
    . rw [← hwf'.headers, ← hwf.headers, h]

/-- The requests that the tables of `dbSaveRequest_stores` were filled with. -/
def Storable (req : Request) : Prop := req.WellFormed ∧ req.Short

/--
The row that answers to a request encodes a request of the same identity: the one that was saved
first, whose headers it keeps.
-/
theorem savedRow_encodes (hvalid : s.db.Valid Storable) (hreq : Storable req)
    (hurl : req.url ≠ none) (env : CallEnv)
    : ∃ req' status createdAt,
        Storable req' ∧
        req'.identity = req.identity ∧
        (savedRow env s.db req).2 = encodeRequest req' status createdAt ∧
        (req'.headers.getD [] = req.headers.getD [] ↔
          ∀ row ∈ identityRows s.db req, (columnText row.2.headers).getD [] = req.headers.getD []) := by
  have hkey := boundKey_eq_identity hreq.1 hurl hreq.2.url hreq.2.body
  unfold savedRow
  cases hlookup : s.db.requests.lookup RequestRow.key req.boundKey with
  | none =>
    refine ⟨req, _, _, hreq, rfl, rfl, ?_⟩
    rw [(lookup_identity_eq_none_iff hurl hkey).mp hlookup]
    simp
  | some row =>
    have ⟨req', status, createdAt, hreq', _, hurl', hrow⟩ :=
      hvalid.encoded row (Table.mem_of_lookup hlookup)
    have hrowKey := (Table.key_of_lookup hlookup).1
    have hident : req'.identity = req.identity := by
      rw [← hkey, ← hrowKey, hrow, ← boundKey_eq_identity hreq'.1 hurl' hreq'.2.url hreq'.2.body]
      rfl
    have hheaders : columnText row.2.headers = req'.headers := by
      rw [hrow]
      exact textValue_eq_self hreq'.1.headers hreq'.2.headers
    refine ⟨req', status, createdAt, hreq', hident, hrow, ?_⟩
    constructor
    . intro h row' hrow'
      rw [identityRows_eq hvalid hkey hurl hlookup, List.mem_singleton] at hrow'
      rw [hrow', hheaders, h]
    . intro h
      rw [← hheaders]
      apply h
      rw [mem_identityRows]
      exact ⟨Table.mem_of_lookup hlookup, hrowKey.trans hkey⟩

/--
A successful save of a request with a URL is read back as the request that was given, its headers
exactly when the identity had no row with other headers. A request whose URL is empty is read back as
none.
-/
theorem dbSaveRequest_stores_given (hreach : s.Reachable Storable) (hreq : Storable req)
    (hurl : req.url ≠ none) (hid : rowIdOf s.db req < 2 ^ 31) (es : List CallEnv)
    (hok : ((dbSaveRequest (some req)).run answer es s).1.1 = sqliteOk) {es' : List CallEnv}
    (hes' : Calm es')
    : let res := (dbSaveRequest (some req)).run answer es s
      ∃ id,
        res.1.2 = some { req with id := id } ∧
        (req.url.getD [] = [] → (decodeRow res.2.db id).run answer es' res.2 = (.returned none, res.2)) ∧
        (req.url.getD [] ≠ [] →
          ∃ req',
            (decodeRow res.2.db id).run answer es' res.2 = (.returned (some req'), res.2) ∧
            SameContent req req' ∧
            (SameHeaders req req' ↔
              ∀ row ∈ identityRows s.db req,
                (columnText row.2.headers).getD [] = req.headers.getD [])) := by
  rcases dbSaveRequest_ok hurl hok with ⟨env, _, _, hrun⟩
  have hkey := boundKey_eq_identity hreq.1 hurl hreq.2.url hreq.2.body
  rcases savedRow_encodes hreach.valid.1 hreq hurl env
    with ⟨req', status, createdAt, hreq', hident, hrow, hheaders⟩
  rw [rowIdOf_eq hkey env] at hid
  have hmem := Table.mem_of_lookup (lookup_insertedRequest (s := s) hurl env)
  have hfind : (insertedRequest env s req).db.requests.rows.find?
      (fun row => decide ((row.1 : Int) = (savedRow env s.db req).1)) =
        some (savedRow env s.db req) := by
    apply Table.find?_id hmem
    . simp
    . intro r hr
      simpa using hr
  have hsameUrl : req'.url.getD [] = req.url.getD [] := by
    unfold Request.identity at hident
    simp only [List.cons.injEq, Value.text.injEq] at hident
    exact hident.2.2.1
  have hpair : savedRow env s.db req =
      ((savedRow env s.db req).1, encodeRequest req' status createdAt) := by
    rw [← hrow]
  have hdecoded := decodeRequest_encodeRequest hreq'.1 hreq'.2 (savedRow env s.db req).1 status createdAt
  rw [← hpair, hsameUrl] at hdecoded
  dsimp only
  rw [hrun]
  refine ⟨_, rfl, ?_, ?_⟩
  . intro hempty
    rw [if_pos hempty] at hdecoded
    dsimp only
    rw [Lib.toInt_ofNat hid]
    exact run_decodeRow hfind hdecoded hes'
  . intro hne
    rw [if_neg hne] at hdecoded
    refine ⟨decodedRequest req' (savedRow env s.db req).1 status, ?_, ?_, ?_⟩
    . dsimp only
      rw [Lib.toInt_ofNat hid]
      exact run_decodeRow hfind hdecoded hes'
    . exact sameContent_decodedRequest hreq.1 hreq'.1 hident _ _
    . rw [sameHeaders_decodedRequest_iff hreq.1 hreq'.1, hheaders]

section Examples

-- The same request with two different headers.
def requestWithHeaders (headers : Bytes) : Request :=
  { postRequest with headers := some headers, headersLen := headers.length }

theorem requestWithHeaders_storable (c : UInt8) : Storable (requestWithHeaders [c]) := by
  refine ⟨?_, ?_⟩
  . constructor
    all_goals simp [requestWithHeaders, postRequest, getRequest]
  . constructor
    all_goals simp [requestWithHeaders, postRequest, getRequest]

-- A database that holds the request with the header `a`.
def firstHeaders : Conn :=
  ((dbSaveRequest (some (requestWithHeaders [97]))).run answer [] oneCollection).2

theorem firstHeaders_reachable : firstHeaders.Reachable Storable :=
  oneCollection_reachable.run (issued_dbSaveRequest (requestWithHeaders_storable 97)) []

-- The row of the first save answers to the second one, which has other headers.
theorem dbSaveRequest_stores_postRequest
    : let res := (dbSaveRequest (some (requestWithHeaders [98]))).run answer [] firstHeaders
      ∃ id,
        res.1.2 = some { requestWithHeaders [98] with id := id } ∧
        ((requestWithHeaders [98]).url.getD [] = [] →
          (decodeRow res.2.db id).run answer [] res.2 = (.returned none, res.2)) ∧
        ((requestWithHeaders [98]).url.getD [] ≠ [] →
          ∃ req',
            (decodeRow res.2.db id).run answer [] res.2 = (.returned (some req'), res.2) ∧
            SameContent (requestWithHeaders [98]) req' ∧
            (SameHeaders (requestWithHeaders [98]) req' ↔
              ∀ row ∈ identityRows firstHeaders.db (requestWithHeaders [98]),
                (columnText row.2.headers).getD [] = (requestWithHeaders [98]).headers.getD [])) :=
  dbSaveRequest_stores_given firstHeaders_reachable (requestWithHeaders_storable 98) (by decide)
    (by decide +kernel) [] (by decide +kernel) (by simp [Calm])

def emptyUrlRequest : Request :=
  { postRequest with url := some [], urlLen := 0 }

theorem emptyUrlRequest_storable : Storable emptyUrlRequest := by
  refine ⟨?_, ?_⟩
  . constructor <;> decide
  . constructor <;> decide

/--
The headers of a second save are lost, since the row keeps those of the first. And a request with an
empty URL is stored but never read back.
-/
theorem dbSaveRequest_stores_other
    : firstHeaders.Reachable Storable ∧
        Storable (requestWithHeaders [98]) ∧
        Storable emptyUrlRequest ∧
        (let res := (dbSaveRequest (some (requestWithHeaders [98]))).run answer [] firstHeaders
        res.1.1 = sqliteOk ∧
          ∃ id req',
            res.1.2 = some { requestWithHeaders [98] with id := id } ∧
            ((decodeRow res.2.db id).run answer [] res.2).1 = .returned (some req') ∧
            ¬ SameHeaders (requestWithHeaders [98]) req') ∧
        (let res := (dbSaveRequest (some emptyUrlRequest)).run answer [] firstHeaders
        res.1.1 = sqliteOk ∧
          ∃ id,
            res.1.2 = some { emptyUrlRequest with id := id } ∧
            ((decodeRow res.2.db id).run answer [] res.2).1 = .returned none) := by
  refine ⟨firstHeaders_reachable, requestWithHeaders_storable 98, emptyUrlRequest_storable, ?_, ?_⟩
  . refine ⟨by decide +kernel, 1, { requestWithHeaders [97] with id := 1 }, by decide +kernel,
      by decide +kernel, ?_⟩
    intro h
    have := h.headers
    exact absurd this (by decide)
  . exact ⟨by decide +kernel, 2, by decide +kernel, by decide +kernel⟩

end Examples

end HttpRuntime
