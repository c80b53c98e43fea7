import HttpRuntime.Core.DbManager.ClaimAtomic
import HttpRuntime.Core.DbManager.Saves
import HttpRuntime.Core.Sqlite.Limit
import Mathlib.Data.List.Induction

/-!
This module contains which bodies the database stores whole. The length of a body goes through the
`int` parameter of `sqlite3_bind_blob`, and into the `body_len` column as it is.
-/

open Lib Lib.Sql

namespace HttpRuntime

variable {body behind : Bytes}

/-- The columns `body` and `body_len` of a row hold this body. -/
structure StoresBody (body : Bytes) (stored bodyLen : Value) : Prop where
  bytes : (columnBlob stored).getD [] = body
  size : columnBytes stored = body.length
  column : bodyLen = .integer body.length

/-- A save reports an error, or each row that it inserted holds the body. -/
structure SavesResponseBody (body : Bytes) (resp : Response) (es : List CallEnv) (s : Conn)
    : Prop where
  code :
    let res := (dbSaveResponse (some resp)).run limited es s
    res.1.1 = sqliteOk ∨ res.1.1 = sqliteError
  rows :
    let res := (dbSaveResponse (some resp)).run limited es s
    res.1.1 = sqliteOk →
      ∀ row ∈ res.2.db.responses.rows, row ∉ s.db.responses.rows →
        StoresBody body row.2.body row.2.bodyLen

structure SavesRequestBody (body : Bytes) (req : Request) (es : List CallEnv) (s : Conn)
    : Prop where
  code :
    let res := (dbSaveRequest (some req)).run limited es s
    res.1.1 = sqliteOk ∨ res.1.1 = sqliteError
  rows :
    let res := (dbSaveRequest (some req)).run limited es s
    res.1.1 = sqliteOk →
      ∀ row ∈ res.2.db.requests.rows, row ∉ s.db.requests.rows →
        StoresBody body row.2.body row.2.bodyLen

-- How much of a body `sqlite3_bind_blob` takes.
def takenLength (body : Bytes) : Nat :=
  let n := Lib.toInt body.length
  if n < 0 then (untilZeroPair body).length else n.toNat

-- What the shortest records have besides the bytes of the body and of `body_len`.
def responseOverhead : Nat := 34
def requestOverhead : Nat := 35

/-- The length of the body is an int, or no record with what SQLite takes of the body can be written. -/
def BodyFits (overhead : Nat) (body : Bytes) : Prop :=
  body.length < 2 ^ 31 ∨
    sqliteMaxLength < takenLength body + integerPayload body.length + overhead

theorem untilZeroPair_append (s t : Bytes)
    : untilZeroPair (s ++ t) = untilZeroPair s ∨
        s.length ≤ (untilZeroPair (s ++ t)).length + 1 := by
  -- two bytes at a time, as `untilZeroPair` reads them
  induction s using List.twoStepInduction with
  | nil => exact .inr (Nat.zero_le _)
  | singleton a => exact .inr (Nat.le_add_left 1 _)
  | cons_cons a b s ih =>
    by_cases hzero : a = 0 ∧ b = 0
    . left
      simp [untilZeroPair, hzero]
    . simp only [List.cons_append, untilZeroPair, if_neg hzero, List.length_cons]
      cases ih with
      | inl ih => exact .inl (by rw [ih])
      | inr ih => exact .inr (by omega)

theorem toInt_le (len : Nat) : (Lib.toInt len).toNat ≤ len := by
  unfold Lib.toInt
  omega

section Taken

theorem blobValue_body (body behind : Bytes)
    : blobValue (some (body ++ behind)) body.length =
        if Lib.toInt body.length < 0 then .text (untilZeroPair (body ++ behind))
        else .blob (body.take (Lib.toInt body.length).toNat) := by
  unfold blobValue boundBlob
  dsimp only
  rw [List.take_append_of_le_length (toInt_le body.length)]

theorem exists_blobValue_body (body behind : Bytes)
    : ∃ s, blobValue (some (body ++ behind)) body.length = .text s ∨
        blobValue (some (body ++ behind)) body.length = .blob s := by
  rw [blobValue_body]
  split
  . exact ⟨_, .inl rfl⟩
  . exact ⟨_, .inr rfl⟩

theorem blobValue_of_lt (h : body.length < 2 ^ 31)
    : blobValue (some (body ++ behind)) body.length = .blob body := by
  rw [blobValue_body, Lib.toInt_ofNat h, if_neg (by omega), Int.toNat_natCast, List.take_length]

theorem size_blobValue (body : Bytes)
    : (blobValue (some body) body.length).size = takenLength body := by
  have hvalue := blobValue_body body []
  rw [List.append_nil] at hvalue
  rw [hvalue]
  unfold takenLength
  dsimp only
  split
  . rfl
  . exact List.length_take_of_le (toInt_le body.length)

-- What stands behind the body is taken only with a text that is too long anyway.
theorem takenLength_le (h : 2 ^ 31 ≤ body.length) (behind : Bytes)
    : takenLength body ≤ (blobValue (some (body ++ behind)) body.length).size ∨
        sqliteMaxLength < (blobValue (some (body ++ behind)) body.length).size := by
  rw [blobValue_body]
  unfold takenLength sqliteMaxLength
  dsimp only
  split
  . simp only [Value.size]
    cases untilZeroPair_append body behind with
    | inl happend => exact .inl (by rw [happend])
    | inr happend => exact .inr (by omega)
  . exact .inl (List.length_take_of_le (toInt_le body.length)).ge

theorem columnBytes_eq_size (v : Value) : columnBytes v = v.size := by
  cases v <;> rfl

theorem storesBody_blob (body : Bytes) : StoresBody body (.blob body) (.integer body.length) where
  bytes := by
    cases body <;> rfl
  size := rfl
  column := rfl

variable {overhead : Nat}

theorem takenLength_of_not_bodyFits (h : ¬ BodyFits overhead body)
    : 2 ^ 31 ≤ body.length ∧ takenLength body + integerPayload body.length + overhead ≤ sqliteMaxLength := by
  unfold BodyFits at h
  omega

theorem not_storesBody_of_not_bodyFits (h : ¬ BodyFits overhead body) (bodyLen : Value)
    : ¬ StoresBody body (blobValue (some body) body.length) bodyLen := by
  intro hstores
  have hsize := hstores.size
  have htaken := takenLength_of_not_bodyFits h
  rw [columnBytes_eq_size, size_blobValue] at hsize
  unfold sqliteMaxLength at htaken
  omega

theorem bindBlob_of_not_bodyFits (h : ¬ BodyFits overhead body)
    : bindBlob (some body) body.length ≠ none := by
  have htaken := takenLength_of_not_bodyFits h
  unfold bindBlob
  rw [size_blobValue, if_neg (by omega)]
  simp

theorem ne_nil_of_not_bodyFits (h : ¬ BodyFits overhead body) : body ≠ [] := by
  rintro rfl
  exact h (.inl (by decide))

theorem columnSize_of_not_bodyFits (h : ¬ BodyFits overhead body)
    : columnSize (blobValue (some body) body.length) ≤ 5 + takenLength body := by
  have hvalue := exists_blobValue_body body []
  rw [List.append_nil] at hvalue
  have htaken := takenLength_of_not_bodyFits h
  have hsize := columnSize_le hvalue (by rw [size_blobValue]; omega)
  rw [size_blobValue] at hsize
  exact hsize

end Taken

-- A record has at least `n` bytes besides those of the column `body` and of the integer `body_len`.
theorem length_lt_of_writable {n : Nat} (hn : n ≤ 2 ^ 20) (hfits : BodyFits (n + 5) body) (behind : Bytes)
    (h : columnSize (blobValue (some (body ++ behind)) body.length) + integerPayload body.length + n ≤
      sqliteMaxLength)
    : body.length < 2 ^ 31 := by
  by_contra hlong
  rw [Nat.not_lt] at hlong
  have htaken := takenLength_le hlong behind
  have hcolumn := le_columnSize (exists_blobValue_body body behind)
  have hpayload := integerPayload_le body.length
  unfold BodyFits at hfits
  unfold sqliteMaxLength at *
  omega

section Response

variable {resp : Response} {es : List CallEnv} {s : Conn}

theorem responseRow_body (hbody : resp.body = some (body ++ behind))
    (hlen : resp.bodyLen = body.length) (createdAt : Nat)
    : (responseRow resp createdAt).body =
        if body = [] then .null else blobValue (some (body ++ behind)) body.length := by
  unfold responseRow
  dsimp only
  rw [hbody, hlen]
  cases body with
  | nil => rfl
  | cons c body => simp

theorem storesBody_responseRow (hshort : body.length < 2 ^ 31)
    (hbody : resp.body = some (body ++ behind)) (hlen : resp.bodyLen = body.length) (createdAt : Nat)
    : StoresBody body (responseRow resp createdAt).body (responseRow resp createdAt).bodyLen := by
  have hcolumn : (responseRow resp createdAt).bodyLen = .integer body.length := by
    unfold responseRow
    rw [hlen]
  rw [responseRow_body hbody hlen, hcolumn]
  split
  . next hnil =>
    rw [hnil]
    exact ⟨rfl, rfl, rfl⟩
  . rw [blobValue_of_lt hshort]
    exact storesBody_blob body

theorem le_recordSize_response (row : ResponseRow) {n : Int} (hlen : row.bodyLen = .integer n)
    : columnSize row.body + integerPayload n + 29 ≤ recordSize row.columns := by
  have hcolumns : row.columns =
      [row.requestId, row.statusCode, row.result, row.duration, row.headers] ++
        row.body :: row.bodyLen :: [row.contentType] := rfl
  have hpre :=
    length_le_sum_columnSize [row.requestId, row.statusCode, row.result, row.duration, row.headers]
  have hpost := length_le_sum_columnSize [row.contentType]
  rw [hcolumns, hlen, recordSize_append]
  simp only [List.length_cons, List.length_nil] at hpre hpost
  omega

theorem length_lt_of_writable_response (hfits : BodyFits responseOverhead body)
    (hbody : resp.body = some (body ++ behind)) (hlen : resp.bodyLen = body.length) {createdAt : Nat}
    (h : Writable (responseRow resp createdAt).columns) : body.length < 2 ^ 31 := by
  have hcolumn : (responseRow resp createdAt).bodyLen = .integer body.length := by
    unfold responseRow
    rw [hlen]
  have hrecord := le_recordSize_response _ hcolumn
  rw [responseRow_body hbody hlen] at hrecord
  split at hrecord
  . next hnil =>
    rw [hnil]
    decide
  . exact length_lt_of_writable (by decide) hfits behind (hrecord.trans h)

theorem savesResponseBody_of_bodyFits (hfits : BodyFits responseOverhead body)
    (hbody : resp.body = some (body ++ behind)) (hlen : resp.bodyLen = body.length)
    (es : List CallEnv) (s : Conn) : SavesResponseBody body resp es s := by
  obtain ⟨es', hes'⟩ := run_limited (dbSaveResponse (some resp)) es s
  have hwritten := recordsFit_run ((calls_dbSaveResponse (some resp)).mono ne_exec_of_usesOnly) es s
  rw [hes'] at hwritten
  rcases dbSaveResponse_cases resp es' s with hrun | ⟨env, _, hrun⟩
  . constructor
    . right
      rw [hes', hrun]
    . intro res hok
      simp only [res, hes', hrun] at hok
      exact absurd hok.symm sqliteOk_ne_error
  . constructor
    . left
      rw [hes', hrun]
    . intro res _ row hrow hnew
      rw [hrun] at hwritten
      simp only [res, hes', hrun] at hrow
      have hwritable := (hwritten.responses row hrow).resolve_left hnew
      simp only [insertedResponse, Table.rows_insert, List.mem_append, List.mem_singleton] at hrow
      rw [hrow.resolve_left hnew] at hwritable ⊢
      exact storesBody_responseRow (length_lt_of_writable_response hfits hbody hlen hwritable) hbody hlen _

-- The shortest response with this body, to the request of `onePending`.
def bodyResponse (body : Bytes) : Response :=
  { Response.zero with requestId := 1, body := some body, bodyLen := body.length }

theorem bodyResponse_body (h : body ≠ []) (createdAt : Nat)
    : (responseRow (bodyResponse body) createdAt).body = blobValue (some body) body.length := by
  have hstored := @responseRow_body body [] (bodyResponse body) (by rw [List.append_nil]; rfl) rfl createdAt
  rw [if_neg h, List.append_nil] at hstored
  exact hstored

theorem responseParams_bodyResponse (h : ¬ BodyFits responseOverhead body)
    : none ∉ responseParams (bodyResponse body) := by
  have hparam : (if (bodyResponse body).body ≠ none ∧ (bodyResponse body).bodyLen > 0 then
      bindBlob (bodyResponse body).body (bodyResponse body).bodyLen else some .null) ≠ none := by
    split
    . exact bindBlob_of_not_bodyFits h
    . simp
  simp only [responseParams, List.mem_cons, List.not_mem_nil, or_false, not_or]
  refine ⟨by simp [bindInt], by simp [bindInt], by simp [bindInt], ?_, ?_, ?_, hparam.symm,
    by simp [bindInt]⟩
  . rw [bindDouble_eq]
    simp
  . simp [bodyResponse, Response.zero, bindText, textValue, Value.size]
  . simp [bodyResponse, Response.zero, bindText, textValue, Value.size]

theorem writable_bodyResponse (h : ¬ BodyFits responseOverhead body) (createdAt : Nat)
    : Writable (responseRow (bodyResponse body) createdAt).columns := by
  have hduration : (responseRow (bodyResponse body) createdAt).duration = .real 0 := by
    unfold responseRow bodyResponse Response.zero
    dsimp only
    decide +kernel
  have hcolumns : (responseRow (bodyResponse body) createdAt).columns =
      [.integer 1, .integer 0, .integer 0, .real 0, .null] ++
        blobValue (some body) body.length :: .integer body.length :: [.null] := by
    unfold ResponseRow.columns
    rw [bodyResponse_body (ne_nil_of_not_bodyFits h), hduration]
    rfl
  have hpre : ([.integer 1, .integer 0, .integer 0, .real 0, .null].map columnSize).sum = 5 := by
    decide +kernel
  have hpost : ([Value.null].map columnSize).sum = 1 := rfl
  have htaken := takenLength_of_not_bodyFits h
  have hcolumn := columnSize_of_not_bodyFits h
  unfold responseOverhead at htaken
  unfold Writable
  rw [hcolumns, recordSize_append, hpre, hpost]
  omega

-- What the step of the INSERT writes, whatever the state.
theorem limited_insertResponse (hwritable : ∀ createdAt, Writable (responseRow resp createdAt).columns)
    (env : CallEnv) (s : Conn)
    : limited (.step .insertResponse (responseValues resp)) env s =
        answer (.step .insertResponse (responseValues resp)) env s := by
  refine if_pos ?_
  unfold answer
  dsimp only
  split
  . exact .refl s.db
  . unfold stepStatement
    dsimp only
    rw [stepInsertResponse_run]
    split
    . refine ⟨fun row hrow => .inl hrow, fun row hrow => .inl hrow, ?_⟩
      intro row hrow
      simp only [insertedResponse, Table.rows_insert, List.mem_append, List.mem_singleton] at hrow
      cases hrow with
      | inl hrow => exact .inl hrow
      | inr hrow =>
        right
        rw [hrow]
        exact hwritable env.now
    . exact .refl s.db

theorem run_limited_dbSaveResponse (hbound : none ∉ responseParams resp)
    (hwritable : ∀ createdAt, Writable (responseRow resp createdAt).columns) (es : List CallEnv) (s : Conn)
    : (dbSaveResponse (some resp)).run limited es s = (dbSaveResponse (some resp)).run answer es s := by
  apply Prog.Calls.run_eq
  apply calls_statement (fun _ _ _ => rfl) (fun _ _ _ => rfl)
  . intro vs hvs
    rw [responseParams_eq hbound] at hvs
    rw [← List.map_injective_iff.mpr (Option.some_injective Value) hvs]
    exact limited_insertResponse hwritable
  . trivial
  . intro r
    split
    . refine ⟨fun _ _ => rfl, ?_⟩
      intro r
      dsimp only
      split <;> trivial
    . trivial

theorem responses_onePending : onePending.db.responses.rows = [] := by decide +kernel

-- The body is stored as far as SQLite takes it, and with its whole length beside it.
theorem dbSaveResponse_bodyResponse (h : ¬ BodyFits responseOverhead body)
    : ((dbSaveResponse (some (bodyResponse body))).run limited [] onePending).1.1 = sqliteOk ∧
        ∃ row,
          ((dbSaveResponse (some (bodyResponse body))).run limited [] onePending).2.db.responses.rows =
              [row] ∧
            row.2.body = blobValue (some body) body.length ∧
            row.2.bodyLen = .integer body.length := by
  have hhas : HasRequest onePending.db (bodyResponse body).requestId := by
    show HasRequest onePending.db 1
    decide +kernel
  have hbound := responseParams_bodyResponse h
  rw [run_limited_dbSaveResponse hbound (writable_bodyResponse h), dbSaveResponse_of_calm rfl hbound,
    if_pos hhas]
  refine ⟨rfl, (onePending.db.responses.seq + 1, responseRow (bodyResponse body) default), ?_,
    bodyResponse_body (ne_nil_of_not_bodyFits h) _, rfl⟩
  simp only [insertedResponse, Table.rows_insert, responses_onePending]
  rfl

theorem not_savesResponseBody (h : ¬ BodyFits responseOverhead body)
    : ¬ SavesResponseBody body (bodyResponse body) [] onePending := by
  obtain ⟨hok, row, hrows, hbody, _⟩ := dbSaveResponse_bodyResponse h
  intro hsaves
  have hstores := hsaves.rows hok row (by rw [hrows]; exact List.mem_singleton_self _)
    (by rw [responses_onePending]; exact List.not_mem_nil)
  rw [hbody] at hstores
  exact not_storesBody_of_not_bodyFits h _ hstores

end Response

section Request

variable {req : Request} {es : List CallEnv} {s : Conn}

theorem requestRow_body (hbody : req.body = some (body ++ behind)) (hlen : req.bodyLen = body.length)
    (env : CallEnv)
    : (requestRow req env).body = blobValue (some (body ++ behind)) body.length := by
  unfold requestRow encodeRequest
  dsimp only
  rw [hbody, hlen, Option.getD_some]

theorem requestRow_bodyLen (hbody : req.body = some (body ++ behind)) (hlen : req.bodyLen = body.length)
    (env : CallEnv) : (requestRow req env).bodyLen = .integer body.length := by
  unfold requestRow encodeRequest
  dsimp only
  rw [hbody, hlen, if_pos (by simp)]

theorem storesBody_requestRow (hshort : body.length < 2 ^ 31)
    (hbody : req.body = some (body ++ behind)) (hlen : req.bodyLen = body.length) (env : CallEnv)
    : StoresBody body (requestRow req env).body (requestRow req env).bodyLen := by
  rw [requestRow_body hbody hlen, requestRow_bodyLen hbody hlen, blobValue_of_lt hshort]
  exact storesBody_blob body

theorem le_recordSize_request (row : RequestRow) {n : Int} (hlen : row.bodyLen = .integer n)
    : columnSize row.body + integerPayload n + 30 ≤ recordSize row.columns := by
  have hcolumns : row.columns =
      [row.collectionId, row.method, row.url, row.urlLen, row.headers, row.headersLen] ++
        row.body :: row.bodyLen :: [row.status] := rfl
  have hpre :=
    length_le_sum_columnSize [row.collectionId, row.method, row.url, row.urlLen, row.headers, row.headersLen]
  have hpost := length_le_sum_columnSize [row.status]
  rw [hcolumns, hlen, recordSize_append]
  simp only [List.length_cons, List.length_nil] at hpre hpost
  omega

theorem dbSaveRequest_cases (req : Request) (es : List CallEnv) (s : Conn)
    : ((dbSaveRequest (some req)).run answer es s).1.1 = sqliteError ∨
        ∃ env,
          (dbSaveRequest (some req)).run answer es s =
            ((sqliteOk, some { req with id := Lib.toInt (savedRow env s.db req).1 }),
              insertedRequest env s req) := by
  by_cases hins : calm 10 es = true ∧ none ∉ insertRequestParams req
  . by_cases hurl : req.url = none
    . exact .inl (congrArg Prod.fst (dbSaveRequest_of_url_eq_none hins.1 hins.2 hurl))
    . cases stepInsertRequest_cases (s := s) hurl ((es.drop 9).headD default) with
      | inl hstep =>
        by_cases hgo : req.body ≠ none ∧ calm 6 (es.drop 10) = true
        . exact .inr ⟨_, dbSaveRequest_found hins.1 hins.2 hstep hurl hgo.1 hgo.2⟩
        . rw [not_and_or, not_not, Bool.not_eq_true] at hgo
          left
          rw [dbSaveRequest_not_found hins.1 hins.2 hstep hgo]
      | inr hstep => exact .inl (congrArg Prod.fst (dbSaveRequest_refused hins.1 hins.2 hstep.1))
  . rw [not_and_or, Bool.not_eq_true, not_not] at hins
    left
    rw [dbSaveRequest_not_calm hins]

theorem savesRequestBody_of_bodyFits (hfits : BodyFits requestOverhead body)
    (hbody : req.body = some (body ++ behind)) (hlen : req.bodyLen = body.length)
    (es : List CallEnv) (s : Conn) : SavesRequestBody body req es s := by
  obtain ⟨es', hes'⟩ := run_limited (dbSaveRequest (some req)) es s
  have hwritten := recordsFit_run ((calls_dbSaveRequest (some req)).mono ne_exec_of_usesOnly) es s
  rw [hes'] at hwritten
  rcases dbSaveRequest_cases req es' s with hrun | ⟨env, hrun⟩
  . constructor
    . right
      rw [hes', hrun]
    . intro res hok
      simp only [res, hes', hrun] at hok
      exact absurd hok.symm sqliteOk_ne_error
  . constructor
    . left
      rw [hes', hrun]
    . intro res _ row hrow hnew
      rw [hrun] at hwritten
      simp only [res, hes', hrun] at hrow
      have hwritable := (hwritten.requests row hrow).resolve_left hnew
      simp only [insertedRequest] at hrow
      rw [(Table.mem_rows_insertOrIgnore hrow).resolve_left hnew] at hwritable ⊢
      have hrecord := (le_recordSize_request _ (requestRow_bodyLen hbody hlen env)).trans hwritable
      rw [requestRow_body hbody hlen] at hrecord
      exact storesBody_requestRow (length_lt_of_writable (by omega) hfits behind hrecord) hbody hlen env

-- The shortest request with this body, in the collection of `oneCollection`.
def bodyRequest (body : Bytes) : Request :=
  { postRequest with url := some [], urlLen := 0, body := some body, bodyLen := body.length }

theorem insertRequestParams_bodyRequest (h : ¬ BodyFits requestOverhead body)
    : none ∉ insertRequestParams (bodyRequest body) := by
  have hparam : bindBlob (some ((bodyRequest body).body.getD [])) (bodyRequest body).bodyLen ≠ none :=
    bindBlob_of_not_bodyFits h
  simp only [insertRequestParams, List.mem_cons, List.not_mem_nil, or_false, not_or]
  refine ⟨by simp [bindInt], by simp [bindInt], ?_, by simp [bindInt], ?_, by simp [bindInt],
    hparam.symm, by simp [bindInt]⟩
  . show none ≠ bindText (some []) 0
    decide
  . show none ≠ bindText postRequest.headers postRequest.headersLen
    decide

theorem writable_bodyRequest (h : ¬ BodyFits requestOverhead body) (env : CallEnv)
    : Writable (requestRow (bodyRequest body) env).columns := by
  have hbody : (bodyRequest body).body = some (body ++ []) := by
    rw [List.append_nil]
    rfl
  have hurl : (requestRow (bodyRequest body) env).url = .text [] := by
    show textValue (some []) 0 = .text []
    decide
  have hcolumns : (requestRow (bodyRequest body) env).columns =
      [.integer 1, .integer 1, .text [], .integer 0, .null, .integer 0] ++
        blobValue (some body) body.length :: .integer body.length :: [.integer 0] := by
    unfold RequestRow.columns
    rw [requestRow_body hbody rfl, requestRow_bodyLen hbody rfl, List.append_nil, hurl]
    rfl
  have hpre : ([.integer 1, .integer 1, .text [], .integer 0, .null, .integer 0].map columnSize).sum = 6 := by
    decide
  have hpost : ([Value.integer 0].map columnSize).sum = 1 := by decide
  have htaken := takenLength_of_not_bodyFits h
  have hcolumn := columnSize_of_not_bodyFits h
  unfold requestOverhead at htaken
  unfold Writable
  rw [hcolumns, recordSize_append, hpre, hpost]
  omega

theorem limited_insertRequest (hurl : req.url ≠ none)
    (hwritable : ∀ env, Writable (requestRow req env).columns) (env : CallEnv) (s : Conn)
    : limited (.step .insertRequest (insertRequestValues req)) env s =
        answer (.step .insertRequest (insertRequestValues req)) env s := by
  refine if_pos ?_
  unfold answer
  dsimp only
  split
  . exact .refl s.db
  . unfold stepStatement
    dsimp only
    rcases stepInsertRequest_cases (s := s) hurl env with hstep | ⟨hstep, _⟩
    . rw [hstep]
      refine ⟨fun row hrow => .inl hrow, ?_, fun row hrow => .inl hrow⟩
      intro row hrow
      simp only [insertedRequest] at hrow
      cases Table.mem_rows_insertOrIgnore hrow with
      | inl hrow => exact .inl hrow
      | inr hrow =>
        right
        rw [hrow]
        exact hwritable env
    . rw [hstep]
      exact .refl s.db

theorem run_limited_dbSaveRequest (hurl : req.url ≠ none) (hbound : none ∉ insertRequestParams req)
    (hwritable : ∀ env, Writable (requestRow req env).columns) (es : List CallEnv) (s : Conn)
    : (dbSaveRequest (some req)).run limited es s = (dbSaveRequest (some req)).run answer es s := by
  have hselect (vs : List Value) (env : CallEnv) (s : Conn)
      : limited (.step .selectRequestId vs) env s = answer (.step .selectRequestId vs) env s := by
    refine if_pos ?_
    unfold answer
    dsimp only
    split <;> exact .refl s.db
  apply Prog.Calls.run_eq
  apply calls_statement (fun _ _ _ => rfl) (fun _ _ _ => rfl)
  . intro vs hvs
    rw [insertRequestParams_eq hbound] at hvs
    rw [← List.map_injective_iff.mpr (Option.some_injective Value) hvs]
    exact limited_insertRequest hurl hwritable
  . trivial
  . intro r
    split
    . apply calls_statement (fun _ _ _ => rfl) (fun _ _ _ => rfl)
      . exact fun vs _ => hselect vs
      . trivial
      . intro r
        split <;> trivial
    . trivial

theorem not_savesRequestBody (h : ¬ BodyFits requestOverhead body)
    : ¬ SavesRequestBody body (bodyRequest body) [] oneCollection := by
  have hurl : (bodyRequest body).url ≠ none := by simp [bodyRequest]
  have hcoll : ∃ row ∈ oneCollection.db.collections.rows, (bodyRequest body).collectionId = row.1 := by
    show ∃ row ∈ oneCollection.db.collections.rows, (1 : Int) = row.1
    decide +kernel
  have hbound := insertRequestParams_bodyRequest h
  have hrun := run_limited_dbSaveRequest hurl hbound (writable_bodyRequest h) [] oneCollection
  rw [@dbSaveRequest_found (bodyRequest body) [] oneCollection rfl hbound
    (stepInsertRequest_run hurl hcoll _) hurl (by simp [bodyRequest]) rfl] at hrun
  have hnil : oneCollection.db.requests.rows = [] := by decide +kernel
  have hlookup : oneCollection.db.requests.lookup RequestRow.key
      (requestRow (bodyRequest body) default).key = none := by
    unfold Table.lookup
    rw [hnil]
    rfl
  intro hsaves
  have hrows := hsaves.rows
  simp only [hrun, insertedRequest, List.drop_nil, List.headD_nil] at hrows
  rw [Table.insertOrIgnore_of_none hlookup] at hrows
  have hstores := hrows trivial _ (List.mem_append_right _ (List.mem_singleton_self _))
    (by rw [hnil]; simp)
  have hbody := @requestRow_body body [] (bodyRequest body) (by rw [List.append_nil]; rfl) rfl default
  rw [List.append_nil] at hbody
  rw [hbody] at hstores
  exact not_storesBody_of_not_bodyFits h _ hstores

end Request

/-- Both saves keep a body whole in every run exactly if its length survives the conversion to `int`,
or becomes one with which no record is short enough. -/
theorem body_stored_iff (body : Bytes)
    : ((∀ resp behind es s,
          resp.body = some (body ++ behind) → resp.bodyLen = body.length →
            SavesResponseBody body resp es s) ↔ BodyFits responseOverhead body) ∧
        ((∀ req behind es s,
          req.body = some (body ++ behind) → req.bodyLen = body.length →
            SavesRequestBody body req es s) ↔ BodyFits requestOverhead body) := by
  refine ⟨⟨?_, ?_⟩, ⟨?_, ?_⟩⟩
  . intro hsaves
    by_contra h
    exact not_savesResponseBody h (hsaves _ [] _ _ (by rw [List.append_nil]; rfl) rfl)
  . intro h resp behind es s hbody hlen
    exact savesResponseBody_of_bodyFits h hbody hlen es s
  . intro hsaves
    by_contra h
    exact not_savesRequestBody h (hsaves _ [] _ _ (by rw [List.append_nil]; rfl) rfl)
  . intro h req behind es s hbody hlen
    exact savesRequestBody_of_bodyFits h hbody hlen es s

-- 4 GiB and one byte.
def giantBody : Bytes := List.replicate (2 ^ 32 + 1) 97

theorem length_giantBody : giantBody.length = 2 ^ 32 + 1 := List.length_replicate

theorem not_bodyFits_giantBody {overhead : Nat} (h : overhead ≤ 2 ^ 20) : ¬ BodyFits overhead giantBody := by
  have htaken : takenLength giantBody = 1 := by
    have hone : Lib.toInt giantBody.length = 1 := by
      rw [length_giantBody]
      decide
    unfold takenLength
    rw [hone]
    rfl
  have hpayload := integerPayload_le giantBody.length
  unfold BodyFits sqliteMaxLength
  rw [htaken, length_giantBody]
  rw [length_giantBody] at hpayload
  omega

theorem blobValue_giantBody : blobValue (some giantBody) giantBody.length = .blob [97] := by
  have hvalue := blobValue_body giantBody []
  have hone : Lib.toInt giantBody.length = 1 := by
    rw [length_giantBody]
    decide
  have htake : giantBody.take 1 = [97] := by
    unfold giantBody
    rw [List.take_replicate]
    rfl
  rw [List.append_nil, hone, if_neg (by decide), Int.toNat_one, htake] at hvalue
  exact hvalue

/-- Only the first byte of the body is stored, with the length of all of it, and the save succeeds. -/
theorem body_stored_truncated
    : onePending.Reachable Request.WellFormed ∧
        ((dbSaveResponse (some (bodyResponse giantBody))).run limited [] onePending).1.1 = sqliteOk ∧
        (∃ row,
          ((dbSaveResponse (some (bodyResponse giantBody))).run limited [] onePending).2.db.responses.rows =
              [row] ∧
            row.2.body = .blob [97] ∧
            row.2.bodyLen = .integer (2 ^ 32 + 1)) ∧
        ¬ SavesResponseBody giantBody (bodyResponse giantBody) [] onePending ∧
        ¬ SavesRequestBody giantBody (bodyRequest giantBody) [] oneCollection := by
  have h : ¬ BodyFits responseOverhead giantBody := not_bodyFits_giantBody (by decide)
  have hreq : ¬ BodyFits requestOverhead giantBody := not_bodyFits_giantBody (by decide)
  obtain ⟨hok, row, hrows, hbody, hlen⟩ := dbSaveResponse_bodyResponse h
  rw [blobValue_giantBody] at hbody
  rw [length_giantBody] at hlen
  exact ⟨onePending_reachable, hok, ⟨row, hrows, hbody, hlen⟩, not_savesResponseBody h,
    not_savesRequestBody hreq⟩

end HttpRuntime
