import HttpRuntime.Core.DbManager.Decode
import HttpRuntime.Core.DbManager.IdRange
import HttpRuntime.Core.DbManager.LatestResponse
import Mathlib.Data.List.Forall2
import Mathlib.Data.List.TakeWhile

/-!
This module contains the responses table as a store: after any saves, the latest response of a request
is the last one that was saved for it.
-/

open Lib Lib.Sql

namespace HttpRuntime

/-- The fields are in the range of their C types, and the texts and the body can be bound whole. -/
structure Response.Fits (resp : Response) : Prop where
  requestId_ge : -2 ^ 31 ≤ resp.requestId
  requestId_lt : resp.requestId < 2 ^ 31
  statusCode_ge : -2 ^ 31 ≤ resp.statusCode
  statusCode_lt : resp.statusCode < 2 ^ 31
  headers : ∀ c ∈ resp.headers.getD [], c ≠ 0
  headers_lt : (resp.headers.getD []).length < 2 ^ 32
  contentType : ∀ c ∈ resp.contentType.getD [], c ≠ 0
  contentType_lt : (resp.contentType.getD []).length < 2 ^ 32
  body : (resp.body.getD []).length = resp.bodyLen
  body_lt : resp.bodyLen < 2 ^ 31

-- NULL and empty are identified.
structure SameResponse (resp resp' : Response) : Prop where
  requestId : resp'.requestId = resp.requestId
  statusCode : resp'.statusCode = resp.statusCode
  result : resp'.result = resp.result
  headers : resp'.headers.getD [] = resp.headers.getD []
  contentType : resp'.contentType.getD [] = resp.contentType.getD []
  body : resp'.body.getD [] = resp.body.getD []
  bodyLen : resp'.bodyLen = resp.bodyLen

section Decode

variable {bytes : Bytes} {resp : Response}

/-- A text without NUL is bound whole, unless its length looks like a shorter one. -/
theorem boundText_eq_self_of_ne_zero (h : ∀ c ∈ bytes, c ≠ 0) (hlen : bytes.length < 2 ^ 32)
    : boundText bytes bytes.length = bytes := by
  by_cases hshort : bytes.length < 2 ^ 31
  . exact boundText_eq_self hshort
  . have hneg : Lib.toInt bytes.length < 0 := by
      unfold Lib.toInt
      omega
    unfold boundText
    dsimp only
    rw [if_pos hneg, List.takeWhile_eq_self_iff]
    intro c hc
    simpa using h c hc

theorem decode_textValue {p : Option Bytes} (h : ∀ c ∈ p.getD [], c ≠ 0)
    (hlen : (p.getD []).length < 2 ^ 32)
    : let v := textValue p ((p.map strlen).getD 0)
      (safeCopyBlob (columnText v) (columnBytes v)).getD [] = p.getD [] := by
  cases p with
  | none => rfl
  | some bytes =>
    rw [Option.getD_some] at h hlen
    have htext : textValue (some bytes) (((some bytes).map strlen).getD 0) = .text bytes := by
      rw [Option.map_some, Option.getD_some, strlen_of_not_mem (fun hmem => h 0 hmem rfl)]
      simp only [textValue, boundText_eq_self_of_ne_zero h hlen]
    rw [htext]
    apply safeCopyBlob_getD
    rfl

theorem decode_body (h : (resp.body.getD []).length = resp.bodyLen) (hlen : resp.bodyLen < 2 ^ 31)
    (now : Nat)
    : let v := (responseRow resp now).body
      (safeCopyBlob (columnBlob v) (columnBytes v)).getD [] = resp.body.getD [] ∧
        columnBytes v = resp.bodyLen := by
  dsimp only [responseRow]
  split
  . next hbody =>
    rcases Option.ne_none_iff_exists'.mp hbody.1 with ⟨bytes, hbytes⟩
    rw [hbytes, Option.getD_some] at h
    rw [← h] at hlen
    have hblob : blobValue resp.body resp.bodyLen = .blob bytes := by
      rw [hbytes, ← h]
      exact blobValue_of_short hlen
    have hne : bytes ≠ [] := by
      apply List.ne_nil_of_length_pos
      omega
    rw [hblob, hbytes, ← h]
    refine ⟨?_, rfl⟩
    simp only [columnBlob, hne, if_false]
    apply safeCopyBlob_getD
    rfl
  . next hbody =>
    have hnil : resp.body.getD [] = [] := by
      cases hbytes : resp.body with
      | none => rfl
      | some bytes =>
        rw [hbytes, Option.getD_some] at h
        rw [Option.getD_some, ← List.length_eq_zero_iff]
        simp only [hbytes, ne_eq, reduceCtorEq, not_false_eq_true, true_and] at hbody
        omega
    rw [hnil] at h ⊢
    exact ⟨rfl, h⟩

theorem toInt_result (r : ResponseResults) : Lib.toInt r.toInt = r.toInt := by
  cases r <;> decide

theorem sameResponse_decodeResponse (hfits : resp.Fits) (id now : Nat)
    : SameResponse resp (decodeResponse (id, responseRow resp now)) where
  requestId := Lib.toInt_eq_self hfits.requestId_ge hfits.requestId_lt
  statusCode := Lib.toInt_eq_self hfits.statusCode_ge hfits.statusCode_lt
  result := by
    simp only [decodeResponse, responseRow, columnInt, toInt_result, ResponseResults.ofInt_toInt]
  headers := decode_textValue hfits.headers hfits.headers_lt
  contentType := decode_textValue hfits.contentType hfits.contentType_lt
  body := (decode_body hfits.body hfits.body_lt now).1
  bodyLen := (decode_body hfits.body hfits.body_lt now).2

end Decode

-- `saved` is what was saved successfully, in this order.
structure ResponseHistory where
  conn : Conn
  saved : List Response

namespace ResponseHistory

def start (s : Conn) : ResponseHistory where
  conn := s
  saved := []

def step (h : ResponseHistory) (save : Response × List CallEnv) : ResponseHistory :=
  let res := (dbSaveResponse (some save.1)).run answer save.2 h.conn
  { conn := res.2, saved := h.saved ++ if res.1.1 = sqliteOk then [save.1] else [] }

def exec (h : ResponseHistory) (saves : List (Response × List CallEnv)) : ResponseHistory :=
  saves.foldl step h

def savedFor (h : ResponseHistory) (requestId : Int) : List Response :=
  h.saved.filter (fun resp => decide (resp.requestId = requestId))

end ResponseHistory

/-- What the store answers about a request, in calls that do not fail, is what was saved for it. -/
structure Faithful (h : ResponseHistory) (requestId : Int) (es : List CallEnv) : Prop where
  none_iff : ((dbGetLatestResponseByRequestId requestId).run answer es h.conn).1 = none ↔
    h.savedFor requestId = []
  latest : ∀ resp, (h.savedFor requestId).getLast? = some resp →
    ∃ resp', ((dbGetLatestResponseByRequestId requestId).run answer es h.conn).1 = some resp' ∧
      SameResponse resp resp'
  count : (h.savedFor requestId).length < 2 ^ 31 →
    ((dbCountResponsesByRequestId requestId).run answer es h.conn).1 = (h.savedFor requestId).length

section Store

variable {h : ResponseHistory} {es : List CallEnv}

def Stores (row : Nat × ResponseRow) (resp : Response) : Prop :=
  ∃ now, row.2 = responseRow resp now

-- The rows are those of the saved responses, in the same order.
def ResponseHistory.Stored (h : ResponseHistory) : Prop :=
  List.Forall₂ Stores h.conn.db.responses.rows h.saved

theorem ResponseHistory.Stored.step (hstored : h.Stored) (save : Response × List CallEnv)
    : (h.step save).Stored := by
  unfold ResponseHistory.Stored ResponseHistory.step
  rcases dbSaveResponse_cases save.1 save.2 h.conn with hrun | ⟨env, _, hrun⟩
  . rw [hrun]
    dsimp only
    rw [if_neg sqliteOk_ne_error.symm, List.append_nil]
    exact hstored
  . rw [hrun]
    dsimp only
    rw [if_pos rfl]
    apply List.rel_append hstored
    apply List.Forall₂.cons _ List.Forall₂.nil
    exact ⟨env.now, rfl⟩

theorem ResponseHistory.Stored.exec (hstored : h.Stored) (saves : List (Response × List CallEnv))
    : (h.exec saves).Stored := by
  induction saves generalizing h with
  | nil => exact hstored
  | cons save saves ih => exact ih (hstored.step save)

theorem ResponseHistory.Stored.responsesOf (hstored : h.Stored) (requestId : Int)
    : List.Forall₂ Stores (responsesOf h.conn.db (.integer requestId)) (h.savedFor requestId) := by
  unfold HttpRuntime.responsesOf ResponseHistory.savedFor
  apply List.rel_filter _ hstored
  rintro row resp ⟨now, hrow⟩
  dsimp only
  rw [hrow, decide_eq_true_iff, Value.same_iff]
  simp [responseRow]

theorem getLast?_rel {α β : Type} {R : α → β → Prop} {xs : List α} {ys : List β}
    (h : List.Forall₂ R xs ys) : Option.Rel R xs.getLast? ys.getLast? := by
  have hrev := List.rel_reverse h
  rw [List.getLast?_eq_head?_reverse, List.getLast?_eq_head?_reverse]
  generalize xs.reverse = xs' at hrev ⊢
  generalize ys.reverse = ys' at hrev ⊢
  cases hrev with
  | nil => exact .none
  | cons hab _ => exact .some hab

theorem run_dbCountResponsesByRequestId (requestId : Int) (hcalm : calm 3 es = true) (s : Conn)
    : (dbCountResponsesByRequestId requestId).run answer es s =
        (Lib.toInt (responsesOf s.db (.integer requestId)).length, s) := by
  have hparams : [bindInt requestId] = [Value.integer requestId].map some := rfl
  unfold dbCountResponsesByRequestId
  rw [run_statement_of_calm hparams hcalm]
  rfl

theorem run_dbGetLatestResponse_of_calm (requestId : Int) (hcalm : Calm es) (s : Conn)
    : ((dbGetLatestResponseByRequestId requestId).run answer es s).1 =
        (latestResponse s.db requestId).map decodeResponse := by
  rw [run_dbGetLatestResponseByRequestId]
  cases latestResponse s.db requestId with
  | none => rfl
  | some row =>
    have hallocs : calm (responseAllocs row.2) (es.drop 3) = true := by
      apply calm_of_forall
      intro e he
      exact hcalm e (List.mem_of_mem_drop he)
    simp [pollResponse, calm_of_forall hcalm, hallocs]

theorem ResponseHistory.Stored.faithful (hstored : h.Stored) (hfits : ∀ resp ∈ h.saved, resp.Fits)
    (requestId : Int) (hcalm : Calm es) : Faithful h requestId es := by
  have hrows := hstored.responsesOf requestId
  have hlast := getLast?_rel hrows
  constructor
  . rw [run_dbGetLatestResponse_of_calm requestId hcalm, Option.map_eq_none_iff, latestResponse,
      List.getLast?_eq_none_iff, ← List.length_eq_zero_iff, hrows.length_eq, List.length_eq_zero_iff]
  . intro resp hresp
    rw [hresp] at hlast
    rw [run_dbGetLatestResponse_of_calm requestId hcalm, latestResponse]
    generalize (HttpRuntime.responsesOf h.conn.db (.integer requestId)).getLast? = last at hlast ⊢
    cases hlast with
    | @some row _ hrow =>
      rcases hrow with ⟨now, hrow⟩
      refine ⟨decodeResponse row, rfl, ?_⟩
      have hmem := List.mem_of_mem_filter (List.mem_of_getLast? hresp)
      have hsame := sameResponse_decodeResponse (hfits resp hmem) row.1 now
      rw [← hrow] at hsame
      exact hsame
  . intro hcount
    rw [run_dbCountResponsesByRequestId requestId (calm_of_forall hcalm 3), hrows.length_eq]
    exact Lib.toInt_ofNat hcount

theorem saved_step (h : ResponseHistory) (save : Response × List CallEnv)
    : ∀ resp ∈ (h.step save).saved, resp ∈ h.saved ∨ resp = save.1 := by
  intro resp hresp
  unfold ResponseHistory.step at hresp
  rw [List.mem_append] at hresp
  rcases hresp with hresp | hresp
  . exact Or.inl hresp
  . right
    split at hresp
    . exact List.mem_singleton.mp hresp
    . cases hresp

theorem fits_exec (hsaved : ∀ resp ∈ h.saved, resp.Fits) {saves : List (Response × List CallEnv)}
    (hfits : ∀ save ∈ saves, save.1.Fits) : ∀ resp ∈ (h.exec saves).saved, resp.Fits := by
  induction saves generalizing h with
  | nil => exact hsaved
  | cons save saves ih =>
    rw [List.forall_mem_cons] at hfits
    apply ih _ hfits.2
    intro resp hresp
    rcases saved_step h save resp hresp with hresp | hresp
    . exact hsaved resp hresp
    . rw [hresp]
      exact hfits.1

/--
After any saves from an empty responses table, with failing ones among them, the store answers every
question about every request faithfully.
-/
theorem dbSaveResponse_faithful {s : Conn} (hempty : s.db.responses.rows = [])
    (saves : List (Response × List CallEnv)) (hfits : ∀ save ∈ saves, save.1.Fits) (requestId : Int)
    (es : List CallEnv) (hcalm : Calm es)
    : Faithful ((ResponseHistory.start s).exec saves) requestId es := by
  have hstored : (ResponseHistory.start s).Stored := by
    unfold ResponseHistory.Stored ResponseHistory.start
    rw [hempty]
    exact List.Forall₂.nil
  apply (hstored.exec saves).faithful _ requestId hcalm
  exact fits_exec (h := ResponseHistory.start s) (by simp [ResponseHistory.start]) hfits

section Examples

def plainResponse : Response where
  id := 0
  requestId := 1
  statusCode := 200
  headers := some [72, 58, 118]
  headersLen := 3
  headersCapacity := 4096
  contentType := none
  body := some [0, 98]
  bodyLen := 2
  bodyCapacity := 4096
  duration := 0
  result := .ok

theorem plainResponse_fits : plainResponse.Fits := by
  constructor <;> decide +kernel

theorem dbSaveResponse_faithful_plain
    : let h := (ResponseHistory.start onePending).exec [(plainResponse, []),
        ({ plainResponse with statusCode := 404, body := none, bodyLen := 0 }, [])]
      (h.savedFor 1).length = 2 ∧ Faithful h 1 [] := by
  refine ⟨by decide +kernel, ?_⟩
  apply dbSaveResponse_faithful (by decide +kernel)
  . rw [List.forall_mem_cons, List.forall_mem_singleton]
    refine ⟨plainResponse_fits, ?_⟩
    constructor <;> decide +kernel
  . intro e he
    cases he

variable {resp : Response}

theorem step_of_hasRequest (hhas : HasRequest h.conn.db resp.requestId)
    (hbound : none ∉ responseParams resp)
    : h.step (resp, []) =
        { conn := insertedResponse h.conn resp default, saved := h.saved ++ [resp] } := by
  have hcalm : calm 10 ([] : List CallEnv) = true := rfl
  unfold ResponseHistory.step
  rw [dbSaveResponse_of_calm hcalm hbound, if_pos hhas]
  rfl

theorem exec_replicate {s : Conn} (hhas : HasRequest s.db resp.requestId)
    (hbound : none ∉ responseParams resp) (n : Nat)
    : let h := (ResponseHistory.start s).exec (List.replicate n (resp, []))
      HasRequest h.conn.db resp.requestId ∧ h.saved = List.replicate n resp := by
  dsimp only
  induction n with
  | zero => exact ⟨hhas, rfl⟩
  | succ n ih =>
    unfold ResponseHistory.exec at ih ⊢
    rw [List.replicate_succ', List.foldl_append, List.foldl_cons, List.foldl_nil,
      step_of_hasRequest ih.1 hbound]
    refine ⟨ih.1, ?_⟩
    rw [List.replicate_succ', ih.2]

theorem count_replicate {s : Conn} (hempty : s.db.responses.rows = [])
    (hhas : HasRequest s.db resp.requestId) (hbound : none ∉ responseParams resp) (n : Nat)
    : let h := (ResponseHistory.start s).exec (List.replicate n (resp, []))
      (h.savedFor resp.requestId).length = n ∧
        ((dbCountResponsesByRequestId resp.requestId).run answer [] h.conn).1 = Lib.toInt n := by
  have hstored : (ResponseHistory.start s).Stored := by
    unfold ResponseHistory.Stored ResponseHistory.start
    rw [hempty]
    exact List.Forall₂.nil
  have hlength := ((hstored.exec (List.replicate n (resp, []))).responsesOf resp.requestId).length_eq
  have hsaved := (exec_replicate hhas hbound n).2
  dsimp only
  rw [run_dbCountResponsesByRequestId resp.requestId rfl, hlength]
  have hn : (((ResponseHistory.start s).exec (List.replicate n (resp, []))).savedFor
      resp.requestId).length = n := by
    unfold ResponseHistory.savedFor
    rw [hsaved]
    simp
  rw [hn]
  exact ⟨rfl, rfl⟩

section Wrapped

variable {c : UInt8} {rest : Bytes} (hne : ∀ b ∈ c :: rest, b ≠ 0)
  (hone : Lib.toInt ((c :: rest).length : Nat) = 1)

include hne hone

/-- A text whose length is the `int` 1 is bound as its first byte. -/
theorem textValue_wrapped
    : textValue (some (c :: rest)) (((some (c :: rest)).map strlen).getD 0) = .text [c] := by
  rw [Option.map_some, Option.getD_some, strlen_of_not_mem (fun hmem => hne 0 hmem rfl)]
  unfold textValue boundText
  dsimp only
  rw [hone, if_neg (by decide)]
  rfl

theorem responseParams_wrapped (hheaders : resp.headers = some (c :: rest))
    : responseParams resp = responseParams { resp with headers := some [c] } := by
  have hc : strlen [c] = 1 := by
    apply strlen_of_not_mem
    rw [List.mem_singleton]
    exact (hne c (by simp)).symm
  have htext : bindText resp.headers ((resp.headers.map strlen).getD 0) =
      bindText (some [c]) (((some [c]).map strlen).getD 0) := by
    unfold bindText
    rw [hheaders, textValue_wrapped hne hone, Option.map_some, Option.getD_some, hc]
    rfl
  unfold responseParams
  rw [htext]

theorem headers_decodeResponse_wrapped (hheaders : resp.headers = some (c :: rest)) (id now : Nat)
    : (decodeResponse (id, responseRow resp now)).headers = some [c] := by
  have htext : (responseRow resp now).headers = .text [c] := by
    unfold responseRow
    dsimp only
    rw [hheaders, textValue_wrapped hne hone]
  unfold decodeResponse
  dsimp only
  rw [htext]
  rfl

end Wrapped

def longHeaders (n : Nat) : Response :=
  { plainResponse with headers := some (72 :: List.replicate n 72) }

theorem headers_longHeaders (n : Nat) : ∀ c ∈ 72 :: List.replicate n (72 : UInt8), c ≠ 0 := by
  intro c hc
  rw [← List.replicate_succ] at hc
  rw [List.eq_of_mem_replicate hc]
  decide

theorem length_headers_longHeaders (n : Nat) : (72 :: List.replicate n (72 : UInt8)).length = n + 1 := by
  rw [List.length_cons, List.length_replicate]

theorem latest_longHeaders {n : Nat} (hone : Lib.toInt (n + 1 : Nat) = 1)
    : let h := (ResponseHistory.start onePending).step (longHeaders n, [])
      h.savedFor 1 = [longHeaders n] ∧
        ∃ resp', ((dbGetLatestResponseByRequestId 1).run answer [] h.conn).1 = some resp' ∧
          resp'.headers = some [72] := by
  rw [← length_headers_longHeaders] at hone
  have hbound : none ∉ responseParams (longHeaders n) := by
    rw [responseParams_wrapped (headers_longHeaders n) hone rfl]
    show none ∉ responseParams { plainResponse with headers := some [72] }
    decide +kernel
  have hhas : HasRequest onePending.db (longHeaders n).requestId :=
    (show HasRequest onePending.db 1 by decide +kernel)
  have hcalm : Calm [] := by
    intro e he
    cases he
  have hlatest := latestResponse_insertedResponse onePending (longHeaders n) default
  have hheaders := @headers_decodeResponse_wrapped (longHeaders n) 72 _ (headers_longHeaders n) hone rfl
  dsimp only
  rw [step_of_hasRequest (h := ResponseHistory.start onePending) hhas hbound]
  refine ⟨rfl, _, ?_, hheaders (onePending.db.responses.seq + 1) 0⟩
  dsimp only [ResponseHistory.start]
  rw [run_dbGetLatestResponse_of_calm 1 hcalm]
  exact congrArg (Option.map decodeResponse) hlatest

/--
The count of a request with `2 ^ 31` responses is negative. Of a header text of `2 ^ 32 + 1` bytes one
byte is stored.
-/
theorem dbSaveResponse_not_faithful
    : onePending.db.responses.rows = [] ∧
        plainResponse.Fits ∧
        (let h := (ResponseHistory.start onePending).exec (List.replicate (2 ^ 31) (plainResponse, []))
        (h.savedFor 1).length = 2 ^ 31 ∧
          ((dbCountResponsesByRequestId 1).run answer [] h.conn).1 = -2 ^ 31) ∧
        (let h := (ResponseHistory.start onePending).step (longHeaders (2 ^ 32), [])
        (∀ c ∈ (longHeaders (2 ^ 32)).headers.getD [], c ≠ 0) ∧
          h.savedFor 1 = [longHeaders (2 ^ 32)] ∧
          ∃ resp', ((dbGetLatestResponseByRequestId 1).run answer [] h.conn).1 = some resp' ∧
            (longHeaders (2 ^ 32)).headers ≠ resp'.headers) := by
  have hempty : onePending.db.responses.rows = [] := by decide +kernel
  have hhas : HasRequest onePending.db plainResponse.requestId := by decide +kernel
  have hcount := count_replicate hempty hhas (by decide +kernel) (2 ^ 31)
  have hmin : Lib.toInt ((2 ^ 31 : Nat) : Int) = -2 ^ 31 := by decide
  rw [hmin] at hcount
  have hone : Lib.toInt ((2 ^ 32 + 1 : Nat) : Int) = 1 := by decide
  have ⟨hsaved, resp', hlatest, hheaders⟩ := latest_longHeaders hone
  refine ⟨hempty, plainResponse_fits, hcount, headers_longHeaders _, hsaved, resp', hlatest, ?_⟩
  intro heq
  rw [hheaders, longHeaders, Option.some.injEq] at heq
  have hlength := length_headers_longHeaders (2 ^ 32)
  rw [heq] at hlength
  exact absurd hlength (by decide)

end Examples

end Store

end HttpRuntime
