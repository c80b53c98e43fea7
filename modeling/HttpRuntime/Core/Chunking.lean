import HttpRuntime.Core.Assertion
import HttpRuntime.Core.DbManager.ResponseStore
import HttpRuntime.Core.HeaderLines
import HttpRuntime.Core.Worker.Buffers

/-!
This module contains that the verdict of an assertion does not depend on how libcurl cuts a response
into chunks, from the callbacks through the database to the evaluation.
-/

open Lib Lib.Sql

namespace HttpRuntime

section Congr

variable {resp resp' : Response}

theorem eq_of_getD_ne_nil {p p' : Option Bytes} (h : p'.getD [] = p.getD []) (hne : p.getD [] ≠ []) : p' = p := by
  cases p with
  | none => exact absurd rfl hne
  | some bytes =>
    cases p' with
    | none => exact absurd h.symm hne
    | some bytes' => exact congrArg some h

theorem no_headers_iff (p : Option Bytes)
    : (p = none ∨ (p.map strlen).getD 0 = 0) ↔ strlen (p.getD []) = 0 := by
  cases p with
  | none => simp [strlen]
  | some text => simp

theorem evalAssertion_congr (hstatus : resp'.statusCode = resp.statusCode)
    (hheaders : resp'.headers.getD [] = resp.headers.getD [])
    (hbody : resp'.body.getD [] = resp.body.getD []) (hlen' : resp'.bodyLen = resp.bodyLen)
    (hlen : (resp.body.getD []).length = resp.bodyLen) (as : Option Assertion)
    : evalAssertion (some resp') as = evalAssertion (some resp) as := by
  cases as with
  | none => rfl
  | some as =>
    unfold evalAssertion
    dsimp only
    cases as.type with
    | statusEq => rw [hstatus]
    | bodyContains =>
      by_cases hzero : resp.bodyLen = 0
      . simp only [hlen', hzero, or_true, if_true]
      . have hsame : resp'.body = resp.body := by
          apply eq_of_getD_ne_nil hbody
          intro hnil
          rw [hnil] at hlen
          exact hzero hlen.symm
        rw [hsame, hlen']
    | headerContains =>
      simp only [no_headers_iff, hheaders]
      by_cases hzero : strlen (resp.headers.getD []) = 0
      . simp only [hzero, if_true]
      . have hsame : resp'.headers = resp.headers := by
          apply eq_of_getD_ne_nil hheaders
          intro hnil
          rw [hnil] at hzero
          exact hzero rfl
        rw [hsame]

end Congr

/-- A way to hand a body and a header text to the callbacks. -/
structure Delivery (body text : Bytes) where
  events : List TransferEvent
  body : (bodyChunks events).flatten = body
  headers : (headerChunks events).flatten = text
  alloc : ∀ event ∈ events, event.alloc = true

/-- What is found for the request after the response was gathered and saved. -/
def readBack (r : Response) (events : List TransferEvent) (saving reading : List CallEnv) (s : Conn)
    : Option Response :=
  let resp := (runEvents r events).1
  let saved := (dbSaveResponse (some resp)).run answer saving s
  ((dbGetLatestResponseByRequestId resp.requestId).run answer reading saved.2).1

def Saves (r : Response) (events : List TransferEvent) (saving : List CallEnv) (s : Conn) : Prop :=
  ((dbSaveResponse (some (runEvents r events).1)).run answer saving s).1.1 = sqliteOk

-- The response as if it had come in one piece.
def unsplit (r : Response) (body text : Bytes) : Response :=
  { r with body := some body, bodyLen := body.length, headers := some text, headersLen := text.length }

section Chunking

variable {r : Response} {body text : Bytes} {saving reading : List CallEnv} {s : Conn}

theorem evalAssertion_readBack (hfresh : r.Fresh)
    (hstatus : Lib.toInt r.statusCode = r.statusCode) (hbody : body.length < 2 ^ 31)
    (htext : ∀ c ∈ text, c ≠ 0) (htextLen : text.length < 2 ^ 32) (d : Delivery body text)
    (hsaves : Saves r d.events saving s) (hcalm : Calm reading) (as : Assertion)
    : evalAssertion (readBack r d.events saving reading s) (some as) =
        evalAssertion (some (unsplit r body text)) (some as) := by
  have hgathered := runEvents_gathers hfresh.buffers (runEvents_of_alloc r d.alloc)
  have hgatheredBody := hgathered.body
  have hgatheredHeaders := hgathered.headers
  have hgatheredLen := hgathered.buffers.body
  rw [hfresh.body, d.body, Option.getD_none, List.nil_append] at hgatheredBody
  rw [hfresh.headers, d.headers, Option.getD_none, List.nil_append] at hgatheredHeaders
  have hstatus' : (runEvents r d.events).1.statusCode = r.statusCode := by
    have hcode := congrArg Response.statusCode (runEvents_frame r d.events)
    exact hcode
  unfold Saves at hsaves
  unfold readBack
  dsimp only
  generalize (runEvents r d.events).1 = resp at *
  rcases dbSaveResponse_cases resp saving s with hrun | ⟨env, _, hrun⟩
  . rw [hrun] at hsaves
    exact absurd hsaves.symm sqliteOk_ne_error
  . rw [hrun]
    dsimp only
    rw [run_dbGetLatestResponse_of_calm _ hcalm, latestResponse_insertedResponse, Option.map_some]
    have hlen : resp.bodyLen = body.length := by rw [← hgatheredLen, hgatheredBody]
    have hdecoded := decode_body hgatheredLen (by omega) env.now
    have hheaders := decode_textValue (p := resp.headers) (by rw [hgatheredHeaders]; exact htext)
      (by rw [hgatheredHeaders]; exact htextLen)
    apply evalAssertion_congr
    . exact (congrArg Lib.toInt hstatus').trans hstatus
    . exact hheaders.trans hgatheredHeaders
    . exact hdecoded.1.trans hgatheredBody
    . exact hdecoded.2.trans hlen
    . rfl

/--
However a body and a header text are cut and interleaved, what is saved and read back gets the verdict
of the whole body and the whole text.
-/
theorem chunking_irrelevant (hfresh : r.Fresh) (hstatus : Lib.toInt r.statusCode = r.statusCode)
    (hbody : body.length < 2 ^ 31) (htext : ∀ c ∈ text, c ≠ 0) (htextLen : text.length < 2 ^ 32)
    {s s' : Conn} {saving saving' reading reading' : List CallEnv} (d d' : Delivery body text)
    (hsaves : Saves r d.events saving s) (hsaves' : Saves r d'.events saving' s')
    (hcalm : Calm reading) (hcalm' : Calm reading') (as : Assertion)
    : let verdict := evalAssertion (readBack r d.events saving reading s) (some as)
      verdict = evalAssertion (readBack r d'.events saving' reading' s') (some as) ∧
        verdict = evalAssertion (some (unsplit r body text)) (some as) := by
  have hverdict := evalAssertion_readBack hfresh hstatus hbody htext htextLen d hsaves hcalm as
  have hverdict' := evalAssertion_readBack hfresh hstatus hbody htext htextLen d' hsaves' hcalm' as
  exact ⟨hverdict.trans hverdict'.symm, hverdict⟩

end Chunking

section Examples

-- The response of a worker, before the transfer.
def ownResponse : Response := { Response.zero with requestId := 1, statusCode := 200 }

theorem ownResponse_fresh : ownResponse.Fresh := by
  constructor <;> rfl

theorem calm_nil : Calm [] := by
  intro e he
  cases he

-- "H: v\r\n" and "ab", whole and in pieces.
def wholeDelivery : Delivery [97, 98] [72, 58, 32, 118, 13, 10] where
  events := [.header [72, 58, 32, 118, 13, 10] true, .body [97, 98] true]
  body := rfl
  headers := rfl
  alloc := by decide

def splitDelivery : Delivery [97, 98] [72, 58, 32, 118, 13, 10] where
  events := [.header [72, 58] true, .body [97] true, .header [32, 118, 13] true, .body [] true,
    .body [98] true, .header [10] true]
  body := rfl
  headers := rfl
  alloc := by decide

theorem chunking_irrelevant_split
    : let as : Assertion := ⟨.headerContains, .header ⟨some [72], some [118]⟩⟩
      let verdict := evalAssertion (readBack ownResponse splitDelivery.events [] [] onePending) (some as)
      verdict = evalAssertion (readBack ownResponse wholeDelivery.events [] [] onePending) (some as) ∧
        verdict = evalAssertion
          (some (unsplit ownResponse [97, 98] [72, 58, 32, 118, 13, 10])) (some as) := by
  have hsplit : Saves ownResponse splitDelivery.events [] onePending := by
    unfold Saves
    decide +kernel
  have hwhole : Saves ownResponse wholeDelivery.events [] onePending := by
    unfold Saves
    decide +kernel
  exact chunking_irrelevant ownResponse_fresh (by decide) (by decide) (by decide +kernel) (by decide)
    splitDelivery wholeDelivery hsplit hwhole calm_nil calm_nil _

-- "H:v\n" before `n` bytes.
def longText (n : Nat) : Bytes := 72 :: 58 :: 118 :: 10 :: List.replicate n 97

theorem longText_ne_zero (n : Nat) : ∀ c ∈ longText n, c ≠ 0 := by
  intro c hc
  unfold longText at hc
  simp only [List.mem_cons, List.mem_replicate] at hc
  rcases hc with hc | hc | hc | hc | ⟨_, hc⟩
  all_goals
    rw [hc]
    decide

theorem length_longText (n : Nat) : (longText n).length = n + 4 := by
  simp [longText]

def longDelivery (n : Nat) : Delivery [] (longText n) where
  events := [.header (longText n) true]
  body := rfl
  headers := List.append_nil _
  alloc := by simp [TransferEvent.alloc]

def expectHeader : Assertion := ⟨.headerContains, .header ⟨some [72], some [118]⟩⟩

theorem passed_longText (n : Nat)
    : (evalAssertion (some (unsplit ownResponse [] (longText n))) (some expectHeader)).passed = true := by
  have hlength : strlen (longText n) ≠ 0 := by
    rw [strlen_of_not_mem (fun hmem => longText_ne_zero n 0 hmem rfl), length_longText]
    omega
  have hcontains : headerContains (some (longText n)) ⟨some [72], some [118]⟩ = true := by
    have hline : 10 ∉ ([72, 58, 118] : Bytes) := by decide
    unfold headerContains
    dsimp only
    rw [cstring_eq_self (longText_ne_zero n)]
    show headerLinesContain ([72, 58, 118] ++ 10 :: List.replicate n 97) _ _ = true
    rw [headerLinesContain_cons hline]
    rw [Bool.or_eq_true]
    left
    decide
  unfold evalAssertion expectHeader unsplit
  dsimp only
  rw [if_neg (by simpa using hlength)]
  exact hcontains

theorem failed_of_headers {resp : Response} (h : resp.headers = some [72])
    : (evalAssertion (some resp) (some expectHeader)).passed = false := by
  have hcontains : headerContains (some [72]) ⟨some [72], some [118]⟩ = false := by decide +kernel
  unfold evalAssertion expectHeader
  dsimp only
  rw [h, if_neg (by decide)]
  exact hcontains

def longResponse (n : Nat) : Response :=
  {
    ownResponse with
    headers := some (longText n)
    headersLen := (longText n).length
    headersCapacity := maxSize initialCapacity 0 ((longText n).length + 1)
  }

theorem runEvents_longDelivery (n : Nat)
    : (runEvents ownResponse (longDelivery n).events).1 = longResponse n := by
  simp [longDelivery, runEvents, headerCallback, ownResponse, Response.zero, longResponse]

theorem failed_longText {n : Nat} (hone : Lib.toInt ((longText n).length : Nat) = 1)
    : Saves ownResponse (longDelivery n).events [] onePending ∧
        (evalAssertion (readBack ownResponse (longDelivery n).events [] [] onePending)
          (some expectHeader)).passed = false := by
  have hne := longText_ne_zero n
  have hbound : none ∉ responseParams (longResponse n) := by
    rw [responseParams_wrapped hne hone rfl]
    show none ∉ responseParams { ownResponse with headers := some [72] }
    decide
  have hhas : HasRequest onePending.db (longResponse n).requestId :=
    (show HasRequest onePending.db 1 by decide +kernel)
  have hcalm : calm 10 ([] : List CallEnv) = true := rfl
  have hrun := @dbSaveResponse_of_calm onePending _ _ hcalm hbound
  rw [if_pos hhas] at hrun
  constructor
  . unfold Saves
    rw [runEvents_longDelivery, hrun]
  . unfold readBack
    dsimp only
    rw [runEvents_longDelivery, hrun, run_dbGetLatestResponse_of_calm _ calm_nil]
    dsimp only
    rw [latestResponse_insertedResponse, Option.map_some]
    exact failed_of_headers (headers_decodeResponse_wrapped hne hone rfl _ _)

def longBody (n : Nat) : Bytes := List.replicate n 0

def bodyDelivery (n : Nat) : Delivery (longBody n) [] where
  events := [.body (longBody n) true]
  body := List.append_nil _
  headers := rfl
  alloc := by simp [TransferEvent.alloc]

theorem readBack_longBody {n : Nat} (hlimit : sqliteMaxLength < n) (hlt : n < 2 ^ 31)
    : readBack ownResponse (bodyDelivery n).events [] [] onePending = none := by
  have hpos : 0 < n := by omega
  have hlength : (longBody n).length = n := List.length_replicate
  have hresp : (runEvents ownResponse (bodyDelivery n).events).1 =
      {
        ownResponse with
        body := some (longBody n)
        bodyLen := n
        bodyCapacity := maxSize initialCapacity 0 n
      } := by
    simp [bodyDelivery, runEvents, writeCallback, ownResponse, Response.zero, hlength, hpos]
  have hblob : bindBlob (some (longBody n)) n = none := by
    have hvalue : blobValue (some (longBody n)) n = .blob (longBody n) := by
      have := blobValue_of_short (hlength.symm ▸ hlt : (longBody n).length < 2 ^ 31)
      rwa [hlength] at this
    unfold bindBlob
    rw [hvalue, Value.size, hlength, if_pos hlimit]
  have hrefused : none ∈ responseParams (runEvents ownResponse (bodyDelivery n).events).1 := by
    rw [hresp]
    simp [responseParams, hblob, hpos]
  have hid : (runEvents ownResponse (bodyDelivery n).events).1.requestId = 1 := by
    rw [hresp]
    rfl
  have hnone : ((dbGetLatestResponseByRequestId 1).run answer [] onePending).1 = none := by
    decide +kernel
  unfold readBack
  dsimp only
  rw [dbSaveResponse_not_calm (Or.inr hrefused), hid]
  dsimp only
  exact hnone

/--
Of a header text of `2 ^ 32 + 1` bytes one byte is stored, and its header is not found. A body of
`1000000001` bytes is not stored at all.
-/
theorem chunking_relevant
    : ownResponse.Fresh ∧
        (∀ c ∈ longText (2 ^ 32 - 3), c ≠ 0) ∧
        Saves ownResponse (longDelivery (2 ^ 32 - 3)).events [] onePending ∧
        (evalAssertion (readBack ownResponse (longDelivery (2 ^ 32 - 3)).events [] [] onePending)
          (some expectHeader)).passed = false ∧
        (evalAssertion (some (unsplit ownResponse [] (longText (2 ^ 32 - 3))))
          (some expectHeader)).passed = true ∧
        (evalAssertion (readBack ownResponse (bodyDelivery 1000000001).events [] [] onePending)
          (some ⟨.statusEq, .int 200⟩)).passed = false ∧
        (evalAssertion (some (unsplit ownResponse (longBody 1000000001) []))
          (some ⟨.statusEq, .int 200⟩)).passed = true := by
  have hone : Lib.toInt ((longText (2 ^ 32 - 3)).length : Nat) = 1 := by
    rw [length_longText]
    decide
  have ⟨hsaves, hfailed⟩ := failed_longText hone
  refine ⟨ownResponse_fresh, longText_ne_zero _, hsaves, hfailed, passed_longText _, ?_, rfl⟩
  rw [readBack_longBody (by decide) (by decide)]
  rfl

end Examples

end HttpRuntime
