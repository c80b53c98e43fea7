import HttpRuntime.Core.Models

/-!
This module contains what one HTTP worker does with one task, `worker.c`: it sets up a transfer,
lets libcurl perform it through the two callbacks, and fills in a response.

libcurl and the allocator are outside of the program. Their answers are a `TransferEnv`.
-/

namespace HttpRuntime

def initialCapacity : Nat := 4096

def maxSize (a b c : Nat) : Nat :=
  if a > b then
    if a > c then a else c
  else
    if b > c then b else c

-- `alloc` tells whether a `realloc` succeeds. The second result is the return value.
def writeCallback (r : Response) (chunk : Bytes) (alloc : Bool) : Response × Nat :=
  let totalSize := chunk.length
  let requiredSize := r.bodyLen + totalSize
  if requiredSize > r.bodyCapacity then
    let doubleCap := r.bodyCapacity * 2
    let newCapacity := maxSize initialCapacity doubleCap requiredSize
    if !alloc then
      (r, 0)
    else
      ({
        r with
        body := some (r.body.getD [] ++ chunk)
        bodyCapacity := newCapacity
        bodyLen := requiredSize
      }, totalSize)
  else
    ({ r with body := r.body.map (fun body => body ++ chunk), bodyLen := requiredSize }, totalSize)

def headerCallback (r : Response) (chunk : Bytes) (alloc : Bool) : Response × Nat :=
  let totalSize := chunk.length
  let requiredSize := r.headersLen + totalSize + 1
  if requiredSize > r.headersCapacity then
    let doubleCap := r.headersCapacity * 2
    let newCapacity := maxSize initialCapacity doubleCap requiredSize
    if !alloc then
      (r, 0)
    else
      ({
        r with
        headers := some (r.headers.getD [] ++ chunk)
        headersCapacity := newCapacity
        headersLen := r.headersLen + totalSize
      }, totalSize)
  else
    ({
      r with
      headers := r.headers.map (fun headers => headers ++ chunk)
      headersLen := r.headersLen + totalSize
    }, totalSize)

inductive CurlOption where
  | httpGet
  | post
  | customRequest
  | postFields
  | postFieldSize
  | httpHeader
  | url
  | writeFunction
  | writeData
  | headerFunction
  | headerData
  | connectTimeout
  | timeout
  | followLocation
  | maxRedirs
  | userAgent
  deriving DecidableEq, Repr

inductive TransferEvent where
  | body (chunk : Bytes) (alloc : Bool)
  | header (chunk : Bytes) (alloc : Bool)
  deriving DecidableEq, Repr

structure TransferEnv where
  -- the allocation of the response
  calloc : Bool
  easyInit : Bool
  setopt : CurlOption → Bool
  -- the allocations of `parse_headers`
  strdup : Bool
  slistAppend : Nat → Bool
  events : List TransferEvent
  -- whether `curl_easy_perform` is `CURLE_OK` when no callback stops it
  perform : Bool
  responseCode : Int
  contentType : Option Bytes
  contentTypeDup : Bool
  totalTime : Option UInt64

-- A transfer in which everything succeeds.
def TransferEnv.ok (events : List TransferEvent) (responseCode : Int) : TransferEnv where
  calloc := true
  easyInit := true
  setopt := fun _ => true
  strdup := true
  slistAppend := fun _ => true
  events := events
  perform := true
  responseCode := responseCode
  contentType := none
  contentTypeDup := true
  totalTime := none

def setCurlMethod (env : TransferEnv) (req : Request) : Bool :=
  let setBody : Bool :=
    match req.body with
    | some _ => env.setopt .postFields && env.setopt .postFieldSize
    | none => true
  match req.method with
  | .get => env.setopt .httpGet
  | .post => env.setopt .post && setBody
  | .delete => env.setopt .customRequest && setBody
  | .put => env.setopt .customRequest && setBody
  | .patch => env.setopt .customRequest && setBody
  | .head => false
  | .options => false

-- The tokens between carriage returns and line feeds.
def headerLines (headers : Bytes) : List Bytes :=
  (headers.splitOnP (fun c => c == 13 || c == 10)).filter (fun line => line != [])

def parseHeaders (env : TransferEnv) (headers : Bytes) : Option (List Bytes) :=
  if !env.strdup then
    none
  else
    let lines := headerLines headers
    if !(List.range lines.length).all env.slistAppend then none
    else if lines = [] then none
    else some lines

def setCurlHeaders (env : TransferEnv) (headers : Bytes) : Option (List Bytes) :=
  match parseHeaders env headers with
  | none => none
  | some list => if !env.setopt .httpHeader then none else some list

/-- The callbacks of one transfer. A callback that takes less than it was given stops it. -/
def runEvents (r : Response) (events : List TransferEvent) : Response × Bool :=
  match events with
  | [] => (r, true)
  | .body chunk alloc :: events =>
    let res := writeCallback r chunk alloc
    if res.2 = chunk.length then runEvents res.1 events else (res.1, false)
  | .header chunk alloc :: events =>
    let res := headerCallback r chunk alloc
    if res.2 = chunk.length then runEvents res.1 events else (res.1, false)

def easyPerform (env : TransferEnv) (r : Response) : Response × Bool :=
  let res := runEvents r env.events
  (res.1, res.2 && env.perform)

def transferOptions : List CurlOption :=
  [.url, .writeFunction, .writeData, .headerFunction, .headerData, .connectTimeout, .timeout,
    .followLocation, .maxRedirs, .userAgent]

/--
The body of the loop of `http_worker_routine` for one task: the response that is pushed, if any.
-/
def httpWorkerTask (env : TransferEnv) (data : Option Request) : Option Response :=
  match data with
  | none => none
  | some req =>
    if !env.calloc then
      none
    else
      let response := { Response.zero with requestId := req.id }
      let failed := some { response with result := .curlError }
      let hasHeaders := (req.headers.getD []).headD 0 ≠ 0
      if !env.easyInit then failed
      else if !setCurlMethod env req then failed
      else if hasHeaders ∧ setCurlHeaders env (req.headers.getD []) = none then failed
      else if !transferOptions.all env.setopt then failed
      else
        let res := easyPerform env response
        if !res.2 then
          some { res.1 with result := .curlError }
        else
          some {
            res.1 with
            result := .ok
            statusCode := Lib.toInt env.responseCode
            contentType := if env.contentTypeDup then env.contentType else none
            duration := env.totalTime.getD 0
          }

-- `r` with the buffers of `r'`.
def Response.withBuffers (r r' : Response) : Response :=
  {
    r with
    body := r'.body
    bodyLen := r'.bodyLen
    bodyCapacity := r'.bodyCapacity
    headers := r'.headers
    headersLen := r'.headersLen
    headersCapacity := r'.headersCapacity
  }

theorem writeCallback_frame (r : Response) (chunk : Bytes) (alloc : Bool)
    : (writeCallback r chunk alloc).1 = r.withBuffers (writeCallback r chunk alloc).1 := by
  unfold writeCallback
  dsimp only
  split
  . split <;> rfl
  . rfl

theorem headerCallback_frame (r : Response) (chunk : Bytes) (alloc : Bool)
    : (headerCallback r chunk alloc).1 = r.withBuffers (headerCallback r chunk alloc).1 := by
  unfold headerCallback
  dsimp only
  split
  . split <;> rfl
  . rfl

theorem runEvents_frame (r : Response) (events : List TransferEvent)
    : (runEvents r events).1 = r.withBuffers (runEvents r events).1 := by
  have hwrite (r : Response) (chunk : Bytes) (alloc : Bool) (r' : Response)
      : (writeCallback r chunk alloc).1.withBuffers r' = r.withBuffers r' := by
    rw [writeCallback_frame]
    rfl
  have hheader (r : Response) (chunk : Bytes) (alloc : Bool) (r' : Response)
      : (headerCallback r chunk alloc).1.withBuffers r' = r.withBuffers r' := by
    rw [headerCallback_frame]
    rfl
  fun_induction runEvents r events with
  | case1 => rfl
  | case2 r chunk alloc events res h ih => rw [← hwrite, ← ih]
  | case3 r chunk alloc events res h => exact writeCallback_frame r chunk alloc
  | case4 r chunk alloc events res h ih => rw [← hheader, ← ih]
  | case5 r chunk alloc events res h => exact headerCallback_frame r chunk alloc

theorem requestId_httpWorkerTask {env : TransferEnv} {req : Request} {resp : Response}
    (h : httpWorkerTask env (some req) = some resp) : resp.requestId = req.id := by
  unfold httpWorkerTask at h
  dsimp only at h
  split at h
  . cases h
  . split at h <;> [skip; split at h <;> [skip; split at h <;> [skip; split at h <;> [skip; split at h]]]]
    all_goals
      rw [Option.some.injEq] at h
      rw [← h]
    all_goals
      first
      | rfl
      | exact congrArg Response.requestId (runEvents_frame _ _)

/-- Everything that the transfer of the request needs succeeds. -/
def TransferEnv.Succeeds (env : TransferEnv) (req : Request) : Prop :=
  env.easyInit = true ∧
    setCurlMethod env req = true ∧
    ((req.headers.getD []).headD 0 ≠ 0 → setCurlHeaders env (req.headers.getD []) ≠ none) ∧
    transferOptions.all env.setopt = true ∧
    (easyPerform env { Response.zero with requestId := req.id }).2 = true

instance (env : TransferEnv) (req : Request) : Decidable (env.Succeeds req) :=
  inferInstanceAs (Decidable (_ ∧ _))

/-- The `result` of a response tells whether the transfer succeeded. -/
theorem result_httpWorkerTask {env : TransferEnv} {req : Request} {resp : Response}
    (h : httpWorkerTask env (some req) = some resp) : resp.result = .ok ↔ env.Succeeds req := by
  unfold httpWorkerTask at h
  unfold TransferEnv.Succeeds
  dsimp only at h
  split at h
  . cases h
  . split at h <;> [skip; split at h <;> [skip; split at h <;> [skip; split at h <;> [skip; split at h]]]]
    all_goals
      rw [Option.some.injEq] at h
      rw [← h]
      simp_all

theorem httpWorkerTask_ne_none {env : TransferEnv} {req : Request} (h : env.calloc = true)
    : httpWorkerTask env (some req) ≠ none := by
  unfold httpWorkerTask
  simp only [h, Bool.not_true, Bool.false_eq_true, if_false]
  split <;> [skip; split <;> [skip; split <;> [skip; split <;> [skip; split]]]]
  all_goals simp

end HttpRuntime
