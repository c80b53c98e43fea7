import HttpRuntime.Core.Worker

/-!
This module contains the end of a round of `http_worker_routine`: what the round has acquired when it
jumps to one of the labels, and what is freed from that label on.
-/

namespace HttpRuntime

/-- What is owned on the way of one case through a run. The last one is a response of the result. -/
inductive Resource where
  | request
  | task
  | response
  | curl
  | headerList
  | result
  deriving DecidableEq, Repr

-- `cleanup_header_list` and the labels that it falls through to
inductive CleanupLabel where
  | headerList
  | curl
  | response
  | task
  deriving DecidableEq, Repr

/--
A round from `queue_pop` to its jump. The pointers are those at the label, where `response` is null
again after `push_response_or_free`.
-/
structure WorkerRound where
  label : CleanupLabel
  pushes : Bool := false
  response : Bool := false
  curl : Bool := false
  headerList : Bool := false
  -- `task->data`
  data : Bool := true
  acquired : List Resource := []
  -- what `set_curl_headers` frees itself
  released : List Resource := []
  deriving DecidableEq, Repr

def Request.hasHeaders (req : Request) : Bool := (req.headers.getD []).headD 0 ≠ 0

def httpWorkerRound (env : TransferEnv) (data : Option Request) : WorkerRound :=
  match data with
  | none => { label := .task, data := false }
  | some req =>
    if !env.calloc then { label := .task }
    else if !env.easyInit then { label := .task, pushes := true, acquired := [.response] }
    else if !setCurlMethod env req then
      { label := .curl, pushes := true, curl := true, acquired := [.response, .curl] }
    else if req.hasHeaders then
      if !(parseHeaders env (req.headers.getD [])).isSome then
        { label := .curl, pushes := true, curl := true, acquired := [.response, .curl] }
      else if !env.setopt .httpHeader then
        {
          label := .curl
          pushes := true
          curl := true
          acquired := [.response, .curl, .headerList]
          released := [.headerList]
        }
      else
        {
          label := if transferOptions.all env.setopt then .headerList else .curl
          pushes := true
          curl := true
          headerList := true
          acquired := [.response, .curl, .headerList]
        }
    else
      {
        label := if transferOptions.all env.setopt then .headerList else .curl
        pushes := true
        curl := true
        acquired := [.response, .curl]
      }

-- What a task hands to the worker.
def taskResources (data : Option Request) : List Resource :=
  if data.isSome then [.request, .task] else [.task]

namespace WorkerRound

variable (round : WorkerRound)

def cleanupTask : List Resource := if round.data then [.request, .task] else [.task]

def cleanupResponse : List Resource :=
  if round.response then .response :: round.cleanupTask else round.cleanupTask

def cleanupCurl : List Resource :=
  if round.curl then .curl :: round.cleanupResponse else round.cleanupResponse

def cleanupHeaderList : List Resource :=
  if round.headerList then .headerList :: round.cleanupCurl else round.cleanupCurl

/-- What is freed from the label on. -/
def cleanup : List Resource :=
  match round.label with
  | .headerList => round.cleanupHeaderList
  | .curl => round.cleanupCurl
  | .response => round.cleanupResponse
  | .task => round.cleanupTask

-- What the round hands over.
def pushed : List Resource := if round.pushes then [.response] else []

end WorkerRound

/-- A header list was built, and one of the options that are set after it is refused. -/
def skipsHeaderList (env : TransferEnv) (data : Option Request) : Bool :=
  match data with
  | none => false
  | some req =>
    env.calloc && env.easyInit && setCurlMethod env req && req.hasHeaders &&
      (setCurlHeaders env (req.headers.getD [])).isSome && !transferOptions.all env.setopt

-- What is left without an owner then.
def lostHeaderList (env : TransferEnv) (data : Option Request) : List Resource :=
  if skipsHeaderList env data then [.headerList] else []

section Round

theorem isSome_setCurlHeaders (env : TransferEnv) (headers : Bytes)
    : (setCurlHeaders env headers).isSome = ((parseHeaders env headers).isSome && env.setopt .httpHeader) := by
  unfold setCurlHeaders
  cases parseHeaders env headers with
  | none => rfl
  | some list => cases env.setopt .httpHeader <;> rfl

variable (env : TransferEnv) (data : Option Request)

/-- The round pushes a response just when the loop body makes one. -/
theorem httpWorkerRound_pushes : (httpWorkerRound env data).pushes = (httpWorkerTask env data).isSome := by
  cases data with
  | none => rfl
  | some req =>
    cases hcalloc : env.calloc with
    | false => simp [httpWorkerRound, httpWorkerTask, hcalloc]
    | true =>
      have hsome := Option.isSome_iff_ne_none.mpr (@httpWorkerTask_ne_none env req hcalloc)
      rw [hsome]
      unfold httpWorkerRound
      dsimp only
      rw [hcalloc]
      generalize env.easyInit = easyInit
      generalize setCurlMethod env req = method
      generalize req.hasHeaders = hasHeaders
      generalize (parseHeaders env (req.headers.getD [])).isSome = parsed
      generalize env.setopt .httpHeader = httpHeader
      generalize transferOptions.all env.setopt = options
      decide +revert

/-- A round acquires each of the three at most once. -/
theorem httpWorkerRound_acquired
    : (httpWorkerRound env data).acquired.Sublist [.response, .curl, .headerList] := by
  unfold httpWorkerRound
  split
  . exact List.nil_sublist _
  . split <;> [skip; split <;> [skip; split <;> [skip; split <;> [split <;> [skip; split]; skip]]]]
    all_goals
      dsimp only
      decide

/-- Whatever a round acquires or is given is released, handed over or lost. -/
theorem httpWorkerRound_perm
    : ((httpWorkerRound env data).acquired ++ taskResources data).Perm
        ((httpWorkerRound env data).released ++ (httpWorkerRound env data).pushed ++
          (httpWorkerRound env data).cleanup ++ lostHeaderList env data) := by
  cases data with
  | none => exact .refl _
  | some req =>
    have htask : taskResources (some req) = [.request, .task] := rfl
    unfold lostHeaderList skipsHeaderList httpWorkerRound
    simp only [isSome_setCurlHeaders, htask]
    generalize env.calloc = calloc
    generalize env.easyInit = easyInit
    generalize setCurlMethod env req = method
    generalize req.hasHeaders = hasHeaders
    generalize (parseHeaders env (req.headers.getD [])).isSome = parsed
    generalize env.setopt .httpHeader = httpHeader
    generalize transferOptions.all env.setopt = options
    clear htask req
    decide +revert

end Round

end HttpRuntime
