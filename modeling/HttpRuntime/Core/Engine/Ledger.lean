import HttpRuntime.Core.Engine.Tidy

/-!
This module contains the ledger of a run: what `run_plan` and the threads of its runtime acquire and
release. Nothing is released twice. What a run that returns still holds are the responses in its
result, unless a header list or a request was lost on the way.
-/

open Lib

namespace HttpRuntime

-- The client has called `destroy_runtime`.
def ClientPc.cleaned (pc : ClientPc) : Bool :=
  match pc with
  | .destroy _ => true
  | .returned => true
  | _ => false

/--
A run with its ledger. `req` and `task` are the pointers of `run_plan`, given by the case they belong
to, and `cleanup i` is what worker `i` frees at the end of its round.
-/
structure Audit where
  sys : Engine
  ledger : Ledger Owned
  req : Option Nat
  task : Option Nat
  cleanup : Nat → List Resource

namespace Engine

-- Whether `dispatch_task` takes the task.
def dispatches (sys : Engine) (i : Nat) (req : Request) (node : Bool) : Bool :=
  match sys.runtime with
  | none => false
  | some rt => (rt.dispatchTask (.worker ⟨i, ⟨some req⟩⟩) node).2 = orchestratorSuccess

-- Whether `wait_for_response` finds a response at this step.
def receives (plan : RunPlan) (sys : Engine) (i : Nat) (elapsed : Int) (calls : List CallEnv) : Bool :=
  match plan.cases[i]? with
  | none => false
  | some requestCase =>
    elapsed < waitTimeout plan requestCase &&
      ((dbGetLatestResponseByRequestId (sys.client.requestIds i)).run answer calls sys.conn).1.isSome

-- Whether `create_request` succeeds.
def creates (plan : RunPlan) (sys : Engine) (i : Nat) (alloc : Bool) : Bool :=
  match plan.cases[i]? with
  | none => false
  | some requestCase => (createCaseRequest requestCase sys.client.collId alloc).isSome

end Engine

/-- The responses that a result refers to. -/
def RunResult.owned (result : RunResult) (plan : RunPlan) : List Owned :=
  ((List.range plan.cases.length).filter (fun i => (result.caseResults i).response.isSome)).map
    (fun i => ⟨i, .result⟩)

namespace Audit

def start (conn : Conn) : Audit where
  sys := .start conn
  ledger := .empty
  req := none
  task := none
  cleanup := fun _ => []

-- What the cleanup of `run_plan` frees.
def pointers (a : Audit) : List Owned :=
  (a.task.map (fun i => ⟨i, .task⟩)).toList ++ (a.req.map (fun i => ⟨i, .request⟩)).toList

def clientStep (plan : RunPlan) (a : Audit) (env : ClientEnv) : Audit :=
  let next := { a with sys := a.sys.clientStep plan env }
  match a.sys.client.pc with
  | .createRequest i =>
    if a.sys.creates plan i env.alloc then
      { next with ledger := a.ledger.book [⟨i, .request⟩] [], req := some i }
    else
      next
  | .dispatch i req =>
    if !env.task then
      next
    else
      -- `req` is set to null before `dispatch_task`, `task` after it
      let task := if a.sys.dispatches i req env.node then none else some i
      { next with ledger := a.ledger.book [⟨i, .task⟩] [], req := none, task := task }
  | .wait i elapsed =>
    if a.sys.receives plan i elapsed env.calls then
      { next with ledger := a.ledger.book [⟨i, .result⟩] [] }
    else
      next
  | .cleanup => { next with ledger := a.ledger.book [] a.pointers }
  | _ => next

def step (plan : RunPlan) (a : Audit) (act : Engine.Action) : Audit :=
  match act with
  | .client env => a.clientStep plan env
  | .runtime act =>
    match a.sys.runtime with
    | none => a
    | some rt => {
        a with
        sys := a.sys.step plan (.runtime act)
        ledger := a.ledger.book (rt.acquires act) (rt.releases a.sys.conn a.cleanup act)
        cleanup := rt.cleanupAfter a.cleanup act
      }

def exec (plan : RunPlan) (a : Audit) (acts : List Engine.Action) : Audit :=
  acts.foldl (step plan) a

-- The pointers are not read any more after the cleanup.
def clientOwned (a : Audit) : List Owned := if a.sys.client.pc.cleaned then [] else a.pointers

def runtimeOwned (a : Audit) : List Owned :=
  (a.sys.runtime.map (fun rt => rt.owned a.cleanup)).getD []

def owned (plan : RunPlan) (a : Audit) : List Owned :=
  a.clientOwned ++ a.runtimeOwned ++ a.sys.client.result.owned plan

-- Nothing was released twice, and a run that returned holds only what its result refers to.
structure Settled (plan : RunPlan) (a : Audit) : Prop where
  once : a.ledger.released.Nodup
  held : a.sys.client.pc = .returned → ∀ x ∈ a.ledger.held, x ∈ a.sys.client.result.owned plan

end Audit

/-- What the client and the tasks that it has not dispatched yet may still acquire. -/
def ClientPc.credit (pc : ClientPc) (x : Owned) : Nat :=
  match pc with
  | .init => 1
  | .saveCollection => 1
  | .createRuntime => 1
  | .createRequest i => if x.item = .result ∨ i ≤ x.ticket then 1 else 0
  | .dispatch i _ =>
    if x.item = .result ∨ i < x.ticket ∨ (i = x.ticket ∧ x.item ≠ .request) then 1 else 0
  | .wait i _ => if x.item = .result ∧ i ≤ x.ticket then 1 else 0
  | .cleanup => 0
  | .destroy _ => 0
  | .returned => 0

namespace Engine

/-- The two steps that lose something: a header list that is not freed, a request that no task reaches. -/
def Loses (sys : Engine) (act : Action) : Prop :=
  match act with
  | .client env => env.task = true ∧ env.node = false ∧ ∃ i req, sys.client.pc = .dispatch i req
  | .runtime (.worker i env _) =>
    ∃ rt task, sys.runtime = some rt ∧ rt.workers[i]? = some (.executing task) ∧
      skipsHeaderList env task.item.data = true
  | .runtime _ => False

def NothingLost (plan : RunPlan) (sys : Engine) (acts : List Action) : Prop :=
  match acts with
  | [] => True
  | act :: acts => ¬ sys.Loses act ∧ NothingLost plan (sys.step plan act) acts

-- What is lost.
def loses (sys : Engine) (act : Action) : List Owned :=
  match act with
  | .client env =>
    match sys.client.pc with
    | .dispatch i _ => if env.task && !env.node then [⟨i, .request⟩] else []
    | _ => []
  | .runtime act => (sys.runtime.map (fun rt => rt.loses act)).getD []

theorem loses_eq_nil_iff (sys : Engine) (act : Action) : sys.loses act = [] ↔ ¬ sys.Loses act := by
  cases act with
  | client env =>
    unfold loses Loses
    dsimp only
    cases sys.client.pc with
    | dispatch i req => cases env.task <;> cases env.node <;> simp
    | _ => simp
  | runtime act =>
    unfold loses
    cases act with
    | worker i env alloc =>
      unfold Loses Runtime.loses
      dsimp only
      cases hrt : sys.runtime with
      | none => simp
      | some rt =>
        cases hw : rt.workers[i]? with
        | none => simp [hw]
        | some w =>
          cases w with
          | executing task => simp [hw, ownedBy, lostHeaderList]
          | _ => simp [hw]
    | dispatcher alloc => cases sys.runtime <;> simp [Loses, Runtime.loses]
    | dbWorker es => cases sys.runtime <;> simp [Loses, Runtime.loses]

end Engine

section Results

variable {plan : RunPlan} {result : RunResult} {x : Owned}

theorem RunResult.mem_owned : x ∈ result.owned plan ↔ x.item = .result ∧ x.ticket < plan.cases.length ∧
    (result.caseResults x.ticket).response.isSome = true := by
  obtain ⟨i, resource⟩ := x
  unfold owned
  simp only [List.mem_map, List.mem_filter, List.mem_range, Ticketed.mk.injEq]
  grind

theorem RunResult.count_owned (result : RunResult) (plan : RunPlan) (x : Owned)
    : (result.owned plan).count x =
        if x.item = .result ∧ x.ticket < plan.cases.length ∧
          (result.caseResults x.ticket).response.isSome = true then 1 else 0 := by
  have hnodup : (result.owned plan).Nodup := by
    apply (List.nodup_range.filter _).map
    intro i j heq
    exact congrArg Ticketed.ticket heq
  rw [hnodup.count]
  simp only [mem_owned]

theorem RunResult.response_receive (result : RunResult) (i : Nat) (assertions : List Assertion)
    (resp : Response) (j : Nat) : ((result.receive i assertions resp).caseResults j).response =
      if j = i then some resp else (result.caseResults j).response := by
  unfold receive setCase
  dsimp only
  split
  . next hji => rw [hji, Function.update_self]
  . next hji => rw [Function.update_of_ne hji]

theorem RunResult.count_owned_receive {i : Nat} (hlt : i < plan.cases.length)
    (hfree : ¬ (result.caseResults i).response.isSome = true) (assertions : List Assertion)
    (resp : Response) : ((result.receive i assertions resp).owned plan).count x =
      (result.owned plan).count x + [(⟨i, .result⟩ : Owned)].count x := by
  rw [count_owned, count_owned, count_single, response_receive]
  by_cases hx : x.ticket = i
  . rw [hx]
    grind
  . grind

theorem RunResult.owned_congr {result' : RunResult}
    (h : ∀ i, (result'.caseResults i).response = (result.caseResults i).response)
    : result'.owned plan = result.owned plan := by
  unfold owned
  simp only [h]

end Results

namespace Audit

variable {plan : RunPlan} {a a' : Audit} {lost : List Owned} {x : Owned}

theorem sys_step (plan : RunPlan) (a : Audit) (act : Engine.Action)
    : (a.step plan act).sys = a.sys.step plan act := by
  cases act with
  | client env =>
    unfold Audit.step clientStep
    dsimp only
    cases a.sys.client.pc with
    | createRequest i =>
      dsimp only
      split <;> rfl
    | dispatch i req =>
      dsimp only
      split <;> rfl
    | wait i elapsed =>
      dsimp only
      split <;> rfl
    | _ => rfl
  | runtime act =>
    unfold Audit.step
    dsimp only
    split
    . next hnone =>
      unfold Engine.step
      dsimp only
      rw [hnone]
    . rfl

theorem sys_exec (plan : RunPlan) (a : Audit) (acts : List Engine.Action)
    : (a.exec plan acts).sys = a.sys.exec plan acts := by
  induction acts generalizing a with
  | nil => rfl
  | cons act acts ih =>
    show ((a.step plan act).exec plan acts).sys = (a.sys.step plan act).exec plan acts
    rw [ih, sys_step]

def credit (a : Audit) (x : Owned) : Nat :=
  a.sys.client.pc.credit x + ((a.sys.runtime.map Runtime.credit).getD []).count x

-- What the pointers of `run_plan` are before its cleanup.
def PointersAt (a : Audit) : Prop :=
  match a.sys.client.pc with
  | .dispatch i _ => a.req = some i ∧ a.task = none
  | .cleanup => True
  | .destroy _ => True
  | .returned => True
  | _ => a.req = none ∧ a.task = none

/-- Everything that was acquired and not released has an owner, but for what was lost. -/
structure Inv (plan : RunPlan) (a : Audit) (lost : List Owned) : Prop where
  balanced : a.ledger.Balanced (a.owned plan ++ lost)
  limited : a.ledger.Limited a.credit
  pointed : a.PointersAt

theorem count_owned (plan : RunPlan) (a : Audit) (x : Owned)
    : (a.owned plan).count x =
        a.clientOwned.count x + a.runtimeOwned.count x + (a.sys.client.result.owned plan).count x := by
  unfold owned
  rw [List.count_append, List.count_append]

theorem Inv.start (plan : RunPlan) (conn : Conn) : Inv plan (Audit.start conn) [] where
  balanced := by
    have hresult : initRunResult.owned plan = [] := by
      simp [RunResult.owned, initRunResult, RequestCaseResult.zero]
    show Ledger.empty.Balanced (initRunResult.owned plan ++ [])
    rw [hresult]
    exact .empty
  limited := .empty (fun _ => Nat.le_refl 1)
  pointed := ⟨rfl, rfl⟩

theorem Inv.book (h : Inv plan a lost) {acquired released lost' : List Owned} (hpointed : a'.PointersAt)
    (hledger : a'.ledger = a.ledger.book acquired released)
    (howned : ∀ x, (a.owned plan).count x + acquired.count x =
      (a'.owned plan).count x + lost'.count x + released.count x)
    (hcredit : ∀ x, a'.credit x + acquired.count x ≤ a.credit x) : Inv plan a' (lost ++ lost') where
  balanced := by
    rw [hledger]
    apply h.balanced.book
    intro x
    have := howned x
    rw [List.count_append, List.count_append, List.count_append]
    omega
  limited := by
    rw [hledger]
    exact h.limited.book hcredit released
  pointed := hpointed

-- A step of the client that acquires and releases nothing and leaves the runtime alone.
theorem Inv.goto (h : Inv plan a lost) {conn : Conn} {client : Client}
    (hpointed : Audit.PointersAt { a with sys := { a.sys with conn := conn, client := client } })
    (hcleaned : client.pc.cleaned = a.sys.client.pc.cleaned)
    (hresults : ∀ i, (client.result.caseResults i).response =
      (a.sys.client.result.caseResults i).response)
    (hcredit : ∀ x, client.pc.credit x ≤ a.sys.client.pc.credit x)
    : Inv plan { a with sys := { a.sys with conn := conn, client := client } } lost where
  balanced := by
    unfold owned clientOwned
    simp only [hcleaned, RunResult.owned_congr hresults]
    exact h.balanced
  limited := by
    apply h.limited.mono
    intro x
    exact Nat.add_le_add_right (hcredit x) _
  pointed := hpointed

-- A jump to the cleanup.
theorem Inv.gotoCleanup (h : Inv plan a lost) (hcleaned : a.sys.client.pc.cleaned = false) (conn : Conn)
    {client : Client} (hpc : client.pc = .cleanup)
    (hresults : client.result.caseResults = a.sys.client.result.caseResults)
    : Inv plan { a with sys := { a.sys with conn := conn, client := client } } lost := by
  apply h.goto
  . unfold PointersAt
    dsimp only
    rw [hpc]
    trivial
  . rw [hpc, hcleaned]
    rfl
  . intro i
    rw [hresults]
  . intro x
    rw [hpc]
    exact Nat.zero_le _

theorem Inv.prepare (h : Inv plan a lost)
    (hpc : a.sys.client.pc = .init ∨ a.sys.client.pc = .saveCollection) (env : ClientEnv)
    : Inv plan (a.clientStep plan env) lost := by
  have hpointed := h.pointed
  unfold PointersAt at hpointed
  unfold Audit.clientStep Engine.clientStep
  dsimp only
  rcases hpc with hpc | hpc
  all_goals
    have hcleaned : a.sys.client.pc.cleaned = false := by
      rw [hpc]
      rfl
    rw [hpc] at hpointed
    rw [hpc]
    dsimp only
    split
    . exact h.gotoCleanup hcleaned _ rfl rfl
    . split
      . exact h.gotoCleanup hcleaned _ rfl rfl
      . apply h.goto
        . exact hpointed
        . exact hcleaned.symm
        . exact fun _ => rfl
        . intro x
          rw [hpc]
          exact Nat.le_refl _

theorem Inv.createRuntime (h : Inv plan a lost) (htidy : a.sys.Tidy)
    (hpc : a.sys.client.pc = .createRuntime) (env : ClientEnv)
    : Inv plan (a.clientStep plan env) lost := by
  have hpointed := h.pointed
  unfold PointersAt at hpointed
  rw [hpc] at hpointed
  unfold Audit.clientStep Engine.clientStep
  dsimp only
  rw [hpc]
  dsimp only
  split
  . exact h.gotoCleanup (by rw [hpc]; rfl) _ rfl rfl
  . next rt hrt =>
    split at hrt
    . have ⟨howned, hcredit, _, _⟩ := Runtime.owned_createRuntime hrt a.cleanup
      have hnone := htidy.runtime_none (by rw [hpc]; rfl)
      exact {
        balanced := by
          have hbalanced := h.balanced
          unfold owned clientOwned runtimeOwned at hbalanced ⊢
          rw [hpc, hnone] at hbalanced
          rw [Option.map_some, Option.getD_some, howned]
          exact hbalanced
        limited := by
          apply h.limited.mono
          intro x
          unfold credit
          rw [hpc, Option.map_some, Option.getD_some, hcredit]
          unfold ClientPc.credit
          grind
        pointed := hpointed
      }
    . cases hrt

theorem Inv.createRequest (h : Inv plan a lost) {i : Nat} (hpc : a.sys.client.pc = .createRequest i)
    (env : ClientEnv) : Inv plan (a.clientStep plan env) lost := by
  have hpointed := h.pointed
  unfold PointersAt at hpointed
  rw [hpc] at hpointed
  obtain ⟨hreq, htask⟩ := hpointed
  unfold Audit.clientStep Engine.clientStep Engine.creates
  dsimp only
  rw [hpc]
  dsimp only
  cases plan.cases[i]? with
  | none =>
    apply h.goto
    . exact ⟨hreq, htask⟩
    . rw [hpc]
      rfl
    . exact fun _ => rfl
    . intro x
      rw [hpc]
      unfold Client.goto ClientPc.credit
      grind
  | some requestCase =>
    obtain hcreate | ⟨req, hcreate⟩ :=
      Option.eq_none_or_eq_some (createCaseRequest requestCase a.sys.client.collId env.alloc)
    . simp only [hcreate, Option.isSome_none, Bool.false_eq_true, if_false]
      exact h.gotoCleanup (by rw [hpc]; rfl) _ rfl rfl
    . simp only [hcreate, Option.isSome_some, if_true]
      rw [← List.append_nil lost]
      -- the request is acquired, whether or not it can be saved
      split
      . refine h.book trivial rfl ?_ ?_
        . intro x
          rw [count_owned, count_owned]
          simp [clientOwned, pointers, runtimeOwned, RunResult.owned, hpc, hreq, htask, Client.failRequests,
            ClientPc.cleaned]
          omega
        . intro x
          unfold credit
          rw [hpc, count_single]
          unfold Client.failRequests ClientPc.credit
          grind
      . refine h.book ⟨rfl, htask⟩ rfl ?_ ?_
        . intro x
          rw [count_owned, count_owned]
          simp [clientOwned, pointers, runtimeOwned, hpc, hreq, htask, ClientPc.cleaned]
          omega
        . intro x
          unfold credit
          rw [hpc, count_single]
          unfold ClientPc.credit
          grind

theorem Inv.dispatch (h : Inv plan a lost) (htidy : a.sys.Tidy) {i : Nat} {req : Request}
    (hpc : a.sys.client.pc = .dispatch i req) (env : ClientEnv)
    : Inv plan (a.clientStep plan env) (lost ++ if env.task && !env.node then [⟨i, .request⟩] else []) := by
  have hpointed := h.pointed
  unfold PointersAt at hpointed
  rw [hpc] at hpointed
  obtain ⟨hreq, htask⟩ := hpointed
  obtain ⟨rt, hrt, hopen⟩ := htidy.creating (by rw [hpc]; rfl)
  unfold Audit.clientStep Engine.clientStep Engine.dispatches
  dsimp only
  rw [hpc]
  dsimp only
  cases env.task with
  | false =>
    rw [if_pos (by rfl), if_pos (by rfl), if_neg (by simp), List.append_nil]
    exact h
  | true =>
    rw [if_neg (by decide), if_neg (by decide), hrt]
    dsimp only
    have hsuccess := Runtime.dispatchTask_eq_success_iff hopen ⟨i, ⟨some req⟩⟩ env.node
    cases hnode : env.node with
    | true =>
      rw [hnode] at hsuccess
      have hdispatch := hsuccess.mpr rfl
      have hcount (x : Owned) := @Runtime.count_owned_dispatchTask rt a.cleanup x _ _ hdispatch
      rw [if_neg (by simp [hdispatch]), if_pos (by simp [hdispatch]), if_neg (by decide)]
      refine h.book ⟨rfl, rfl⟩ rfl ?_ ?_
      . intro x
        have := (hcount x).1
        rw [count_ownedByTask] at this
        rw [count_owned, count_owned]
        simp only [clientOwned, pointers, runtimeOwned, hpc, hreq, htask, hrt, Client.goto,
          ClientPc.cleaned, Option.map_some, Option.map_none, Option.getD_some, Option.toList_some,
          Option.toList_none, List.nil_append, List.count_nil, Bool.false_eq_true, if_false]
        omega
      . intro x
        have := (hcount x).2
        unfold credit
        simp only [hpc, hrt, count_creditOfTask, count_single, Client.goto, ClientPc.credit,
          Option.map_some, Option.getD_some] at this ⊢
        grind
    | false =>
      rw [hnode] at hsuccess
      have hdispatch : (rt.dispatchTask (.worker ⟨i, ⟨some req⟩⟩) false).2 ≠ orchestratorSuccess := by
        intro heq
        cases hsuccess.mp heq
      rw [if_pos hdispatch, if_neg (by simp [hdispatch]), if_pos (by decide),
        Runtime.dispatchTask_rejected hdispatch]
      -- `req` is null already, and the cleanup frees the task only
      refine h.book trivial rfl ?_ ?_
      . intro x
        rw [count_owned, count_owned]
        simp only [clientOwned, pointers, runtimeOwned, RunResult.owned, hpc, hreq, htask, hrt,
          Client.failRequests, ClientPc.cleaned, Option.map_some, Option.map_none, Option.getD_some,
          Option.toList_some, Option.toList_none, List.nil_append, List.append_nil, List.count_nil,
          Bool.false_eq_true, if_false]
        omega
      . intro x
        unfold credit
        rw [hpc, hrt, count_single]
        unfold Client.failRequests ClientPc.credit
        grind

theorem Inv.wait (h : Inv plan a lost) {i : Nat} {elapsed : Int}
    (hpc : a.sys.client.pc = .wait i elapsed) (env : ClientEnv)
    : Inv plan (a.clientStep plan env) lost := by
  have hpointed := h.pointed
  unfold PointersAt at hpointed
  rw [hpc] at hpointed
  have hcleaned : a.sys.client.pc.cleaned = false := by
    rw [hpc]
    rfl
  unfold Audit.clientStep Engine.clientStep Engine.receives
  dsimp only
  rw [hpc]
  dsimp only
  cases hcase : plan.cases[i]? with
  | none => exact h.gotoCleanup hcleaned _ rfl rfl
  | some requestCase =>
    dsimp only
    by_cases helapsed : elapsed < waitTimeout plan requestCase
    . rw [if_pos helapsed]
      obtain hnone | ⟨resp, hresp⟩ := Option.eq_none_or_eq_some
        ((dbGetLatestResponseByRequestId (a.sys.client.requestIds i)).run answer env.calls a.sys.conn).1
      . simp only [hnone, Option.isSome_none, Bool.and_false, Bool.false_eq_true, if_false]
        apply h.goto
        . exact hpointed
        . exact hcleaned.symm
        . exact fun _ => rfl
        . intro x
          rw [hpc]
          exact Nat.le_refl _
      . simp only [hresp, Option.isSome_some, Bool.and_true, helapsed, decide_true, if_true]
        rw [← List.append_nil lost]
        have hlt : i < plan.cases.length := (List.getElem?_eq_some_iff.mp hcase).1
        -- the response of a case can be acquired once only
        have hfree : ¬ (a.sys.client.result.caseResults i).response.isSome = true := by
          intro hsome
          have hcredit : 0 < a.credit ⟨i, .result⟩ := by
            simp [credit, hpc, ClientPc.credit]
          apply h.balanced.not_mem h.limited hcredit
          apply List.mem_append_left
          exact List.mem_append_right _ (RunResult.mem_owned.mpr ⟨rfl, hlt, hsome⟩)
        refine h.book hpointed rfl ?_ ?_
        . intro x
          rw [count_owned, count_owned, RunResult.count_owned_receive hlt hfree]
          simp only [clientOwned, pointers, runtimeOwned, hpc, ClientPc.cleaned, List.count_nil,
            Bool.false_eq_true, if_false]
          omega
        . intro x
          unfold credit
          rw [hpc, count_single]
          unfold ClientPc.credit
          grind
    . rw [if_neg helapsed, if_neg (by simp [helapsed])]
      apply h.goto
      . exact hpointed
      . exact hcleaned.symm
      . intro j
        unfold RunResult.timeOut RunResult.setCase
        dsimp only
        by_cases hji : j = i
        . rw [hji, Function.update_self]
        . rw [Function.update_of_ne hji]
      . intro x
        rw [hpc]
        unfold ClientPc.credit
        grind

theorem Inv.leave (h : Inv plan a lost) (hpc : a.sys.client.pc = .cleanup) (env : ClientEnv)
    : Inv plan (a.clientStep plan env) lost := by
  unfold Audit.clientStep Engine.clientStep
  dsimp only
  rw [hpc]
  dsimp only
  rw [← List.append_nil lost]
  cases hrt : a.sys.runtime with
  | some rt =>
    refine h.book trivial rfl ?_ ?_
    . intro x
      have hsame : rt.destroyStart.1.owned a.cleanup = rt.owned a.cleanup := rfl
      rw [count_owned, count_owned]
      simp only [clientOwned, runtimeOwned, hpc, hrt, hsame, Client.goto, ClientPc.cleaned,
        Option.map_some, Option.getD_some, List.count_nil, Bool.false_eq_true, if_true, if_false]
      omega
    . intro x
      unfold credit
      rw [hpc, hrt]
      exact Nat.le_refl _
  | none =>
    refine h.book trivial rfl ?_ ?_
    . intro x
      rw [count_owned, count_owned]
      simp only [clientOwned, runtimeOwned, RunResult.owned, hpc, hrt, ClientPc.cleaned, Option.map_none,
        Option.getD_none, List.count_nil, Bool.false_eq_true, if_true, if_false]
      omega
    . intro x
      unfold credit
      rw [hpc, hrt]
      exact Nat.le_refl _

theorem Inv.destroy (h : Inv plan a lost) {phase : DestroyPhase} (hpc : a.sys.client.pc = .destroy phase)
    (env : ClientEnv) : Inv plan (a.clientStep plan env) lost := by
  unfold Audit.clientStep Engine.clientStep
  dsimp only
  rw [hpc]
  dsimp only
  split
  . next rt hrt =>
    rw [← hrt]
    apply h.goto
    . trivial
    . rw [hpc]
      rfl
    . exact fun _ => rfl
    . exact fun _ => Nat.zero_le _
  . next rt hrt _ =>
    have hsame := Runtime.owned_destroyStep rt a.cleanup
    exact {
      balanced := by
        apply h.balanced.congr
        intro x
        rw [List.count_append, List.count_append, count_owned, count_owned]
        simp only [clientOwned, runtimeOwned, hpc, hrt, hsame, Client.goto, ClientPc.cleaned,
          Option.map_some, if_true]
      limited := by
        apply h.limited.mono
        intro x
        unfold credit
        rw [hpc, hrt]
        simp only [hsame, Client.goto, ClientPc.credit, Option.map_some]
        exact Nat.le_refl _
      pointed := trivial
    }
  . exact h

theorem Inv.clientStep (h : Inv plan a lost) (htidy : a.sys.Tidy) (env : ClientEnv)
    : Inv plan (a.clientStep plan env) (lost ++ a.sys.loses (.client env)) := by
  unfold Engine.loses
  dsimp only
  cases hpc : a.sys.client.pc with
  | init =>
    rw [List.append_nil]
    exact h.prepare (.inl hpc) env
  | saveCollection =>
    rw [List.append_nil]
    exact h.prepare (.inr hpc) env
  | createRuntime =>
    rw [List.append_nil]
    exact h.createRuntime htidy hpc env
  | createRequest i =>
    rw [List.append_nil]
    exact h.createRequest hpc env
  | dispatch i req => exact h.dispatch htidy hpc env
  | wait i elapsed =>
    rw [List.append_nil]
    exact h.wait hpc env
  | cleanup =>
    rw [List.append_nil]
    exact h.leave hpc env
  | destroy phase =>
    rw [List.append_nil]
    exact h.destroy hpc env
  | returned =>
    have hsame : a.sys.clientStep plan env = a.sys := by
      unfold Engine.clientStep
      dsimp only
      rw [hpc]
    unfold Audit.clientStep
    rw [List.append_nil, hsame, hpc]
    exact h

theorem Inv.step (h : Inv plan a lost) (htidy : a.sys.Tidy) (act : Engine.Action)
    : Inv plan (a.step plan act) (lost ++ a.sys.loses act) := by
  cases act with
  | client env => exact h.clientStep htidy env
  | runtime act =>
    unfold Audit.step Engine.loses
    dsimp only
    cases hrt : a.sys.runtime with
    | none =>
      rw [Option.map_none, Option.getD_none, List.append_nil]
      exact h
    | some rt =>
      have hstep : a.sys.step plan (.runtime act) =
          { a.sys with runtime := some (rt.step a.sys.conn act).1, conn := (rt.step a.sys.conn act).2 } := by
        unfold Engine.step
        dsimp only
        rw [hrt]
      rw [hstep]
      refine h.book h.pointed rfl ?_ ?_
      . intro x
        have := @Runtime.count_owned_step rt a.sys.conn a.cleanup x act
        rw [count_owned, count_owned]
        simp only [clientOwned, pointers, runtimeOwned, hrt, Option.map_some, Option.getD_some]
        omega
      . intro x
        have := @Runtime.count_credit_step rt a.sys.conn x act
        unfold credit
        simp only [hrt, Option.map_some, Option.getD_some]
        omega

theorem Inv.exec (h : Inv plan a lost) (htidy : a.sys.Tidy) (acts : List Engine.Action)
    : ∃ lost', Inv plan (a.exec plan acts) (lost ++ lost') ∧
        (lost' = [] ↔ Engine.NothingLost plan a.sys acts) := by
  induction acts generalizing a lost with
  | nil =>
    refine ⟨[], ?_, iff_of_true rfl trivial⟩
    rw [List.append_nil]
    exact h
  | cons act acts ih =>
    have htidy' : (a.step plan act).sys.Tidy := by
      rw [sys_step]
      exact htidy.step act
    obtain ⟨lost', hinv, hlost⟩ := ih (h.step htidy act) htidy'
    rw [List.append_assoc] at hinv
    refine ⟨a.sys.loses act ++ lost', hinv, ?_⟩
    rw [sys_step] at hlost
    rw [List.append_eq_nil_iff, Engine.loses_eq_nil_iff, hlost]
    rfl

/-- Once the client has returned, nothing but the responses of the result has an owner. -/
theorem owned_returned (htidy : a.sys.Tidy) (hreturned : a.sys.client.pc = .returned)
    : a.owned plan = a.sys.client.result.owned plan := by
  have hruntime : a.runtimeOwned = [] := by
    unfold runtimeOwned
    cases hrt : a.sys.runtime with
    | none => rfl
    | some rt =>
      have hrest := htidy.runtime_some hrt
      rw [Option.map_some, Option.getD_some]
      exact hrest.orderly.owned_nil hrest.workers (hrest.ended hreturned) a.cleanup
  unfold owned clientOwned
  rw [hruntime, hreturned]
  rfl

end Audit

/--
A run releases nothing twice, and when it returns its ledger holds nothing but the responses of the
result, just if no step of it loses a header list or a request.
-/
theorem runPlan_settled_iff {plan : RunPlan} {conn : Conn} {acts : List Engine.Action}
    : ((Audit.start conn).exec plan acts).Settled plan ↔
        (((Engine.start conn).exec plan acts).client.pc = .returned →
          Engine.NothingLost plan (Engine.start conn) acts) := by
  have ⟨lost, hinv, hlost⟩ := (Audit.Inv.start plan conn).exec (.start conn) acts
  have htidy := @Engine.Tidy.exec plan _ (.start conn) acts
  have hsys : ((Audit.start conn).exec plan acts).sys = (Engine.start conn).exec plan acts :=
    Audit.sys_exec plan _ acts
  rw [List.nil_append] at hinv
  rw [← hsys] at htidy ⊢
  generalize (Audit.start conn).exec plan acts = a at hinv htidy
  have hperm := hinv.balanced.held_perm
  constructor
  . intro hsettled hreturned
    rw [Audit.owned_returned htidy hreturned] at hperm
    have hnodup := hinv.balanced.owned_nodup hinv.limited
    rw [Audit.owned_returned htidy hreturned, List.nodup_append'] at hnodup
    apply hlost.mp
    rw [List.eq_nil_iff_forall_not_mem]
    intro x hx
    have hheld := hperm.mem_iff.mpr (List.mem_append_right _ hx)
    exact hnodup.2.2 (hsettled.held hreturned x hheld) hx
  . intro hnothing
    constructor
    . exact hinv.balanced.released_nodup hinv.limited
    . intro hreturned x hx
      rw [hlost.mpr (hnothing hreturned), List.append_nil, Audit.owned_returned htidy hreturned] at hperm
      exact hperm.mem_iff.mp hx

example : ((Audit.start (.open .empty)).exec (planOf [postCase []]) (oneCaseRun (.ok [] 200))).ledger.held =
    [⟨0, .result⟩] := by decide +kernel

def headerCase : RequestCase := { postCase [] with headers := some [104] }

def refusedUrl : TransferEnv := { TransferEnv.ok [] 200 with setopt := fun option => option ≠ .url }

def refusedTaskRun : List Engine.Action := clientSteps 4 ++ [.client { node := false }] ++ shutDown

/-- An option that is refused after the headers costs the header list, a queue without memory for a
node costs the request. -/
theorem runPlan_not_settled
    : let a := (Audit.start (.open .empty)).exec (planOf [headerCase]) (oneCaseRun refusedUrl)
      let a' := (Audit.start (.open .empty)).exec (planOf [postCase []]) refusedTaskRun
      (a.sys.client.pc = .returned ∧ a.ledger.held = [⟨0, .headerList⟩, ⟨0, .result⟩] ∧
          ¬ a.Settled (planOf [headerCase])) ∧
        a'.sys.client.pc = .returned ∧ a'.ledger.held = [⟨0, .request⟩] ∧
          ¬ a'.Settled (planOf [postCase []]) := by
  have hlist : ((Audit.start (.open .empty)).exec (planOf [headerCase])
      (oneCaseRun refusedUrl)).ledger.held = [⟨0, .headerList⟩, ⟨0, .result⟩] := by
    decide +kernel
  have hrequest : ((Audit.start (.open .empty)).exec (planOf [postCase []])
      refusedTaskRun).ledger.held = [⟨0, .request⟩] := by
    decide +kernel
  refine ⟨⟨by decide +kernel, hlist, ?_⟩, by decide +kernel, hrequest, ?_⟩
  . intro hsettled
    have hresult := hsettled.held (by decide +kernel) ⟨0, .headerList⟩ (by rw [hlist]; simp)
    cases (RunResult.mem_owned.mp hresult).1
  . intro hsettled
    have hresult := hsettled.held (by decide +kernel) ⟨0, .request⟩ (by rw [hrequest]; simp)
    cases (RunResult.mem_owned.mp hresult).1

end HttpRuntime
