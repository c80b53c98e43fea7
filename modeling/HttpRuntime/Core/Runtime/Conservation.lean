import HttpRuntime.Core.DbManager.SaveRequest
import HttpRuntime.Core.Runtime.Shutdown

/-!
This module contains a runtime together with its owner, who dispatches tasks and then destroys the
runtime, and the conservation of the tasks: each accepted task ends as exactly one stored response.
-/

open Lib Lib.Sql

namespace HttpRuntime

/-- The requests in `accepted` are those of the accepted tasks, in the order of their tickets. -/
structure Pipeline where
  conn : Conn
  rt : Runtime
  accepted : List Request
  -- where the owner is, once it called `destroy_runtime`
  phase : Option DestroyPhase

namespace Pipeline

inductive Action where
  | dispatch (req : Request) (alloc : Bool)
  | dispatchDb (task : DbTask) (alloc : Bool)
  | destroy
  | runtime (act : Runtime.Action)

def start (rt : Runtime) (conn : Conn) : Pipeline where
  conn := conn
  rt := rt
  accepted := []
  phase := none

def step (p : Pipeline) (act : Action) : Pipeline :=
  match act with
  | .dispatch req alloc =>
    if p.phase = none then
      let res := p.rt.dispatchTask (.worker ⟨p.accepted.length, ⟨some req⟩⟩) alloc
      let accepted := if res.2 = orchestratorSuccess then p.accepted ++ [req] else p.accepted
      { p with rt := res.1, accepted := accepted }
    else
      p
  | .dispatchDb task alloc =>
    if p.phase = none then
      { p with rt := (p.rt.dispatchTask (.db ⟨0, task⟩) alloc).1 }
    else
      p
  | .destroy =>
    let res :=
      match p.phase with
      | none => p.rt.destroyStart
      | some phase => p.rt.destroyStep phase
    { p with rt := res.1, phase := some res.2 }
  | .runtime act =>
    let res := p.rt.step p.conn act
    { p with rt := res.1, conn := res.2 }

def exec (p : Pipeline) (acts : List Action) : Pipeline :=
  acts.foldl step p

-- A DB task that leaves the DB worker running and the responses alone.
def plainDbTask (task : DbTask) : Bool :=
  match task with
  | .shutdown => false
  | .saveResponse _ => false
  | _ => true

/-- Nothing fails in this step, and the owner dispatches neither a shutdown nor responses. -/
def Healthy (p : Pipeline) (act : Action) : Prop :=
  match act with
  | .dispatch _ _ => True
  | .dispatchDb task _ => plainDbTask task = true
  | .destroy => True
  | .runtime act => p.rt.Healthy p.conn act

instance (p : Pipeline) (act : Action) : Decidable (p.Healthy act) :=
  match act with
  | .dispatch _ _ => instDecidableTrue
  | .dispatchDb task _ => inferInstanceAs (Decidable (plainDbTask task = true))
  | .destroy => instDecidableTrue
  | .runtime act => inferInstanceAs (Decidable (p.rt.Healthy p.conn act))

def HealthyRun (p : Pipeline) (acts : List Action) : Prop :=
  match acts with
  | [] => True
  | act :: acts => p.Healthy act ∧ (p.step act).HealthyRun acts

instance decidableHealthyRun (p : Pipeline) (acts : List Action) : Decidable (p.HealthyRun acts) :=
  match acts with
  | [] => instDecidableTrue
  | act :: acts =>
    have := decidableHealthyRun (p.step act) acts
    inferInstanceAs (Decidable (p.Healthy act ∧ (p.step act).HealthyRun acts))

-- What the accepted tasks carry.
def tasks (p : Pipeline) : List Carried :=
  p.accepted.zipIdx.map (fun r => (r.2, r.1.id))

theorem tickets_tasks (p : Pipeline) : p.tasks.map Prod.fst = List.range p.accepted.length := by
  unfold tasks
  rw [List.map_map, List.range_eq_range', ← List.zipIdx_map_snd]
  rfl

theorem accepted_of_mem_tasks {p : Pipeline} {ticket : Nat} {id : Int} (h : (ticket, id) ∈ p.tasks)
    : (p.accepted[ticket]?).map Request.id = some id := by
  unfold tasks at h
  rcases List.mem_map.mp h with ⟨⟨req, i⟩, hmem, heq⟩
  rw [List.mem_zipIdx_iff_getElem?] at hmem
  simp only [Prod.mk.injEq] at heq
  rw [← heq.1, hmem, ← heq.2]
  rfl

structure Inv (conn : Conn) (p : Pipeline) : Prop where
  orderly : p.rt.Orderly
  dbTasks : p.rt.DbTasks (· ≠ .shutdown)
  conserved : p.rt.carried.Perm p.tasks
  stored : Runtime.StoredSince conn.db.responses.rows p.rt.saved p.conn
  joined : ∀ i, p.phase = some (.joinWorkers i) → ∀ j < i, p.rt.workers[j]? = some .exited
  returned : p.phase = some .returned → p.rt.dbWorker = .exited

variable {conn : Conn} {rt : Runtime} {p : Pipeline}

theorem Inv.start {n : Int} (h : createRuntime n = some rt) : Inv conn (start rt conn) where
  orderly := Runtime.orderly_createRuntime h
  dbTasks := Runtime.dbTasks_createRuntime h
  conserved := by
    have := (Runtime.carried_createRuntime h).1
    simp [Pipeline.start, tasks, this]
  stored := by
    have := (Runtime.carried_createRuntime h).2
    exact ⟨[], by simp [Pipeline.start], by simp [Pipeline.start, this]⟩
  joined := by simp [Pipeline.start]
  returned := by simp [Pipeline.start]

theorem Inv.dispatch (h : Inv conn p) (req : Request) (alloc : Bool)
    : Inv conn (p.step (.dispatch req alloc)) := by
  unfold Pipeline.step Runtime.dispatchTask
  dsimp only
  split
  . next hphase =>
    rcases pushQueue_cases p.rt.requestQueue ⟨p.accepted.length, ⟨some req⟩⟩ alloc with
      ⟨hpush, _⟩ | ⟨hpush, _⟩
    . rw [hpush]
      dsimp only
      rw [if_pos rfl, if_pos rfl]
      constructor
      . have hpushed := h.orderly.pushRequest ⟨p.accepted.length, ⟨some req⟩⟩ alloc
        rw [hpush] at hpushed
        exact hpushed
      . exact ⟨h.dbTasks.dbQueue, h.dbTasks.dispatcher, h.dbTasks.dbWorker⟩
      . rw [List.perm_iff_count]
        intro c
        have hcount := List.perm_iff_count.mp h.conserved c
        rw [Runtime.count_carried] at hcount ⊢
        unfold tasks at hcount ⊢
        dsimp only
        rw [count_filterMap_append, List.zipIdx_append, List.map_append, List.count_append, ← hcount]
        simp only [List.filterMap_cons, carriedByTask, Option.map_some, List.filterMap_nil, Nat.zero_add,
          List.zipIdx_cons, List.zipIdx_nil, List.map_cons, List.map_nil]
        omega
      . exact h.stored.congr rfl rfl
      . simp [hphase]
      . simp [hphase]
    . rw [hpush]
      exact {
        orderly := h.orderly
        dbTasks := h.dbTasks
        conserved := h.conserved
        stored := h.stored
        joined := h.joined
        returned := h.returned
      }
  . exact h

theorem Inv.dispatchDb (h : Inv conn p) {task : DbTask} {alloc : Bool}
    (hhealthy : p.Healthy (.dispatchDb task alloc)) : Inv conn (p.step (.dispatchDb task alloc)) := by
  have hshutdown : task ≠ .shutdown := by
    intro heq
    rw [heq] at hhealthy
    cases hhealthy
  have hnone : carriedByDbTask ⟨0, task⟩ = none := by
    cases task with
    | saveResponse resp => cases hhealthy
    | saveCollection => rfl
    | saveRequest => rfl
    | updateStatus => rfl
    | getNextRequest => rfl
    | shutdown => rfl
  unfold Pipeline.step Runtime.dispatchTask
  dsimp only
  split
  . exact {
      orderly := h.orderly.pushDbTask _ alloc
      dbTasks := h.dbTasks.pushDbTask hshutdown alloc
      conserved := by
        rw [List.perm_iff_count]
        intro c
        have hcount := List.perm_iff_count.mp h.conserved c
        rw [Runtime.count_carried] at hcount ⊢
        dsimp only
        rcases pushQueue_cases p.rt.dbQueue ⟨0, task⟩ alloc with ⟨hpush, _⟩ | ⟨hpush, _⟩
        . rw [hpush]
          dsimp only
          rw [count_filterMap_append, count_filterMap_cons, hnone]
          exact hcount
        . rw [hpush]
          exact hcount
      stored := h.stored.congr rfl rfl
      joined := h.joined
      returned := h.returned
    }
  . exact h

theorem Inv.joinedAt (h : Inv conn p) {phase : DestroyPhase} (hphase : p.phase = some phase)
    : p.rt.Joined phase := by
  cases phase with
  | joinWorkers i => exact h.joined i hphase
  | joinDispatcher => trivial
  | joinDbWorker => trivial
  | returned => exact h.returned hphase

theorem Inv.destroy (h : Inv conn p) : Inv conn (p.step .destroy) := by
  unfold Pipeline.step
  dsimp only
  cases hphase : p.phase with
  | none =>
    exact {
      orderly := h.orderly.destroyStart
      dbTasks := h.dbTasks.destroyStart
      conserved := h.conserved
      stored := h.stored.congr rfl rfl
      joined := by
        intro i hi
        cases hi
        simp
      returned := by simp [Runtime.destroyStart]
    }
  | some phase =>
    have hjoined := h.joinedAt hphase
    have hnext := hjoined.destroyStep
    have ⟨hcarried, hsaved⟩ := Runtime.carried_destroyStep p.rt phase
    exact {
      orderly := h.orderly.destroyStep hjoined
      dbTasks := h.dbTasks.destroyStep phase
      conserved := by
        dsimp only
        rw [hcarried]
        exact h.conserved
      stored := h.stored.congr hsaved rfl
      joined := by
        intro i hi
        dsimp only at hi
        rw [Option.some.injEq] at hi
        rw [hi] at hnext
        exact hnext
      returned := by
        intro hreturned
        dsimp only at hreturned
        rw [Option.some.injEq] at hreturned
        rw [hreturned] at hnext
        exact hnext
    }

theorem accepting (h : p.rt.Orderly) (act : Runtime.Action) : p.rt.Accepting act := by
  cases act with
  | worker i env alloc =>
    rintro ⟨resp, hresp⟩
    rw [Bool.eq_false_iff]
    intro hclosed
    have := h.responseClosed hclosed _ (List.mem_of_getElem? hresp)
    cases this
  | dispatcher alloc =>
    rintro ⟨task, htask⟩
    rw [Bool.eq_false_iff]
    intro hclosed
    rw [h.dbClosed hclosed] at htask
    cases htask
  | dbWorker es => trivial

theorem Inv.runtime (h : Inv conn p) {act : Runtime.Action} (hhealthy : p.Healthy (.runtime act))
    : Inv conn (p.step (.runtime act)) where
  orderly := h.orderly.step h.dbTasks act
  dbTasks := h.dbTasks.step (by simp) act
  conserved := by
    rw [List.perm_iff_count]
    intro c
    have hstep := (Runtime.count_carried_step (p := c) act).2 hhealthy (accepting h.orderly act)
    exact hstep.trans (List.perm_iff_count.mp h.conserved c)
  stored := h.stored.step act
  joined := by
    intro i hi j hj
    exact Runtime.exited_step (h.joined i hi j hj) act
  returned := by
    intro hreturned
    exact Runtime.dbWorker_exited_step (h.returned hreturned) act

theorem Inv.step (h : Inv conn p) {act : Action} (hhealthy : p.Healthy act)
    : Inv conn (p.step act) := by
  cases act with
  | dispatch req alloc => exact h.dispatch req alloc
  | dispatchDb task alloc => exact h.dispatchDb hhealthy
  | destroy => exact h.destroy
  | runtime act => exact h.runtime hhealthy

theorem Inv.exec {acts : List Action} (h : Inv conn p) (hhealthy : p.HealthyRun acts)
    : Inv conn (p.exec acts) := by
  induction acts generalizing p with
  | nil => exact h
  | cons act acts ih => exact ih (h.step hhealthy.1) hhealthy.2

theorem length_workers_exec (p : Pipeline) (acts : List Action)
    : (p.exec acts).rt.workers.length = p.rt.workers.length := by
  induction acts generalizing p with
  | nil => rfl
  | cons act acts ih =>
    have hstep : (p.step act).rt.workers.length = p.rt.workers.length := by
      cases act with
      | dispatch req alloc =>
        unfold Pipeline.step
        dsimp only
        split <;> rfl
      | dispatchDb task alloc =>
        unfold Pipeline.step
        dsimp only
        split <;> rfl
      | destroy =>
        unfold Pipeline.step
        dsimp only
        cases p.phase with
        | none => rfl
        | some phase =>
          dsimp only
          unfold Runtime.destroyStep
          split
          . split
            . split <;> rfl
            . rfl
          . split <;> rfl
          . split <;> rfl
          . rfl
      | runtime act => exact Runtime.length_workers_step act
    exact (ih (p.step act)).trans hstep

end Pipeline

section Conservation

variable {conn : Conn} {rt : Runtime} {n : Int} {acts : List Pipeline.Action}

/--
When `destroy_runtime` returned, the table has gained exactly one row for each accepted task, with
the request id of the task, and the queues are empty.
-/
theorem destroy_conserves (hn : 1 ≤ n) (hrt : createRuntime n = some rt)
    (hhealthy : (Pipeline.start rt conn).HealthyRun acts)
    (hreturned : ((Pipeline.start rt conn).exec acts).phase = some .returned)
    : let p := (Pipeline.start rt conn).exec acts
      (p.rt.saved.map SavedResponse.ticket).Perm (List.range p.accepted.length) ∧
      (∃ added,
        p.conn.db.responses.rows = conn.db.responses.rows ++ added ∧
        List.Forall₂
          (fun entry row => (p.accepted[entry.ticket]?).map (fun req => Value.integer req.id) =
            some row.2.requestId)
          p.rt.saved added) ∧
      p.rt.requestQueue.items = [] ∧ p.rt.responseQueue.items = [] ∧ p.rt.dbQueue.items = [] := by
  have hstart : Pipeline.Inv conn (Pipeline.start rt conn) := Pipeline.Inv.start hrt
  have hinv := hstart.exec hhealthy
  have hlength := Pipeline.length_workers_exec (Pipeline.start rt conn) acts
  generalize (Pipeline.start rt conn).exec acts = p at hinv hlength hreturned ⊢
  have hworkers : p.rt.workers ≠ [] := by
    intro hnil
    unfold createRuntime at hrt
    rw [if_neg (by omega)] at hrt
    cases hrt
    rw [hnil] at hlength
    simp only [Pipeline.start, List.length_replicate, List.length_nil] at hlength
    omega
  have ⟨hrequest, hresponse, hdb, hcarried⟩ := hinv.orderly.rest hworkers (hinv.returned hreturned)
  have hperm := hinv.conserved
  rw [hcarried] at hperm
  refine ⟨?_, ?_, hrequest, hresponse, hdb⟩
  . rw [← Pipeline.tickets_tasks]
    have hfst := hperm.map Prod.fst
    rw [List.map_map] at hfst
    exact hfst
  . rcases hinv.stored with ⟨added, hrows, hrecords⟩
    refine ⟨added, hrows, ?_⟩
    have hmem : ∀ entry ∈ p.rt.saved, (entry.ticket, entry.requestId) ∈ p.tasks := by
      intro entry hentry
      apply hperm.subset
      exact List.mem_map_of_mem hentry
    apply ((List.forall₂_and_left _ _).mpr ⟨hmem, hrecords⟩).imp
    intro entry row h
    have haccepted := Pipeline.accepted_of_mem_tasks h.1
    rw [Option.map_eq_some_iff] at haccepted
    rcases haccepted with ⟨req, hreq, hid⟩
    rw [hreq, Option.map_some, hid, h.2.2]

def savedPost : Conn := ((dbSaveRequest (some postRequest)).run answer [] oneCollection).2

def twoWorkers : Runtime where
  requestQueue := .empty
  responseQueue := .empty
  dbQueue := .empty
  workers := [.waiting, .waiting]
  dispatcher := .waiting
  dbWorker := .waiting
  saved := []

-- The second worker overtakes the first one, and one transfer fails.
def overtakingRun : List Pipeline.Action :=
  let req := { postRequest with id := 1 }
  let ok := TransferEnv.ok [.body [104] true] 200
  let failed := { ok with perform := false }
  [.dispatch req true, .dispatchDb .getNextRequest true, .dispatch req true,
    .runtime (.worker 0 ok true), .runtime (.worker 1 ok true), .runtime (.worker 1 failed true),
    .runtime (.worker 1 ok true), .runtime (.dispatcher true), .runtime (.dbWorker []),
    .destroy, .runtime (.dbWorker []), .runtime (.worker 1 ok true), .runtime (.dispatcher true),
    .runtime (.worker 0 ok true), .runtime (.worker 0 ok true), .runtime (.worker 0 ok true),
    .destroy, .destroy, .destroy, .runtime (.dispatcher true), .runtime (.dispatcher true),
    .runtime (.dispatcher true), .destroy, .runtime (.dbWorker []), .runtime (.dbWorker []),
    .runtime (.dbWorker []), .runtime (.dbWorker []), .runtime (.dbWorker []), .destroy]

theorem destroy_conserves_overtaking
    : let p := (Pipeline.start twoWorkers savedPost).exec overtakingRun
      p.rt.saved.map SavedResponse.ticket = [1, 0] ∧
      (p.rt.saved.map SavedResponse.ticket).Perm (List.range p.accepted.length) ∧
      ∃ added, p.conn.db.responses.rows = savedPost.db.responses.rows ++ added := by
  have hrt : createRuntime 2 = some twoWorkers := rfl
  have hhealthy : (Pipeline.start twoWorkers savedPost).HealthyRun overtakingRun := by
    decide +kernel
  have hreturned : ((Pipeline.start twoWorkers savedPost).exec overtakingRun).phase = some .returned := by
    decide +kernel
  have hconserves := destroy_conserves (by decide) hrt hhealthy hreturned
  refine ⟨by decide +kernel, hconserves.1, ?_⟩
  rcases hconserves.2.1 with ⟨added, hrows, _⟩
  exact ⟨added, hrows⟩

end Conservation
end HttpRuntime
