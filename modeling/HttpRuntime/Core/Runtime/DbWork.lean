import HttpRuntime.Core.Runtime.Carried
import HttpRuntime.Core.Runtime.Deadlock

/-!
This module contains what becomes of the work that the DB queue accepts. A closed queue is drained, but
the DB worker returns at a shutdown task and leaves the tasks behind it, which the queue still accepts.
-/

open Lib

namespace HttpRuntime

/-- A task that the DB worker carries out, and what SQLite answers to its calls. -/
structure Execution where
  task : Ticketed DbTask
  calls : List CallEnv

-- A shutdown has no operation, and one that crashes is not carried out.
def Runtime.operation (rt : Runtime) (conn : Conn) (es : List CallEnv) : Option Execution :=
  match rt.dbWorker with
  | .executing task =>
    if task.item = .shutdown ∨ rt.crashes conn es = true then none else some ⟨task, es⟩
  | _ => none

/-- The functions of the tasks one after the other, which all return. -/
def perform (conn : Conn) (executions : List Execution) : Option Conn :=
  match executions with
  | [] => some conn
  | e :: executions =>
    match (Runtime.dbTaskProg e.task.item).run answer e.calls conn with
    | (.returned _, conn') => perform conn' executions
    | (.crashed, _) => none

namespace Lifecycle

/-- The task that an action puts in the DB queue, of a client or of the dispatcher. -/
def acceptedBy (s : Lifecycle) (act : Action) : Option (Ticketed DbTask) :=
  match act with
  | .dispatch (.db task) alloc _ => if (pushQueue s.rt.dbQueue task alloc).2 then some task else none
  | .thread .dispatcher env =>
    match s.rt.dispatcher with
    | .pushing task => if (pushQueue s.rt.dbQueue task env.alloc).2 then some task else none
    | _ => none
  | _ => none

def executionBy (s : Lifecycle) (act : Action) : Option Execution :=
  match act with
  | .thread .dbWorker env => s.rt.operation s.conn env.calls
  | _ => none

section Nothing

variable (s : Lifecycle)

@[simp]
theorem acceptedBy_owner (ok : Bool) : s.acceptedBy (.owner ok) = none := rfl

@[simp]
theorem acceptedBy_worker (i : Nat) (env : ThreadEnv) : s.acceptedBy (.thread (.worker i) env) = none := rfl

@[simp]
theorem acceptedBy_dbWorker (env : ThreadEnv) : s.acceptedBy (.thread .dbWorker env) = none := rfl

@[simp]
theorem acceptedBy_dispatch_worker (task : Ticketed WorkerTask) (alloc : Bool) (wake : Thread)
    : s.acceptedBy (.dispatch (.worker task) alloc wake) = none := rfl

@[simp]
theorem acceptedBy_spurious (t : Thread) : s.acceptedBy (.spurious t) = none := rfl

@[simp]
theorem executionBy_owner (ok : Bool) : s.executionBy (.owner ok) = none := rfl

@[simp]
theorem executionBy_worker (i : Nat) (env : ThreadEnv) : s.executionBy (.thread (.worker i) env) = none := rfl

@[simp]
theorem executionBy_dispatcher (env : ThreadEnv) : s.executionBy (.thread .dispatcher env) = none := rfl

@[simp]
theorem executionBy_dispatch (message : Message) (alloc : Bool) (wake : Thread)
    : s.executionBy (.dispatch message alloc wake) = none := rfl

@[simp]
theorem executionBy_spurious (t : Thread) : s.executionBy (.spurious t) = none := rfl

end Nothing

-- Actions that cannot be taken are left out, as in `exec`.
def acceptedTasks (s : Lifecycle) (n : Int) (acts : List Action) : List (Ticketed DbTask) :=
  match acts with
  | [] => []
  | act :: acts =>
    match s.step n act with
    | none => s.acceptedTasks n acts
    | some s' => (s.acceptedBy act).toList ++ s'.acceptedTasks n acts

def executions (s : Lifecycle) (n : Int) (acts : List Action) : List Execution :=
  match acts with
  | [] => []
  | act :: acts =>
    match s.step n act with
    | none => s.executions n acts
    | some s' => (s.executionBy act).toList ++ s'.executions n acts

variable {s s' : Lifecycle} {accepted executed : List (Ticketed DbTask)}
variable {conn₀ : Conn} {done : List Execution}

/-- What a step of the owner does to the DB worker and its queue, which is to close the queue. -/
structure KeepsDb (s s' : Lifecycle) : Prop where
  dbWorker : s'.rt.dbWorker = s.rt.dbWorker
  conn : s'.conn = s.conn
  items : s'.rt.dbQueue.items = s.rt.dbQueue.items
  closed : s.rt.dbQueue.closed = true → s'.rt.dbQueue.closed = true
  joined : .dbWorker ∈ s'.joined → .dbWorker ∈ s.joined ∨ s.rt.dbWorker = .exited
  started : s.dbWorkerStarted = true → s'.dbWorkerStarted = true
  running : s'.isRunning = true ∨ s'.dispatcherStarted = true →
    s.isRunning = true ∨ s.dispatcherStarted = true ∨ s.dbWorkerStarted = true

theorem Inv.keepsDb (h : s.Inv) {n : Int} {ok : Bool} (hstep : s.ownerStep n ok = some s')
    : KeepsDb s s' := by
  have hcreated := h.created
  unfold Created at hcreated
  unfold Lifecycle.ownerStep at hstep
  -- The dispatcher and the workers are created behind the DB worker, which `hcreated` says.
  split at hstep
  all_goals
    rename_i howner
    simp only [howner] at hcreated
    constructor
    all_goals grind [Lifecycle.goto, Lifecycle.queueShutdown, Runtime.close, Fifo.close, Runtime.exited]


/-- Where the accepted tasks are: executed, in the hands of the DB worker, or in the queue. -/
def Located (rt : Runtime) (accepted executed : List (Ticketed DbTask)) : Prop :=
  match rt.dbWorker with
  | .waiting => accepted = executed ++ rt.dbQueue.items
  | .executing task => accepted = executed ++ task :: rt.dbQueue.items
  | .exited =>
    (rt.dbQueue.closed = true ∧ rt.dbQueue.items = [] ∧ accepted = executed) ∨
      ∃ task, task.item = .shutdown ∧ accepted = executed ++ task :: rt.dbQueue.items

structure DbFlow (conn₀ : Conn) (s : Lifecycle) (accepted : List (Ticketed DbTask))
    (done : List Execution) : Prop where
  located : Located s.rt accepted (done.map Execution.task)
  executed : ∀ e ∈ done, e.task.item ≠ .shutdown
  performed : perform conn₀ done = some s.conn
  joined : .dbWorker ∈ s.joined → s.rt.dbWorker = .exited
  started : s.isRunning = true ∨ s.dispatcherStarted = true → s.dbWorkerStarted = true
  accepted : accepted ≠ [] → s.dbWorkerStarted = true

theorem dbFlow_start (conn : Conn) : DbFlow conn (start conn) [] [] where
  located := rfl
  executed := by simp
  performed := rfl
  joined := by simp [start]
  started := by simp [start]
  accepted := by simp

section Located

variable {rt : Runtime}

theorem Located.keeps {rt' : Runtime} (h : Located rt accepted executed)
    (hdbWorker : rt'.dbWorker = rt.dbWorker) (hitems : rt'.dbQueue.items = rt.dbQueue.items)
    (hclosed : rt.dbQueue.closed = true → rt'.dbQueue.closed = true) : Located rt' accepted executed := by
  unfold Located at h ⊢
  rw [hdbWorker, hitems]
  cases hw : rt.dbWorker with
  | waiting =>
    rw [hw] at h
    exact h
  | executing task =>
    rw [hw] at h
    exact h
  | exited =>
    rw [hw] at h
    exact h.imp_left (fun hclean => ⟨hclosed hclean.1, hclean.2⟩)

-- A task that is accepted goes to the end, wherever the DB worker is.
theorem Located.push (h : Located rt accepted executed) (task : Ticketed DbTask) (alloc : Bool)
    (dispatcher : DispatcherState)
    : Located { rt with dbQueue := (pushQueue rt.dbQueue task alloc).1, dispatcher := dispatcher }
        (accepted ++ (if (pushQueue rt.dbQueue task alloc).2 then some task else none).toList) executed := by
  cases pushQueue_cases rt.dbQueue task alloc with
  | inl hpush =>
    rw [hpush.1]
    unfold Located at h ⊢
    cases hw : rt.dbWorker with
    | waiting =>
      simp only [hw] at h
      simp [h]
    | executing task' =>
      simp only [hw] at h
      simp [h]
    | exited =>
      simp only [hw] at h
      simp only [if_true, Option.toList_some]
      cases h with
      | inl hclean =>
        rw [hclean.1] at hpush
        cases hpush.2.2
      | inr hshutdown =>
        rcases hshutdown with ⟨task', htask', haccepted⟩
        refine .inr ⟨task', htask', ?_⟩
        rw [haccepted, List.append_assoc, List.cons_append]
  | inr hpush =>
    rw [hpush.1]
    simp only [Bool.false_eq_true, if_false, Option.toList_none, List.append_nil]
    exact h.keeps rfl rfl id

theorem Located.dbWorkerStep (h : Located rt accepted executed) (conn : Conn) (calls : List CallEnv)
    : Located (rt.dbWorkerStep conn calls).1 accepted
        (executed ++ (rt.operation conn calls).toList.map Execution.task) := by
  have hlocated := h
  unfold Located at h
  unfold Runtime.dbWorkerStep Runtime.operation
  cases hw : rt.dbWorker with
  | waiting =>
    simp only [hw] at h
    rcases pop_cases rt.dbQueue with ⟨task, tasks, hitems, hpop⟩ | ⟨hitems, hclosed, hpop⟩ | ⟨_, _, hpop⟩
    . rw [hpop]
      unfold Located
      simpa [hitems] using h
    . rw [hpop]
      unfold Located
      rw [hitems, List.append_nil] at h
      simpa using .inl ⟨hclosed, hitems, h⟩
    . rw [hpop]
      unfold Located
      simpa [hw] using h
  | executing task =>
    simp only [hw] at h
    simp only [Runtime.crashes, hw]
    split <;> [skip; split]
    . next hshutdown =>
      unfold Located
      simpa [hshutdown] using .inr ⟨task, hshutdown, h⟩
    . next hshutdown _ _ _ hrun =>
      have hne : task.item ≠ .shutdown := hshutdown
      unfold Located
      simpa [hne, hrun] using h
    . next hrun =>
      simpa [hrun] using hlocated
  | exited =>
    simp only [hw] at h
    unfold Located
    simpa [hw] using h

end Located

theorem perform_append (executions executions' : List Execution)
    : perform conn₀ (executions ++ executions') =
        (perform conn₀ executions).bind (fun conn => perform conn executions') := by
  induction executions generalizing conn₀ with
  | nil => rfl
  | cons e executions ih =>
    rw [List.cons_append, perform, perform]
    split
    . exact ih
    . rfl

theorem payload_of_perform {conn : Conn} (h : perform conn₀ done = some conn)
    : ∀ e ∈ done, e.task.item ≠ .updateStatus none := by
  induction done generalizing conn₀ with
  | nil => simp
  | cons e done ih =>
    rw [perform] at h
    split at h
    . next hrun =>
      rw [List.forall_mem_cons]
      refine ⟨?_, ih h⟩
      intro hitem
      rw [hitem] at hrun
      cases hrun
    . cases h

-- The step of the DB worker does what the task in its hands asks for.
theorem perform_operation (rt : Runtime) (conn : Conn) (calls : List CallEnv)
    : perform conn (rt.operation conn calls).toList = some (rt.dbWorkerStep conn calls).2 := by
  unfold Runtime.operation
  cases hw : rt.dbWorker with
  | waiting =>
    unfold Runtime.dbWorkerStep
    simp only [hw]
    split <;> rfl
  | executing task =>
    dsimp only
    cases hcrashes : rt.crashes conn calls with
    | true =>
      rw [Runtime.dbWorkerStep_crashes hcrashes, if_pos (.inr rfl)]
      rfl
    | false =>
      by_cases hshutdown : task.item = .shutdown
      . unfold Runtime.dbWorkerStep
        simp only [hw, hshutdown, true_or, if_true]
        rfl
      . rcases Runtime.dbWorkerStep_returned hw hshutdown hcrashes with ⟨rc, conn', hrun, hstep⟩
        rw [hstep, if_neg (by simpa using hshutdown), Option.toList_some, perform, hrun]
        rfl
  | exited =>
    unfold Runtime.dbWorkerStep
    rw [hw]
    rfl

theorem DbFlow.frame (h : DbFlow conn₀ s accepted done) {rt : Runtime} {conn : Conn} {asleep : List Thread}
    {task : Option (Ticketed DbTask)} {operation : Option Execution}
    (hlocated : Located rt (accepted ++ task.toList)
      (done.map Execution.task ++ operation.toList.map Execution.task))
    (hoperation : ∀ e ∈ operation, e.task.item ≠ .shutdown)
    (hperformed : perform s.conn operation.toList = some conn)
    (hexited : s.rt.dbWorker = .exited → rt.dbWorker = .exited)
    (hstarted : ∀ t ∈ task, s.dbWorkerStarted = true)
    : DbFlow conn₀ { s with rt := rt, conn := conn, asleep := asleep }
        (accepted ++ task.toList) (done ++ operation.toList) where
  located := by
    rw [List.map_append]
    exact hlocated
  executed := by
    intro e he
    cases List.mem_append.mp he with
    | inl he => exact h.executed e he
    | inr he => exact hoperation e (Option.mem_toList.mp he)
  performed := by
    rw [perform_append, h.performed, Option.bind_some]
    exact hperformed
  joined := fun hjoined => hexited (h.joined hjoined)
  started := h.started
  accepted := by
    intro hne
    cases task with
    | none =>
      rw [Option.toList_none, List.append_nil] at hne
      exact h.accepted hne
    | some t => exact hstarted t rfl

theorem operation_ne_shutdown (rt : Runtime) (conn : Conn) (calls : List CallEnv)
    : ∀ e ∈ rt.operation conn calls, e.task.item ≠ .shutdown := by
  intro e he
  unfold Runtime.operation at he
  split at he
  . split at he
    . cases he
    . next hne =>
      cases he
      exact fun hshutdown => hne (.inl hshutdown)
  . cases he

-- A thread that goes to sleep does nothing else.
theorem nothing_of_waits {t : Thread} (h : s.rt.waits t = true) (env : ThreadEnv)
    : s.acceptedBy (.thread t env) = none ∧ s.executionBy (.thread t env) = none := by
  cases t with
  | worker i => exact ⟨rfl, rfl⟩
  | dispatcher =>
    simp only [Runtime.waits, Bool.and_eq_true, decide_eq_true_eq] at h
    simp only [acceptedBy, executionBy, h.1]
    trivial
  | dbWorker =>
    simp only [Runtime.waits, Bool.and_eq_true, decide_eq_true_eq] at h
    simp only [acceptedBy, executionBy, Runtime.operation, h.1]
    trivial

theorem Located.dispatcherStep {rt : Runtime} (h : Located rt accepted executed) (alloc : Bool)
    {task : Option (Ticketed DbTask)}
    (htask : task =
      match rt.dispatcher with
      | .pushing task => if (pushQueue rt.dbQueue task alloc).2 then some task else none
      | _ => none)
    : Located (rt.dispatcherStep alloc) (accepted ++ task.toList) executed := by
  unfold Runtime.dispatcherStep
  cases hd : rt.dispatcher with
  | waiting =>
    simp only [hd] at htask
    rw [htask, Option.toList_none, List.append_nil]
    dsimp only
    split
    . exact h.keeps rfl rfl id
    . exact h.keeps rfl rfl id
    . exact h
  | pushing task' =>
    simp only [hd] at htask
    rw [htask]
    exact h.push task' alloc .waiting
  | exited =>
    simp only [hd] at htask
    rw [htask, Option.toList_none, List.append_nil]
    exact h

theorem DbFlow.threadStep (h : DbFlow conn₀ s accepted done) {t : Thread} {env : ThreadEnv}
    (hstep : s.threadStep t env = some s')
    : DbFlow conn₀ s' (accepted ++ (s.acceptedBy (.thread t env)).toList)
        (done ++ (s.executionBy (.thread t env)).toList) := by
  unfold Lifecycle.threadStep at hstep
  split at hstep
  . cases hstep
  . next halive =>
    simp only [Bool.or_eq_true, Bool.not_eq_true', decide_eq_true_eq, not_or, Bool.not_eq_false] at halive
    split at hstep
    . next hwaits =>
      cases hstep
      rw [(nothing_of_waits hwaits env).1, (nothing_of_waits hwaits env).2]
      apply h.frame
      . simpa using h.located
      . simp
      . rfl
      . exact id
      . simp
    . cases hstep
      cases t with
      | worker i =>
        apply h.frame
        . rw [acceptedBy_worker, executionBy_worker, Option.toList_none, Option.toList_none, List.map_nil,
            List.append_nil, List.append_nil]
          apply h.located.keeps
          all_goals
            unfold ThreadEnv.action Runtime.step
            dsimp only
            rw [Runtime.workerStep_frame]
          exact id
        . simp
        . rfl
        . exact fun hexited => Runtime.dbWorker_exited_step hexited _
        . simp
      | dispatcher =>
        apply h.frame
        . rw [executionBy_dispatcher, Option.toList_none, List.map_nil, List.append_nil]
          exact h.located.dispatcherStep env.alloc rfl
        . simp
        . rfl
        . exact fun hexited => Runtime.dbWorker_exited_step hexited _
        . intro _ _
          have hstarted := halive.1
          unfold alive at hstarted
          rw [Bool.and_eq_true] at hstarted
          exact h.started (.inr hstarted.1)
      | dbWorker =>
        apply h.frame
        . rw [acceptedBy_dbWorker, Option.toList_none, List.append_nil]
          exact h.located.dbWorkerStep _ _
        . exact operation_ne_shutdown s.rt s.conn env.calls
        . exact perform_operation s.rt s.conn env.calls
        . exact fun hexited => Runtime.dbWorker_exited_step hexited _
        . simp

theorem DbFlow.dispatchStep (h : DbFlow conn₀ s accepted done) {message : Message} {alloc : Bool}
    {wake : Thread} (hstep : s.dispatchStep message alloc wake = some s')
    : DbFlow conn₀ s' (accepted ++ (s.acceptedBy (.dispatch message alloc wake)).toList) done := by
  unfold Lifecycle.dispatchStep at hstep
  split at hstep
  . cases hstep
  . next hrunning =>
    simp only [Bool.or_eq_true, Bool.not_eq_true', decide_eq_true_eq, not_or, Bool.not_eq_false] at hrunning
    cases hstep
    rw [← List.append_nil done]
    apply @DbFlow.frame _ _ _ _ h _ _ _ _ none
    . rw [Option.toList_none, List.map_nil, List.append_nil]
      cases message with
      | db task => exact h.located.push task alloc s.rt.dispatcher
      | worker task =>
        rw [acceptedBy_dispatch_worker, Option.toList_none, List.append_nil]
        exact h.located.keeps rfl rfl id
    . simp
    . rfl
    . intro hexited
      cases message with
      | db task => exact hexited
      | worker task => exact hexited
    . exact fun _ _ => h.started (.inl hrunning.1)

theorem DbFlow.step (hinv : s.Inv) (h : DbFlow conn₀ s accepted done) {n : Int} {act : Action}
    (hstep : s.step n act = some s')
    : DbFlow conn₀ s' (accepted ++ (s.acceptedBy act).toList) (done ++ (s.executionBy act).toList) := by
  cases act with
  | owner ok =>
    have hkeeps := hinv.keepsDb hstep
    rw [acceptedBy_owner, executionBy_owner, Option.toList_none, Option.toList_none, List.append_nil,
      List.append_nil]
    exact {
      located := h.located.keeps hkeeps.dbWorker hkeeps.items hkeeps.closed
      executed := h.executed
      performed := by
        rw [hkeeps.conn]
        exact h.performed
      joined := by
        intro hjoined
        rw [hkeeps.dbWorker]
        exact (hkeeps.joined hjoined).elim h.joined id
      started := by
        intro hrunning
        apply hkeeps.started
        cases hkeeps.running hrunning with
        | inl hrunning => exact h.started (.inl hrunning)
        | inr hstarted => exact hstarted.elim (fun hstarted => h.started (.inr hstarted)) id
      accepted := fun hne => hkeeps.started (h.accepted hne)
    }
  | thread t env => exact h.threadStep hstep
  | dispatch message alloc wake =>
    rw [executionBy_dispatch, Option.toList_none, List.append_nil]
    exact h.dispatchStep hstep
  | spurious t =>
    cases hstep
    rw [acceptedBy_spurious, executionBy_spurious, Option.toList_none, Option.toList_none, List.append_nil,
      List.append_nil]
    exact ⟨h.located, h.executed, h.performed, h.joined, h.started, h.accepted⟩

/-- In every run, the accepted tasks are those that were executed and those that are on their way. -/
theorem DbFlow.exec (hinv : s.Inv) (h : DbFlow conn₀ s accepted done) (n : Int) (acts : List Action)
    : DbFlow conn₀ (s.exec n acts) (accepted ++ s.acceptedTasks n acts) (done ++ s.executions n acts) := by
  induction acts generalizing s accepted done with
  | nil =>
    rw [acceptedTasks, executions, List.append_nil, List.append_nil]
    exact h
  | cons act acts ih =>
    have hexec : s.exec n (act :: acts) = ((s.step n act).getD s).exec n acts := rfl
    rw [hexec, acceptedTasks, executions]
    cases hstep : s.step n act with
    | none => exact ih hinv h
    | some s' =>
      dsimp only
      rw [← List.append_assoc, ← List.append_assoc]
      exact ih (hinv.step hstep) (h.step hinv hstep)

-- No task but a shutdown is accepted once a shutdown was.
def NothingBehindShutdown (tasks : List (Ticketed DbTask)) : Prop :=
  ∀ before task after, tasks = before ++ task :: after → task.item = .shutdown →
    ∀ task' ∈ after, task'.item = .shutdown

def work (tasks : List (Ticketed DbTask)) : List (Ticketed DbTask) :=
  tasks.filter (fun task => task.item ≠ .shutdown)

theorem work_eq_self (h : ∀ task ∈ executed, task.item ≠ .shutdown) : work executed = executed := by
  apply List.filter_eq_self.mpr
  simpa using h

theorem Located.executed_begins {rt : Runtime} (h : Located rt accepted executed)
    : executed <+: accepted := by
  unfold Located at h
  split at h
  . exact ⟨_, h.symm⟩
  . exact ⟨_, h.symm⟩
  . cases h with
    | inl hclean => exact hclean.2.2 ▸ List.prefix_rfl
    | inr hshutdown =>
      rcases hshutdown with ⟨task, _, haccepted⟩
      exact ⟨_, haccepted.symm⟩

theorem nothingBehindShutdown_of_work (h : ∀ task ∈ executed, task.item ≠ .shutdown)
    : NothingBehindShutdown executed := by
  intro before task after heq htask
  refine absurd htask (h task ?_)
  rw [heq]
  simp

theorem nothingBehindShutdown_iff (h : ∀ task ∈ executed, task.item ≠ .shutdown)
    {task : Ticketed DbTask} (htask : task.item = .shutdown) (tasks : List (Ticketed DbTask))
    : NothingBehindShutdown (executed ++ task :: tasks) ↔ ∀ task' ∈ tasks, task'.item = .shutdown := by
  constructor
  . intro hnothing
    exact hnothing executed task tasks rfl htask
  . intro htasks before first after heq hfirst
    -- The first shutdown is `task`, so what is behind another one is behind `task` as well.
    cases List.append_eq_append_iff.mp heq with
    | inl hlater =>
      rcases hlater with ⟨between, hbefore, hrest⟩
      cases between with
      | nil =>
        rw [List.nil_append, List.cons.injEq] at hrest
        rw [← hrest.2]
        exact htasks
      | cons c between =>
        rw [List.cons_append, List.cons.injEq] at hrest
        intro task' hmem
        apply htasks
        rw [hrest.2]
        simp [hmem]
    | inr hearlier =>
      rcases hearlier with ⟨between, hexecuted, hrest⟩
      cases between with
      | nil =>
        rw [List.nil_append, List.cons.injEq] at hrest
        rw [hrest.2]
        exact htasks
      | cons c between =>
        rw [List.cons_append, List.cons.injEq] at hrest
        refine absurd hfirst (h first ?_)
        rw [hexecuted, hrest.1]
        simp

theorem executed_eq_work_iff (h : ∀ task ∈ executed, task.item ≠ .shutdown) {task : Ticketed DbTask}
    (htask : task.item = .shutdown) (tasks : List (Ticketed DbTask))
    : executed = work (executed ++ task :: tasks) ↔ ∀ task' ∈ tasks, task'.item = .shutdown := by
  have hwork : work (executed ++ task :: tasks) = executed ++ work tasks := by
    unfold work
    rw [List.filter_append, List.filter_cons_of_neg (by simpa using htask)]
    rw [List.append_left_inj]
    exact work_eq_self h
  rw [hwork, List.self_eq_append_right]
  unfold work
  simp [List.filter_eq_nil_iff]

/-- The work among the accepted tasks is carried out, each task once and in the order of acceptance. -/
structure WorkDone (s : Lifecycle) (n : Int) (acts : List Action) : Prop where
  tasks : (s.executions n acts).map Execution.task = work (s.acceptedTasks n acts)
  performed : perform s.conn (s.executions n acts) = some (s.exec n acts).conn

structure Executable (tasks : List (Ticketed DbTask)) : Prop where
  behind : NothingBehindShutdown tasks
  payload : ∀ task ∈ tasks, task.item ≠ .updateStatus none

theorem DbFlow.tasks_iff (h : DbFlow conn₀ s accepted done) (hexited : s.rt.dbWorker = .exited)
    : done.map Execution.task = work accepted ↔ NothingBehindShutdown accepted := by
  have hexecuted : ∀ task ∈ done.map Execution.task, task.item ≠ .shutdown := by
    simpa using h.executed
  have hlocated := h.located
  unfold Located at hlocated
  simp only [hexited] at hlocated
  cases hlocated with
  | inl hclean =>
    rw [hclean.2.2]
    exact iff_of_true (work_eq_self hexecuted).symm (nothingBehindShutdown_of_work hexecuted)
  | inr hshutdown =>
    rcases hshutdown with ⟨task, htask, haccepted⟩
    rw [haccepted, executed_eq_work_iff hexecuted htask, nothingBehindShutdown_iff hexecuted htask]

def created : List Action := List.replicate 9 (.owner true)

def runThread (t : Thread) : Action := .thread t ⟨.ok [] 200, true, [], t⟩

def dispatchDb (ticket : Nat) (task : DbTask) : Action := .dispatch (.db ⟨ticket, task⟩) true .dbWorker

-- `destroy_runtime` with one worker, where all threads end when their queue is closed.
def destroyed : List Action :=
  [.owner true, .owner true, runThread (.worker 0), .owner true, .owner true, .owner true,
    runThread .dispatcher, .owner true, .owner true, runThread .dbWorker, .owner true, .owner true]

def saveTask : DbTask := .saveCollection (some { id := 0, name := some [99], nameLen := 1 })

def updateTask : DbTask := .updateStatus (some { requestId := 1, newStatusCode := 200 })

-- Both tasks are accepted before the DB worker takes the first.
def updateRun : List Action :=
  created ++ [dispatchDb 0 saveTask, dispatchDb 1 updateTask] ++ List.replicate 4 (runThread .dbWorker) ++
    destroyed

def shutdownRun : List Action :=
  created ++ [dispatchDb 0 .shutdown, dispatchDb 1 updateTask, runThread .dbWorker, runThread .dbWorker] ++
    destroyed

-- An update without a payload, in the hands of the DB worker.
def nullRun : List Action := created ++ [dispatchDb 0 (.updateStatus none), runThread .dbWorker]

end Lifecycle

end HttpRuntime
