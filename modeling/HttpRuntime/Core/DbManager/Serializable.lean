import HttpRuntime.Core.DbManager.SaveRequest
import HttpRuntime.Lib.Serial

/-!
This module contains what happens when several threads use the functions of `db_manager.c` on the
one connection at the same time. No lock is held between two SQLite calls, so the calls of the
functions interleave.

A save has taken effect with its INSERT, `db_get_next_pending_request` between its BEGIN and the end
of its transaction.
-/

open Lib Lib.Sql

namespace HttpRuntime

variable {α β : Type}

-- A lookup is only made where it finds a row or compares with NULL.
def ReadCall (c : Call) (s : Conn) : Prop :=
  match c with
  | .prepare _ => True
  | .bind _ => True
  | .step .selectRequestId vs =>
    .null ∈ vs ∨ s.db.requests.lookup RequestRow.key vs ≠ none
  | _ => False

def Reads (p : DbProg α) (s : Conn) : Prop :=
  match p with
  | .ret _ => True
  | .call c k => ReadCall c s ∧ ∀ r, Reads (k r) s

-- What is left of a save after its INSERT.
inductive Settled (p : DbProg α) (s : Conn) : Prop where
  | reads (h : Reads p s)
  | rowid (k : Reply → DbProg α) (h : p = .call .lastInsertRowid k) (hk : ∀ r, ∃ a, k r = .ret a)

/-- What is left of a function that has opened the transaction. -/
def Holding (p : DbProg α) : Prop :=
  match p with
  | .ret _ => False
  | .call (.exec .commit) k => ∀ r, ∃ a, k r = .ret a
  | .call (.exec .rollback) k => ∀ r, ∃ a, k r = .ret a
  | .call (.exec _) _ => False
  | .call _ k => ∀ r, Holding (k r)

def KeepsIds (db db' : Database) : Prop :=
  ∀ k row, db.requests.lookup RequestRow.key k = some row →
    (db'.requests.lookup RequestRow.key k).map Prod.fst = some row.1

def Effect (s s' : Conn) : Prop := KeepsIds s.db s'.db

/-- What is left of a function that has not touched the database yet. -/
def Before (p : DbProg α) : Prop :=
  match p with
  | .ret _ => True
  | .call (.prepare _) k => ∀ r, Before (k r)
  | .call (.bind _) k => ∀ r, Before (k r)
  | .call (.exec .beginImmediate) k => Holding (k .ok) ∧ Before (k .error)
  | .call (.step sql vs) k =>
    Before (k .error) ∧
      ∀ env s,
        Settled (k (stepStatement env s sql vs).1) (stepStatement env s sql vs).2 ∧
          Effect s (stepStatement env s sql vs).2
  | .call _ _ => False

-- Nobody adds a row between an INSERT and its `sqlite3_last_insert_rowid`.
def Compat (p : DbProg α) (s s' : Conn) : Prop :=
  p.next = some .lastInsertRowid → s'.lastRowid = s.lastRowid

theorem KeepsIds.refl (db : Database) : KeepsIds db db := by
  intro k row h
  rw [h]
  rfl

theorem KeepsIds.trans {db db' db'' : Database} (h : KeepsIds db db') (h' : KeepsIds db' db'')
    : KeepsIds db db'' := by
  intro k row hrow
  have hrow' := h k row hrow
  rw [Option.map_eq_some_iff] at hrow'
  rcases hrow' with ⟨row', hlookup, hid⟩
  rw [h' k row' hlookup, hid]

theorem KeepsIds.of_requests_eq {db db' : Database} (h : db'.requests = db.requests)
    : KeepsIds db db' := by
  intro k row hrow
  rw [h, hrow]
  rfl

theorem keepsIds_of_stepped {s s' : Conn} {sql : Sql} (h : Stepped s sql s')
    : KeepsIds s.db s'.db := by
  cases h with
  | same => exact KeepsIds.refl s.db
  | insertCollection => exact KeepsIds.of_requests_eq rfl
  | insertResponse => exact KeepsIds.of_requests_eq rfl
  | insertRequest t rowid ht =>
    intro k row hrow
    dsimp only
    rw [(Table.Grown.of_or ht).lookup hrow]
    rfl
  | update sql hupdate status id =>
    intro k row hrow
    unfold setStatus
    dsimp only
    rw [Table.lookup_update, hrow, Option.map_some, Option.map_some]
    . split <;> rfl
    . intro r
      rfl

theorem keepsIds_stepStatement (env : CallEnv) (s : Conn) (sql : Sql) (vs : List Value)
    : KeepsIds s.db (stepStatement env s sql vs).2.db :=
  keepsIds_of_stepped (stepped_stepStatement env s sql vs)

section Reads

variable {p : DbProg α} {s s' : Conn} {c : Call}

theorem ReadCall.answer_state (h : ReadCall c s) (env : CallEnv) : (answer c env s).2 = s := by
  unfold ReadCall at h
  split at h
  . exact state_answer env s (by simp) (by simp)
  . exact state_answer env s (by simp) (by simp)
  . simp only [answer]
    split <;> rfl
  . cases h

theorem stepSelectRequestId_congr {vs : List Value}
    (h : (s'.db.requests.lookup RequestRow.key vs).map Prod.fst =
      (s.db.requests.lookup RequestRow.key vs).map Prod.fst)
    : stepSelectRequestId s' vs = stepSelectRequestId s vs := by
  unfold stepSelectRequestId
  cases hs : s.db.requests.lookup RequestRow.key vs with
  | none =>
    rw [hs, Option.map_none, Option.map_eq_none_iff] at h
    rw [h]
  | some row =>
    rw [hs, Option.map_some, Option.map_eq_some_iff] at h
    rcases h with ⟨row', hs', hid⟩
    rw [hs']
    dsimp only
    rw [hid]

theorem ReadCall.effect (h : ReadCall c s) (heffect : Effect s s')
    : ReadCall c s' ∧ ∀ env, (answer c env s').1 = (answer c env s).1 := by
  unfold ReadCall at h
  split at h
  . refine ⟨trivial, ?_⟩
    intro env
    rw [answer_congr env s (by simp) (by simp) (by simp)]
  . refine ⟨trivial, ?_⟩
    intro env
    rw [answer_congr env s (by simp) (by simp) (by simp)]
  . next vs =>
    have hsame : (s'.db.requests.lookup RequestRow.key vs).map Prod.fst =
        (s.db.requests.lookup RequestRow.key vs).map Prod.fst := by
      cases h with
      | inl hnull => rw [Table.lookup_of_null_mem hnull, Table.lookup_of_null_mem hnull]
      | inr hfound =>
        rcases Option.ne_none_iff_exists'.mp hfound with ⟨row, hrow⟩
        rw [heffect vs row hrow, hrow, Option.map_some]
    constructor
    . cases h with
      | inl hnull => exact Or.inl hnull
      | inr hfound =>
        right
        intro hnone
        rw [hnone, Option.map_none, eq_comm, Option.map_eq_none_iff] at hsame
        exact hfound hsame
    . intro env
      simp only [answer, stepStatement]
      split
      . rfl
      . rw [stepSelectRequestId_congr hsame]
  . cases h

theorem Reads.effect (h : Reads p s) (heffect : Effect s s')
    : Reads p s' ∧ ∀ es, (p.run answer es s').1 = (p.run answer es s).1 := by
  induction p with
  | ret a => exact ⟨trivial, fun _ => rfl⟩
  | call c k ih =>
    have ⟨hcall, hanswer⟩ := h.1.effect heffect
    refine ⟨⟨hcall, fun r => (ih r (h.2 r)).1⟩, ?_⟩
    intro es
    rw [Prog.run_call, Prog.run_call, hanswer, h.1.answer_state, hcall.answer_state]
    exact (ih _ (h.2 _)).2 _

theorem Settled.ret (a : α) (s : Conn) : Settled (.ret a) s := Settled.reads trivial

theorem Settled.call {k : Reply → DbProg α} (h : Settled (.call c k) s) (env : CallEnv)
    : (answer c env s).2 = s ∧ Settled (k (answer c env s).1) s := by
  cases h with
  | reads h => exact ⟨h.1.answer_state env, Settled.reads (h.2 _)⟩
  | rowid k' heq hk =>
    cases heq
    refine ⟨rfl, ?_⟩
    rcases hk (answer .lastInsertRowid env s).1 with ⟨a, ha⟩
    rw [ha]
    exact Settled.ret a s

theorem Settled.effect (h : Settled p s) (heffect : Effect s s') (hcompat : Compat p s s')
    : Settled p s' ∧ ∀ es, (p.run answer es s').1 = (p.run answer es s).1 := by
  cases h with
  | reads h => exact ⟨Settled.reads (h.effect heffect).1, (h.effect heffect).2⟩
  | rowid k heq hk =>
    refine ⟨Settled.rowid k heq hk, ?_⟩
    intro es
    rw [heq, Prog.run_call, Prog.run_call]
    simp only [answer]
    rw [hcompat (by rw [heq]; rfl)]
    rcases hk (.rowid s.lastRowid) with ⟨a, ha⟩
    rw [ha]
    rfl

end Reads

theorem inTransaction_stepStatement (env : CallEnv) (s : Conn) (sql : Sql) (vs : List Value)
    : (stepStatement env s sql vs).2.inTransaction = s.inTransaction := by
  unfold Conn.inTransaction
  rw [saved_stepStatement]

theorem Holding.call {c : Call} {k : Reply → DbProg α} (h : Holding (.call c k)) (env : CallEnv)
    {s : Conn} (hs : s.inTransaction = true)
    : (Holding (k (answer c env s).1) ∧ (answer c env s).2.inTransaction = true) ∨
        ∃ a, k (answer c env s).1 = .ret a := by
  cases c with
  | exec cmd =>
    right
    cases cmd with
    | commit => exact h _
    | rollback => exact h _
    | beginImmediate => cases h
    | deleteResponses => cases h
    | deleteRequests => cases h
    | deleteCollections => cases h
  | step sql vs =>
    left
    refine ⟨h _, ?_⟩
    simp only [answer]
    split
    . exact hs
    . rw [inTransaction_stepStatement]
      exact hs
  | prepare | bind | lastInsertRowid | malloc =>
    left
    refine ⟨h _, ?_⟩
    rw [state_answer env s (by simp) (by simp)]
    exact hs

theorem Before.call {c : Call} {k : Reply → DbProg α} (h : Before (.call c k)) (env : CallEnv)
    {s : Conn} (hs : s.inTransaction = false)
    : ((∀ s', answer c env s' = ((answer c env s).1, s')) ∧ Before (k (answer c env s).1)) ∨
        ((answer c env s).2.inTransaction = false ∧
          Settled (k (answer c env s).1) (answer c env s).2 ∧
          Effect s (answer c env s).2) ∨
        ((answer c env s).2.inTransaction = true ∧
          (Holding (k (answer c env s).1) ∨ ∃ a, k (answer c env s).1 = .ret a)) := by
  cases c with
  | exec cmd =>
    cases cmd with
    | beginImmediate =>
      cases hfault : env.fault with
      | true =>
        left
        simp only [answer, hfault, if_true]
        exact ⟨fun _ => trivial, h.2⟩
      | false =>
        right
        right
        have hsaved : s.saved = none := by simpa [Conn.inTransaction] using hs
        simp only [answer, hfault, Bool.false_eq_true, if_false, execCommand, hsaved]
        exact ⟨rfl, Or.inl h.1⟩
    | commit => cases h
    | rollback => cases h
    | deleteResponses => cases h
    | deleteRequests => cases h
    | deleteCollections => cases h
  | prepare | bind => exact Or.inl ⟨answer_congr env s (by simp) (by simp) (by simp), h _⟩
  | step sql vs =>
    cases hfault : env.fault with
    | true =>
      left
      simp only [answer, hfault, if_true]
      exact ⟨fun _ => trivial, h.1⟩
    | false =>
      right
      left
      simp only [answer, hfault, Bool.false_eq_true, if_false]
      rw [inTransaction_stepStatement]
      exact ⟨hs, h.2 env s⟩
  | lastInsertRowid => cases h
  | malloc => cases h

-- The calls that do not use the database.
def LocalCall (c : Call) : Prop :=
  match c with
  | .prepare _ => True
  | .bind _ => True
  | .malloc => True
  | _ => False

instance : DecidablePred LocalCall := fun c =>
  match c with
  | .prepare _ => isTrue trivial
  | .bind _ => isTrue trivial
  | .malloc => isTrue trivial
  | .exec _ => isFalse id
  | .step _ _ => isFalse id
  | .lastInsertRowid => isFalse id

instance (p : DbProg α) (s s' : Conn) : Decidable (Compat p s s') :=
  inferInstanceAs (Decidable (_ → _))

theorem LocalCall.answer_eq {c : Call} (h : LocalCall c) (env : CallEnv) (s s' : Conn)
    : answer c env s' = ((answer c env s).1, s') := by
  apply answer_congr
  . intro cmd heq
    rw [heq] at h
    cases h
  . intro sql vs heq
    rw [heq] at h
    cases h
  . intro heq
    rw [heq] at h
    cases h

theorem Before.local_call {c : Call} {k : Reply → DbProg α} (h : Before (.call c k))
    (hlocal : LocalCall c) (r : Reply) : Before (k r) := by
  unfold LocalCall at hlocal
  split at hlocal
  . exact h r
  . exact h r
  . cases h
  . cases hlocal

theorem Settled.compat_local {c : Call} {k : Reply → DbProg α} {s : Conn}
    (h : Settled (.call c k) s) (hlocal : LocalCall c) (r : Reply) (s' : Conn)
    : Compat (k r) s s' := by
  cases h with
  | reads h =>
    intro hnext
    have hreads := h.2 r
    cases hp : k r with
    | ret a =>
      rw [hp] at hnext
      cases hnext
    | call c' k' =>
      rw [hp] at hnext hreads
      cases hnext
      exact absurd hreads.1 (by simp [ReadCall])
  | rowid k' heq hk =>
    cases heq
    cases hlocal

/-- The functions of `db_manager.c` obey the discipline of one effect each. -/
theorem dbDiscipline
    : Net.Discipline answer Conn.inTransaction LocalCall (Before (α := α)) Holding Settled Effect
        Compat where
  before_call := fun env _ h hs => h.call env hs
  holding_ret := fun h => h
  holding_call := fun env _ h hs => h.call env hs
  settled_ret := Settled.ret
  settled_call := fun env _ h => h.call env
  settled_effect := fun h heffect hcompat => h.effect heffect hcompat
  local_call := fun env s s' h => h.answer_eq env s s'
  before_local := fun r h hlocal => h.local_call hlocal r
  compat_local := fun r s' h hlocal => h.compat_local hlocal r s'
  compat_trans := by
    intro p s s' s'' h h' hnext
    rw [h' hnext, h hnext]

section Functions

variable {f : α → β} {p : DbProg α} {s : Conn}

theorem Reads.map (h : Reads p s) : Reads (p.map f) s := by
  induction p with
  | ret a => trivial
  | call c k ih => exact ⟨h.1, fun r => ih r (h.2 r)⟩

theorem exists_ret_map {p : DbProg α} (h : ∃ a, p = .ret a) : ∃ b, p.map f = .ret b := by
  rcases h with ⟨a, ha⟩
  exact ⟨f a, by rw [ha]; rfl⟩

theorem Settled.map (h : Settled p s) : Settled (p.map f) s := by
  cases h with
  | reads h => exact Settled.reads h.map
  | rowid k heq hk =>
    rw [heq]
    exact Settled.rowid _ rfl (fun r => exists_ret_map (hk r))

theorem Holding.map (h : Holding p) : Holding (p.map f) := by
  induction p with
  | ret a => cases h
  | call c k ih =>
    cases c with
    | exec cmd =>
      cases cmd with
      | commit => exact fun r => exists_ret_map (h r)
      | rollback => exact fun r => exists_ret_map (h r)
      | beginImmediate => cases h
      | deleteResponses => cases h
      | deleteRequests => cases h
      | deleteCollections => cases h
    | prepare sql => exact fun r => ih r (h r)
    | bind param => exact fun r => ih r (h r)
    | step sql vs => exact fun r => ih r (h r)
    | lastInsertRowid => exact fun r => ih r (h r)
    | malloc => exact fun r => ih r (h r)

theorem Before.map (h : Before p) : Before (p.map f) := by
  induction p with
  | ret a => trivial
  | call c k ih =>
    cases c with
    | exec cmd =>
      cases cmd with
      | beginImmediate => exact ⟨h.1.map, ih _ h.2⟩
      | commit => cases h
      | rollback => cases h
      | deleteResponses => cases h
      | deleteRequests => cases h
      | deleteCollections => cases h
    | prepare sql => exact fun r => ih r (h r)
    | bind param => exact fun r => ih r (h r)
    | step sql vs => exact ⟨ih _ h.1, fun env s => ⟨(h.2 env s).1.map, (h.2 env s).2⟩⟩
    | lastInsertRowid => cases h
    | malloc => cases h

variable {sql : Sql} {params : List (Option Value)} {k : Reply → DbProg α} {failure : DbProg α}

theorem before_statement {a : α}
    (hk : ∀ vs, params = vs.map some → Before (.call (.step sql vs) k))
    : Before (statement sql params (.ret a) k) :=
  statement_induction (fun _ _ h => h) (fun _ _ h => h) trivial hk

theorem reads_statement {a : α}
    (hk : ∀ vs, params = vs.map some → ReadCall (.step sql vs) s ∧ ∀ r, Reads (k r) s)
    : Reads (statement sql params (.ret a) k) s := by
  apply statement_induction (P := fun p => Reads p s)
  . intro _ _ h
    exact ⟨trivial, h⟩
  . intro _ _ h
    exact ⟨trivial, h⟩
  . trivial
  . exact hk

theorem holding_statement (hfailure : Holding failure) (hk : ∀ r, Holding (k r))
    : Holding (statement sql params failure k) :=
  statement_induction (fun _ _ h => h) (fun _ _ h => h) hfailure (fun _ _ => hk)

-- Once the INSERT went through, the lookup is sure to find the row, or it compares with NULL.
theorem readCall_selectRequestId {req : Request} (hbound : none ∉ insertRequestParams req)
    {env : CallEnv}
    (hdone : (stepInsertRequest env s (insertRequestValues req)).1 = .done) {vs : List Value}
    (hvs : selectRequestParams req = vs.map some)
    : ReadCall (.step .selectRequestId vs) (stepInsertRequest env s (insertRequestValues req)).2 := by
  by_cases hbody : req.body = none
  . left
    rw [selectRequestParams_of_body_eq_none hbody hbound] at hvs
    rw [← map_some_inj hvs]
    simp
  . rw [selectRequestParams_eq hbody hbound] at hvs
    rw [← map_some_inj hvs]
    by_cases hurl : req.url = none
    . left
      simp [Request.boundKey, requestRow, encodeRequest, RequestRow.key, hurl, textValue]
    . right
      cases stepInsertRequest_cases (s := s) hurl env with
      | inl h =>
        rw [h, lookup_insertedRequest hurl]
        simp
      | inr h =>
        rw [h.1] at hdone
        cases hdone

theorem before_dbSaveRequest (req : Option Request) : Before (dbSaveRequest req) := by
  cases req with
  | none => trivial
  | some req =>
    apply before_statement
    intro vs hvs
    have hbound : none ∉ insertRequestParams req := by
      rw [hvs]
      simp
    rw [insertRequestParams_eq hbound] at hvs
    rw [← map_some_inj hvs]
    refine ⟨trivial, ?_⟩
    intro env s
    refine ⟨?_, keepsIds_stepStatement env s _ _⟩
    simp only [stepStatement]
    split
    . next hdone =>
      apply Settled.reads
      apply reads_statement
      intro vs' hvs'
      refine ⟨readCall_selectRequestId hbound hdone hvs', ?_⟩
      intro r
      split <;> trivial
    . exact Settled.ret _ _

theorem before_dbSaveResponse (resp : Option Response) : Before (dbSaveResponse resp) := by
  cases resp with
  | none => trivial
  | some resp =>
    apply before_statement
    intro vs _
    refine ⟨trivial, ?_⟩
    intro env s
    refine ⟨?_, keepsIds_stepStatement env s _ _⟩
    dsimp only
    split
    . apply Settled.rowid _ rfl
      intro r
      split
      . exact ⟨_, rfl⟩
      . exact ⟨_, rfl⟩
    . exact Settled.ret _ _

theorem holding_safeCopy {src : Option Bytes} {len : Nat} {crash : DbProg α} (hcrash : Holding crash)
    {k : Option Bytes → DbProg α} (hk : ∀ copy, Holding (k copy))
    : Holding (safeCopy src len crash k) := by
  unfold safeCopy
  split
  . exact hk none
  . intro r
    dsimp only
    split
    . split
      . exact hcrash
      . exact hk _
    . exact hk none

theorem holding_mapRowToRequest {cols : List Value} {crash : DbProg α} (hcrash : Holding crash)
    {k : Option Request → DbProg α} (hk : ∀ req, Holding (k req))
    : Holding (mapRowToRequest cols crash k) := by
  intro r
  dsimp only
  split
  . apply holding_safeCopy hcrash
    intro url
    apply holding_safeCopy hcrash
    intro headers
    apply holding_safeCopy hcrash
    intro body
    split <;> [skip; split <;> [skip; split]]
    all_goals exact hk _
  . exact hk none

theorem before_dbGetNextPendingRequest : Before dbGetNextPendingRequest := by
  have hrollback (out : Outcome (Option Request)) :
      Holding (.call (.exec .rollback) fun _ => .ret out : DbProg (Outcome (Option Request))) :=
    fun _ => ⟨out, rfl⟩
  refine ⟨?_, trivial⟩
  apply holding_statement (hrollback _)
  intro r
  split
  . apply holding_mapRowToRequest (hrollback _)
    intro req
    split
    . exact hrollback _
    . apply holding_statement (hrollback _)
      intro r
      split
      . exact fun _ => ⟨_, rfl⟩
      . exact hrollback _
  . exact hrollback _

end Functions

section Net

-- The commands of a transaction; `db_clear_all` is not among the functions below.
def Transactional (c : Call) : Prop :=
  ∀ cmd, c = .exec cmd → cmd = .beginImmediate ∨ cmd = .commit ∨ cmd = .rollback

-- The ids are kept, and a rollback would keep them too.
def KeepsIdsSince (s s' : Conn) : Prop :=
  KeepsIds s.db s'.db ∧ ∀ db, s'.saved = some db → KeepsIds s.db db

theorem KeepsIdsSince.answer {s s' : Conn} (h : KeepsIdsSince s s') {c : Call}
    (hc : Transactional c) (env : CallEnv) : KeepsIdsSince s (answer c env s').2 := by
  apply answer_keeps
  . intro cmd hcmd
    exact execCommand_keeps_of_transactional (hc cmd hcmd) h
  . intro sql vs _
    exact h.1.trans (keepsIds_stepStatement env s' sql vs)
  . exact h

theorem effect_run {p : DbProg α} (hp : p.Calls Transactional) (es : List CallEnv) {s : Conn}
    (hs : s.inTransaction = false) : Effect s (p.run answer es s).2 := by
  have hstart : KeepsIdsSince s s := by
    refine ⟨KeepsIds.refl s.db, ?_⟩
    intro db hdb
    simp [Conn.inTransaction, hdb] at hs
  have hrun : KeepsIdsSince s (p.run answer es s).2 := by
    apply hp.run _ es hstart
    intro c env s' hc h
    exact h.answer hc env
  exact hrun.1

inductive DbOp where
  | saveRequest (req : Option Request)
  | saveResponse (resp : Option Response)
  | getNextPendingRequest

inductive DbResult where
  | saveRequest (rc : Int) (req : Option Request)
  | saveResponse (rc : Int) (resp : Option Response)
  | getNextPendingRequest (out : Outcome (Option Request))
  deriving DecidableEq

def DbOp.prog (op : DbOp) : DbProg DbResult :=
  match op with
  | .saveRequest req => (dbSaveRequest req).map (fun res => .saveRequest res.1 res.2)
  | .saveResponse resp => (dbSaveResponse resp).map (fun res => .saveResponse res.1 res.2)
  | .getNextPendingRequest => dbGetNextPendingRequest.map .getNextPendingRequest

theorem DbOp.before (op : DbOp) : Before op.prog := by
  cases op with
  | saveRequest req => exact (before_dbSaveRequest req).map
  | saveResponse resp => exact (before_dbSaveResponse resp).map
  | getNextPendingRequest => exact before_dbGetNextPendingRequest.map

theorem transactional_of_usesOnly {sqls : List Sql} {c : Call} (h : UsesOnly sqls c)
    : Transactional c := by
  intro cmd hcmd
  rw [hcmd] at h
  cases h

theorem calls_transactional_statement {sql : Sql} {params : List (Option Value)}
    {failure : DbProg α} {k : Reply → DbProg α} (hfailure : failure.Calls Transactional)
    (hk : ∀ r, (k r).Calls Transactional)
    : (statement sql params failure k).Calls Transactional := by
  apply calls_statement
  . intro p cmd h
    cases h
  . intro sql cmd h
    cases h
  . intro vs _ cmd h
    cases h
  . exact hfailure
  . exact hk

theorem transactional_dbGetNextPendingRequest
    : dbGetNextPendingRequest.Calls Transactional := by
  have hrollback (out : Outcome (Option Request)) :
      (Prog.call (.exec .rollback) fun _ => .ret out : DbProg (Outcome (Option Request))).Calls
        Transactional := ⟨by simp [Transactional], fun _ => trivial⟩
  refine ⟨by simp [Transactional], ?_⟩
  intro r
  dsimp only
  split
  . apply calls_transactional_statement (hrollback _)
    intro r
    split
    . apply calls_mapRowToRequest (by simp [Transactional]) (hrollback _)
      intro req
      split
      . exact hrollback _
      . apply calls_transactional_statement (hrollback _)
        intro r
        split
        . exact ⟨by simp [Transactional], fun _ => trivial⟩
        . exact hrollback _
    . exact hrollback _
  . trivial

theorem DbOp.calls (op : DbOp) : op.prog.Calls Transactional := by
  cases op with
  | saveRequest req =>
    exact ((calls_dbSaveRequest req).mono (fun _ => transactional_of_usesOnly)).map
  | saveResponse resp =>
    exact ((calls_dbSaveResponse resp).mono (fun _ => transactional_of_usesOnly)).map
  | getNextPendingRequest => exact transactional_dbGetNextPendingRequest.map

variable {ι : Type} [DecidableEq ι]

/-- The run of the functions `ops`, one thread each, under a schedule of single calls. -/
def dbRun (ops : ι → DbOp) (s : Conn) (sched : List (ι × CallEnv))
    : Net Call Reply CallEnv Conn DbResult ι :=
  (Net.start (fun i => (ops i).prog) s).exec answer Conn.inTransaction sched

/--
While a transaction is open, only its thread makes calls that use the database, and no row is added
between the INSERT of a thread and its `sqlite3_last_insert_rowid`.
-/
def Undisturbed (ops : ι → DbOp) (s : Conn) (sched : List (ι × CallEnv)) : Prop :=
  Net.AllowedRun answer Conn.inTransaction LocalCall Compat (Net.start (fun i => (ops i).prog) s) sched

instance [Fintype ι] (ops : ι → DbOp) (s : Conn) (sched : List (ι × CallEnv))
    : Decidable (Undisturbed ops s sched) :=
  inferInstanceAs (Decidable (Net.AllowedRun _ _ _ _ _ _))

/-- In such a run the functions behave as if they were called one after the other. -/
theorem dbRun_serializable [Fintype ι] (ops : ι → DbOp) (s : Conn) (sched : List (ι × CallEnv))
    (h : Undisturbed ops s sched) (v : ι → DbResult) (hfin : (dbRun ops s sched).Finished v)
    : Net.Serializable answer (fun i => (ops i).prog) s (dbRun ops s sched) v := by
  apply dbDiscipline.serializable
  . intro i es s hs
    exact effect_run (ops i).calls es hs
  . intro i
    exact (ops i).before
  . exact h
  . exact hfin

section Examples

-- The DB worker looks for a pending request while the client saves one.
def pollAndSave (i : Bool) : DbOp :=
  if i then .saveRequest (some postRequest) else .getNextPendingRequest

-- The worker finds nothing, then the client saves, then the worker rolls its transaction back.
def saveBeforeRollback : List (Bool × CallEnv) :=
  List.replicate 3 (false, default) ++ List.replicate 16 (true, default) ++ [(false, default)]

-- The client binds its parameters within the transaction of the worker, and inserts behind its ROLLBACK.
def bindWithinTransaction : List (Bool × CallEnv) :=
  [(false, default)] ++ List.replicate 5 (true, default) ++ [(false, default)] ++
    List.replicate 4 (true, default) ++ [(false, default), (false, default)] ++
    List.replicate 7 (true, default)

def pollAndSaveResult (i : Bool) : DbResult :=
  if i then
    .saveRequest sqliteOk (some { postRequest with id := 1 })
  else
    .getNextPendingRequest (.returned none)

theorem dbRun_serializable_pollAndSave
    : Net.Serializable answer (fun i => (pollAndSave i).prog) oneCollection
        (dbRun pollAndSave oneCollection bindWithinTransaction) pollAndSaveResult := by
  apply dbRun_serializable
  . decide +kernel
  . intro i
    apply Prog.eq_ret_of_result?
    cases i <;> decide +kernel

theorem perm_of_bools {order : List Bool} (hnodup : order.Nodup) (hall : ∀ i, i ∈ order)
    : order = [false, true] ∨ order = [true, false] := by
  have hperm : order.Perm [false, true] := by
    rw [List.perm_ext_iff_of_nodup hnodup (by decide)]
    intro i
    simp [hall i]
  have hlength := hperm.length_eq
  rcases order with _ | ⟨i, _ | ⟨j, _ | ⟨k, order⟩⟩⟩
  . simp at hlength
  . simp at hlength
  . cases i <;> cases j <;> simp at hnodup ⊢
  . simp at hlength

/-- A save that reported success is undone by the ROLLBACK of the other thread. -/
theorem dbRun_not_serializable
    : oneCollection.inTransaction = false ∧
        (dbRun pollAndSave oneCollection saveBeforeRollback).Finished pollAndSaveResult ∧
        (dbRun pollAndSave oneCollection saveBeforeRollback).shared.db.requests.rows = [] ∧
        ¬ Net.Serializable answer (fun i => (pollAndSave i).prog) oneCollection
            (dbRun pollAndSave oneCollection saveBeforeRollback) pollAndSaveResult := by
  refine ⟨by decide, ?_, by decide +kernel, ?_⟩
  . intro i
    apply Prog.eq_ret_of_result?
    cases i <;> decide +kernel
  . rintro ⟨order, hnodup, hall, hrun⟩
    have hrows := congrArg (fun res => res.2.db.requests.rows.length) hrun
    cases perm_of_bools hnodup hall with
    | inl h =>
      rw [h] at hrows
      exact absurd hrows (by decide +kernel)
    | inr h =>
      rw [h] at hrows
      exact absurd hrows (by decide +kernel)

end Examples

end Net

end HttpRuntime
