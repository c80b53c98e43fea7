import HttpRuntime.Core.DbManager.Connections
import HttpRuntime.Core.DbManager.IdRange
import HttpRuntime.Lib.History

/-!
This module contains why no request is claimed twice: a claim reads and marks a row while it has the
write lock, and only an update of the status makes a row pending again.
-/

open Lib Lib.Sql

namespace HttpRuntime

/-- What a claim on `db` may end in. -/
def Claimed (db : Database) (res : Outcome (Option Request) × Conn) : Prop :=
  match res.1.toOption with
  | some req => ∃ row ∈ pendingRequests db,
    req.id = Lib.toInt row.1 ∧
    res.2.saved = none ∧
    res.2.db = (setStatus (Conn.open db) (.integer 1) (.integer req.id)).db
  | none => res.2.committed = db

-- The calls of a save.
def SaveCall (req : Option Request) (c : Call) : Prop :=
  Issued (fun r => some r = req) c ∧ UsesOnly [.insertRequest, .selectRequestId] c

-- What is left of an update.
def UpdateRest (id status : Int) (p : DbProg Int) : Prop :=
  match p with
  | .ret rc => rc = sqliteError
  | .call (.prepare _) k => ∀ r, UpdateRest id status (k r)
  | .call (.bind _) k => ∀ r, UpdateRest id status (k r)
  | .call (.step sql vs) k =>
    sql = .updateRequestStatus ∧
      vs = [.integer status, .integer id] ∧
      ∀ r, k r = .ret (if r = .done then sqliteOk else sqliteError)
  | .call _ _ => False

section Functions

theorem updateRest_dbUpdateRequestStatus (id status : Int)
    : UpdateRest id status (dbUpdateRequestStatus id status) := by
  apply statement_induction (P := UpdateRest id status)
  . intro sql k hk
    exact hk
  . intro param k hk
    exact hk
  . rfl
  . intro vs hvs
    have hparams : [bindInt status, bindInt id] = [Value.integer status, .integer id].map some := rfl
    rw [hparams] at hvs
    refine ⟨rfl, (map_some_inj hvs).symm, ?_⟩
    intro r
    cases r <;> rfl

theorem saveCalls_dbSaveRequest (req : Option Request)
    : (dbSaveRequest req).Calls (SaveCall req) := by
  apply Prog.Calls.and
  . cases req with
    | none => trivial
    | some req => exact issued_dbSaveRequest rfl
  . exact calls_dbSaveRequest req

theorem SaveCall.params_eq {req : Option Request} {vs : List Value}
    (h : SaveCall req (.step .insertRequest vs)) : ∃ r, req = some r ∧ vs = insertRequestValues r := by
  cases h.1 with
  | insertRequest hsaved => exact ⟨_, hsaved.symm, rfl⟩
  | step hne => exact absurd rfl hne
  | other hne => exact absurd rfl (hne _ _)

theorem claimed_dbGetNextPendingRequest {s : Conn} (hidle : s.saved = none) {env : CallEnv}
    (hfault : env.fault = false) (es : List CallEnv)
    : Claimed s.db (dbGetNextPendingRequest.run (reliable .commit) (env :: es) s) := by
  have hbegin : reliable .commit (.exec .beginImmediate) ((env :: es).headD default) s = (.ok, begun s) := by
    rw [reliable_of_ne (by decide), List.headD_cons, answer_exec _ hfault]
    simp only [execCommand, hidle, begun]
  rcases (plain_reliable .commit).run_dbGetNextPendingRequest hbegin with
    ⟨row, req, hclaims, hrun⟩ | ⟨_, out, es', _, hout, hrun⟩
  . rw [hrun, reliable_self]
    refine ⟨row, mem_pendingRequests_of_pickedRow hclaims.picked, ?_, rfl, rfl⟩
    apply id_of_decodeRequest hclaims.decoded
  . rw [hrun, reliable_of_ne (by decide)]
    simp only [Claimed, hout, answer]
    split <;> rfl

end Functions

/--
How the committed rows change with the return of a function, or with a call after which there is
more to do.
-/
inductive Changed (db : Database) : Option PendingEvent → Database → Prop where
  | grown (event : Option PendingEvent) (h : ∀ req, event ≠ some (.claimed (.returned (some req))))
    (t : Table RequestRow) (ht : Table.Grown RequestRow.key db.requests t)
    : Changed db event { db with requests := t }
  | updated (id status : Int)
    : Changed db (some (.updated id status sqliteOk))
        (setStatus (Conn.open db) (.integer status) (.integer id)).db
  | claimed (row : Nat × RequestRow) (hrow : row ∈ pendingRequests db) (req : Request)
    (hid : req.id = Lib.toInt row.1)
    : Changed db (some (.claimed (.returned (some req))))
        (setStatus (Conn.open db) (.integer 1) (.integer req.id)).db

theorem Changed.refl (db : Database) {event : Option PendingEvent}
    (h : ∀ req, event ≠ some (.claimed (.returned (some req)))) : Changed db event db :=
  .grown event h db.requests .same

namespace DbFile

variable {ι : Type} [DecidableEq ι] {f : DbFile ι} {i j : ι} {c : Call}

-- What connection `i` has left of a function. Once it has begun to claim, it alone decides how this ends.
def Phase (f : DbFile ι) (i : ι) (op : PendingOp) (p : DbProg PendingEvent) : Prop :=
  match op with
  | .getNextPendingRequest =>
    ∃ q : DbProg (Outcome (Option Request)), p = q.map .claimed ∧
      (q = dbGetNextPendingRequest ∨
        (Holding q ∧
          f.written i ≠ none ∧
          ∀ es, Claimed f.committed (q.run (reliable .commit) es (f.view i))))
  | .saveRequest req =>
    ∃ q : DbProg (Int × Option Request),
      p = q.map (fun res => .saved res.1 res.2) ∧ q.Calls (SaveCall req)
  | .updateRequestStatus id status =>
    ∃ q : DbProg Int, p = q.map (.updated id status) ∧ UpdateRest id status q

def Moved (f : DbFile ι) (i : ι) (op : PendingOp) (f' : DbFile ι) (p : DbProg PendingEvent) : Prop :=
  match p with
  | .ret event => Changed f.committed (some event) f'.committed
  | p => f'.Phase i op p ∧ Changed f.committed none f'.committed

section Calls

theorem saved_answer (h : ∀ cmd, c ≠ .exec cmd) (env : CallEnv) (s : Conn)
    : (answer c env s).2.saved = s.saved := by
  cases c with
  | exec cmd => exact absurd rfl (h cmd)
  | step sql vs =>
    simp only [answer]
    split
    . rfl
    . rw [saved_stepStatement]
  | prepare | bind | lastInsertRowid | malloc => rw [state_answer env s (by simp) (by simp)]

theorem lockedFor_of_written_ne_none (h : f.written i ≠ none) : f.lockedFor i = false := by
  rw [← Bool.not_eq_true]
  intro hlocked
  exact h (written_of_lockedFor hlocked)

theorem db_view_of_written (h : f.written i = none) : (f.view i).db = f.committed := by
  unfold view
  rw [h]

theorem committed_serve (h : ∀ cmd, c ≠ .exec cmd) (hlocked : f.lockedFor i = false) (env : CallEnv)
    : (f.serve i c env).2.committed =
        if f.written i = none then (answer c env (f.view i)).2.db else f.committed := by
  rw [serve_of_not_lockedFor hlocked, reliable_of_ne (h .commit)]
  have hsaved := saved_answer h env (f.view i)
  rw [saved_view] at hsaved
  simp only [put, Conn.committed, hsaved]
  cases hwritten : f.written i with
  | none => rfl
  | some db => rfl

theorem grown_of_stepped {s s' : Conn} {sql : Sql} (h : Stepped s sql s')
    (hsql : sql ∈ [Sql.insertRequest, .selectRequestId])
    : ∃ t, Table.Grown RequestRow.key s.db.requests t ∧ s'.db = { s.db with requests := t } := by
  cases h with
  | same => exact ⟨_, .same, rfl⟩
  | insertRequest t rowid ht => exact ⟨t, .of_or ht, rfl⟩
  | insertCollection => simp at hsql
  | insertResponse => simp at hsql
  | update sql hupdate => grind

theorem SaveCall.grown {req : Option Request} (h : SaveCall req c) (env : CallEnv) (s : Conn)
    : ∃ t, Table.Grown RequestRow.key s.db.requests t ∧
        (answer c env s).2.db = { s.db with requests := t } := by
  cases c with
  | exec cmd => cases h.2
  | step sql vs =>
    simp only [answer]
    split
    . exact ⟨_, .same, rfl⟩
    . exact grown_of_stepped (stepped_stepStatement env s sql vs) h.2
  | prepare | bind | lastInsertRowid | malloc =>
    rw [state_answer env s (by simp) (by simp)]
    exact ⟨_, .same, rfl⟩

end Calls

section Moved

variable {op : PendingOp} {p : DbProg PendingEvent} {k : Reply → DbProg PendingEvent} {f' : DbFile ι}

theorem phase_prog (f : DbFile ι) (i : ι) (op : PendingOp) : f.Phase i op op.prog := by
  cases op with
  | getNextPendingRequest => exact ⟨_, rfl, Or.inl rfl⟩
  | saveRequest req => exact ⟨_, rfl, saveCalls_dbSaveRequest req⟩
  | updateRequestStatus id status => exact ⟨_, rfl, updateRest_dbUpdateRequestStatus id status⟩

theorem Phase.ne_claimed {event : PendingEvent} (h : f.Phase i op (.ret event)) (req : Request)
    : event ≠ .claimed (.returned (some req)) := by
  intro heq
  cases op with
  | getNextPendingRequest =>
    rcases h with ⟨q, hq, hphase⟩
    cases q with
    | ret a =>
      cases hphase with
      | inl hinit => cases hinit
      | inr hholding => exact hholding.1
    | call c k => cases hq
  | saveRequest | updateRequestStatus =>
    rcases h with ⟨q, hq, _⟩
    cases q with
    | ret a =>
      rw [heq] at hq
      cases hq
    | call c k => cases hq

theorem Phase.moved {t : Table RequestRow} (h : f'.Phase i op p)
    (ht : Table.Grown RequestRow.key f.committed.requests t)
    (hcommitted : f'.committed = { f.committed with requests := t }) : f.Moved i op f' p := by
  unfold Moved
  rw [hcommitted]
  split
  . apply Changed.grown _ _ t ht
    intro req heq
    rw [Option.some.injEq] at heq
    exact h.ne_claimed req heq
  . exact ⟨h, Changed.grown none (by simp) t ht⟩

theorem moved_saveRequest {req : Option Request} (h : f.Phase i (.saveRequest req) (.call c k))
    (env : CallEnv)
    : f.Moved i (.saveRequest req) (f.serve i c env).2 (k (f.serve i c env).1) := by
  rcases h with ⟨q, hq, hcalls⟩
  cases q with
  | ret a => cases hq
  | call c' k' =>
    cases hq
    have hphase : (f.serve i c env).2.Phase i (.saveRequest req)
        ((k' (f.serve i c env).1).map fun res => .saved res.1 res.2) := ⟨_, rfl, hcalls.2 _⟩
    cases hlocked : f.lockedFor i with
    | true => exact hphase.moved .same (by rw [serve_of_lockedFor hlocked])
    | false =>
      have hexec : ∀ cmd, c ≠ .exec cmd := by
        intro cmd heq
        have huses := hcalls.1.2
        rw [heq] at huses
        exact huses
      have hcommitted := committed_serve hexec hlocked env
      cases hwritten : f.written i with
      | some db =>
        rw [hwritten, if_neg (by simp)] at hcommitted
        exact hphase.moved .same hcommitted
      | none =>
        rcases SaveCall.grown hcalls.1 env (f.view i) with ⟨t, ht, hdb⟩
        rw [hwritten, if_pos rfl, hdb] at hcommitted
        rw [db_view_of_written hwritten] at ht hcommitted
        exact hphase.moved ht hcommitted

theorem committed_serve_of_local (h : LocalCall c) (env : CallEnv)
    : (f.serve i c env).2.committed = f.committed := by
  cases hlocked : f.lockedFor i with
  | true => rw [serve_of_lockedFor hlocked]
  | false =>
    have hexec : ∀ cmd, c ≠ .exec cmd := by
      intro cmd heq
      rw [heq] at h
      exact h
    rw [committed_serve hexec hlocked, h.answer_eq env (f.view i) (f.view i)]
    split
    . next hwritten => rw [db_view_of_written hwritten]
    . rfl

-- The UPDATE sets the status, or nothing happens.
theorem moved_updateStep (f : DbFile ι) (i : ι) (id status : Int) (env : CallEnv)
    : let res := f.serve i (.step .updateRequestStatus [.integer status, .integer id]) env
      Changed f.committed
        (some (.updated id status (if res.1 = .done then sqliteOk else sqliteError)))
        res.2.committed := by
  dsimp only
  cases hlocked : f.lockedFor i with
  | true =>
    rw [serve_of_lockedFor hlocked]
    exact Changed.refl _ (by simp)
  | false =>
    rw [committed_serve (by simp) hlocked, serve_of_not_lockedFor hlocked, reliable_of_ne (by simp)]
    cases hfault : env.fault with
    | true =>
      have hcommitted : (if f.written i = none then (f.view i).db else f.committed) = f.committed := by
        split
        . next hwritten => rw [db_view_of_written hwritten]
        . rfl
      simp only [answer, hfault, if_true]
      rw [hcommitted]
      exact Changed.refl _ (by simp)
    | false =>
      simp only [answer, hfault, Bool.false_eq_true, if_false, stepStatement, if_true]
      split
      . next hwritten =>
        have hset : (setStatus (f.view i) (.integer status) (.integer id)).db =
            (setStatus (Conn.open f.committed) (.integer status) (.integer id)).db := by
          unfold setStatus
          rw [db_view_of_written hwritten]
          rfl
        rw [hset]
        exact Changed.updated id status
      . exact Changed.refl _ (by simp)

theorem moved_updateRequestStatus {id status : Int}
    (h : f.Phase i (.updateRequestStatus id status) (.call c k)) (env : CallEnv)
    : f.Moved i (.updateRequestStatus id status) (f.serve i c env).2 (k (f.serve i c env).1) := by
  rcases h with ⟨q, hq, hrest⟩
  cases q with
  | ret rc => cases hq
  | call c' k' =>
    cases hq
    have hlocal (hc : LocalCall c) (hk : ∀ r, UpdateRest id status (k' r))
        : f.Moved i (.updateRequestStatus id status) (f.serve i c env).2
            ((k' (f.serve i c env).1).map (.updated id status)) := by
      have hphase : (f.serve i c env).2.Phase i (.updateRequestStatus id status)
          ((k' (f.serve i c env).1).map (.updated id status)) := ⟨_, rfl, hk _⟩
      exact hphase.moved .same (committed_serve_of_local hc env)
    cases c with
    | prepare sql => exact hlocal trivial hrest
    | bind param => exact hlocal trivial hrest
    | step sql vs =>
      rcases hrest with ⟨rfl, rfl, hk⟩
      have hmoved := moved_updateStep f i id status env
      dsimp only
      rw [hk]
      exact hmoved
    | exec cmd => cases hrest
    | lastInsertRowid => cases hrest
    | malloc => cases hrest

theorem reliable_eq_answer (cmd : Command) (c : Call) (env : CallEnv) (s : Conn)
    : ∃ env', reliable cmd c env s = answer c env' s := by
  unfold reliable
  split
  . exact ⟨_, rfl⟩
  . exact ⟨_, rfl⟩

theorem Holding.not_exec {q : Reply → DbProg (Outcome (Option Request))} {r : Reply}
    (h : Holding (.call c q)) (hr : Holding (q r)) : ∀ cmd, c ≠ .exec cmd := by
  intro cmd heq
  subst heq
  cases cmd with
  | commit =>
    rcases h r with ⟨a, ha⟩
    rw [ha] at hr
    exact hr
  | rollback =>
    rcases h r with ⟨a, ha⟩
    rw [ha] at hr
    exact hr
  | beginImmediate => exact h
  | deleteResponses => exact h
  | deleteRequests => exact h
  | deleteCollections => exact h

theorem changed_of_claimed {db : Database} {out : Outcome (Option Request)} {s : Conn}
    (h : Claimed db (out, s)) : Changed db (some (.claimed out)) s.committed := by
  unfold Claimed at h
  cases hout : out.toOption with
  | none =>
    rw [hout] at h
    have hcommitted : s.committed = db := h
    rw [hcommitted]
    apply Changed.refl
    intro req heq
    rw [Option.some.injEq, PendingEvent.claimed.injEq, ← Outcome.toOption_eq_some_iff, hout] at heq
    cases heq
  | some req =>
    rw [hout] at h
    rcases h with ⟨row, hrow, hid, hsaved, hdb⟩
    dsimp only at hsaved hdb
    rw [Outcome.toOption_eq_some_iff.mp hout]
    rw [Conn.committed, hsaved, Option.getD_none, hdb]
    exact Changed.claimed row hrow req hid

theorem committed_put (f : DbFile ι) (i : ι) (s : Conn) : (f.put i s).committed = s.committed := rfl

theorem moved_begin {k : Reply → DbProg (Outcome (Option Request))}
    (h : Prog.call c k = dbGetNextPendingRequest) (env : CallEnv)
    : f.Moved i .getNextPendingRequest (f.serve i c env).2
        ((k (f.serve i c env).1).map .claimed) := by
  have hbefore := before_dbGetNextPendingRequest
  have hclaimed := @claimed_dbGetNextPendingRequest
  rw [← h] at hbefore hclaimed
  rw [dbGetNextPendingRequest_eq] at h
  cases h
  cases hlocked : f.lockedFor i with
  | true =>
    have hserve : f.serve i (.exec .beginImmediate) env = (.error, f) := by
      unfold serve
      rw [hlocked]
      rfl
    rw [hserve]
    exact Changed.refl _ (by simp)
  | false =>
    rw [serve_of_not_lockedFor hlocked, reliable_of_ne (by simp)]
    cases hfault : env.fault with
    | true =>
      simp only [answer, hfault, if_true]
      rw [put_view]
      exact Changed.refl _ (by simp)
    | false =>
      rw [answer_exec _ hfault]
      cases hsaved : (f.view i).saved with
      | some db =>
        simp only [execCommand, hsaved]
        rw [put_view]
        exact Changed.refl _ (by simp)
      | none =>
        have hbegun : execCommand (f.view i) .beginImmediate = (.ok, begun (f.view i)) := by
          simp only [execCommand, hsaved, begun]
        have hwritten : f.written i = none := by
          rw [saved_view, Option.map_eq_none_iff] at hsaved
          exact hsaved
        have hcommitted : (begun (f.view i)).committed = f.committed := db_view_of_written hwritten
        rw [hbegun]
        refine ⟨⟨_, rfl, Or.inr ⟨hbefore.1, ?_, ?_⟩⟩, ?_⟩
        . rw [written_put]
          simp [begun]
        . intro es
          have hrun := hclaimed hsaved hfault es
          rw [Prog.run_call_cons, reliable_of_ne (by simp), answer_exec _ hfault, hbegun,
            db_view_of_written hwritten] at hrun
          rw [view_put_self, committed_put, hcommitted]
          exact hrun
        . rw [committed_put, hcommitted]
          exact Changed.refl _ (by simp)

theorem moved_getNextPendingRequest (h : f.Phase i .getNextPendingRequest (.call c k)) (env : CallEnv)
    : f.Moved i .getNextPendingRequest (f.serve i c env).2 (k (f.serve i c env).1) := by
  rcases h with ⟨q, hq, hphase⟩
  cases q with
  | ret a => cases hq
  | call c' k' =>
    cases hq
    rcases hphase with hinit | ⟨hholding, hwritten, hclaimed⟩
    . exact moved_begin hinit env
    . rw [serve_of_not_lockedFor (lockedFor_of_written_ne_none hwritten)]
      rcases reliable_eq_answer .commit c env (f.view i) with ⟨env', hanswer⟩
      have htransaction : (f.view i).inTransaction = true := by
        rw [Conn.inTransaction, saved_view, Option.isSome_map, Option.isSome_iff_ne_none]
        exact hwritten
      have hrun (es : List CallEnv) := hclaimed (env :: es)
      simp only [Prog.run_call_cons] at hrun
      rcases hholding.call env' htransaction with ⟨hrest, hopen⟩ | ⟨a, ha⟩
      . have hsaved : (answer c env' (f.view i)).2.saved = some f.committed := by
          rw [saved_answer (Holding.not_exec hholding hrest), saved_view]
          rcases Option.ne_none_iff_exists'.mp hwritten with ⟨db, hdb⟩
          rw [hdb, Option.map_some]
        have hcommitted : (answer c env' (f.view i)).2.committed = f.committed := by
          rw [Conn.committed, hsaved, Option.getD_some]
        have hnext : (f.put i (answer c env' (f.view i)).2).Phase i .getNextPendingRequest
            ((k' (answer c env' (f.view i)).1).map .claimed) := by
          refine ⟨_, rfl, Or.inr ⟨hrest, ?_, ?_⟩⟩
          . rw [written_put, hsaved]
            simp
          . intro es
            rw [view_put_self, committed_put, hcommitted, ← hanswer]
            exact hrun es
        rw [hanswer]
        exact hnext.moved .same hcommitted
      . have hend := hrun []
        rw [hanswer, ha] at hend
        dsimp only
        rw [hanswer, ha]
        exact changed_of_claimed hend

theorem Phase.call (h : f.Phase i op (.call c k)) (env : CallEnv)
    : f.Moved i op (f.serve i c env).2 (k (f.serve i c env).1) := by
  cases op with
  | getNextPendingRequest => exact moved_getNextPendingRequest h env
  | saveRequest req => exact moved_saveRequest h env
  | updateRequestStatus id status => exact moved_updateRequestStatus h env

theorem Phase.frame (h : f.Phase i op p) (hne : j ≠ i) (c : Call) (env : CallEnv)
    : (f.serve j c env).2.Phase i op p := by
  cases op with
  | getNextPendingRequest =>
    rcases h with ⟨q, hq, hinit | ⟨hholding, hwritten, hclaimed⟩⟩
    . exact ⟨q, hq, Or.inl hinit⟩
    . rcases Option.ne_none_iff_exists'.mp hwritten with ⟨db, hdb⟩
      rw [serve_of_lockedFor (lockedFor_of_written hdb hne)]
      exact ⟨q, hq, Or.inr ⟨hholding, hwritten, hclaimed⟩⟩
  | saveRequest req => exact h
  | updateRequestStatus id status => exact h

end Moved

def Phases (f : DbFile ι) : Prop :=
  ∀ i op p, f.running i = some (op, p) → f.Phase i op p

section Step

theorem phases_ofDatabase (db : Database) : (ofDatabase db : DbFile ι).Phases := by
  intro i op p h
  cases h

theorem running_serve (f : DbFile ι) (i : ι) (c : Call) (env : CallEnv)
    : (f.serve i c env).2.running = f.running ∧ (f.serve i c env).2.log = f.log := by
  unfold serve
  split
  . exact ⟨rfl, rfl⟩
  . exact ⟨rfl, rfl⟩

theorem phases_goOn {op : PendingOp} {p : DbProg PendingEvent} {f' : DbFile ι}
    (hmoved : f.Moved i op f' p) (hlog : f'.log = f.log)
    (hframe : ∀ j, j ≠ i → ∀ op p, f'.running j = some (op, p) → f'.Phase j op p)
    : (f'.goOn i op p).Phases ∧
        ∃ event, Changed f.committed event (f'.goOn i op p).committed ∧
          (f'.goOn i op p).log = f.log ++ event.toList := by
  cases p with
  | ret event =>
    refine ⟨?_, some event, hmoved, ?_⟩
    . intro j op' p' h
      by_cases hj : j = i
      . rw [hj] at h
        simp [goOn] at h
      . simp only [goOn, Function.update_of_ne hj] at h
        exact hframe j hj op' p' h
    . rw [goOn, hlog]
      rfl
  | call c k =>
    refine ⟨?_, none, hmoved.2, ?_⟩
    . intro j op' p' h
      by_cases hj : j = i
      . rw [hj] at h ⊢
        simp only [goOn, Function.update_self, Option.some.injEq, Prod.mk.injEq] at h
        rw [← h.1, ← h.2]
        exact hmoved.1
      . simp only [goOn, Function.update_of_ne hj] at h
        exact hframe j hj op' p' h
    . have hsame : (f'.goOn i op (.call c k)).log = f'.log := rfl
      rw [hsame, hlog, Option.toList_none, List.append_nil]

/-- What a step of any connection can do to the committed rows and the log. -/
theorem Phases.step (h : f.Phases) (act : FileAction ι)
    : (f.step act).Phases ∧
        ∃ event, Changed f.committed event (f.step act).committed ∧
          (f.step act).log = f.log ++ event.toList := by
  have hstutter : f.Phases ∧ ∃ event, Changed f.committed event f.committed ∧
      f.log = f.log ++ event.toList := by
    refine ⟨h, none, Changed.refl _ (by simp), ?_⟩
    rw [Option.toList_none, List.append_nil]
  cases act with
  | start i op =>
    simp only [DbFile.step]
    split
    . apply phases_goOn _ rfl
      . intro j _ op' p' hrunning
        exact h j op' p' hrunning
      . apply (phase_prog f i op).moved .same rfl
    . exact hstutter
  | call i env =>
    simp only [DbFile.step]
    split
    . next op c k hrunning =>
      have ⟨hsame, hlog⟩ := running_serve f i c env
      apply phases_goOn ((h i op _ hrunning).call env) hlog
      intro j hj op' p' hrunning'
      rw [hsame] at hrunning'
      exact (h j op' p' hrunning').frame (Ne.symm hj) c env
    . exact hstutter

end Step

end DbFile

section Exclusive

def IsClaim (id : Int) (event : PendingEvent) : Prop :=
  ∃ req, event = .claimed (.returned (some req)) ∧ req.id = id

def IsReset (id : Int) (event : PendingEvent) : Prop := event = .updated id 0 sqliteOk

/-- A request that was claimed and not reset has a row that is not pending. -/
structure Exclusive (db : Database) (log : List PendingEvent) : Prop where
  taken : ∀ id, History.Open (IsClaim id) (IsReset id) log →
    ∃ row ∈ db.requests.rows, (row.1 : Int) = id ∧ row.2.status.same (.integer 0) = false
  separated : ∀ id, History.Separated (IsClaim id) (IsReset id) log

variable {db db' : Database} {log : List PendingEvent} {event : Option PendingEvent}

theorem exclusive_nil (db : Database) : Exclusive db [] where
  taken := fun _ h => absurd h History.not_open_nil
  separated := fun _ => History.separated_nil

theorem mem_setStatus {s : Conn} {row : Nat × RequestRow} (h : row ∈ s.db.requests.rows)
    (status : Value) (id : Int)
    : ∃ row' ∈ (setStatus s status (.integer id)).db.requests.rows,
        row'.1 = row.1 ∧ row'.2.status = if (row.1 : Int) = id then status else row.2.status := by
  have hsame : (Value.integer id).same (.integer row.1) = decide ((row.1 : Int) = id) := by
    rw [Bool.eq_iff_iff, Value.same_iff, decide_eq_true_iff]
    simp [eq_comm]
  have hmem := List.mem_map_of_mem (f := fun r : Nat × RequestRow =>
    if (Value.integer id).same (.integer r.1) then (r.1, { r.2 with status := status }) else r) h
  refine ⟨_, hmem, ?_⟩
  rw [hsame]
  split <;> simp_all

theorem Changed.keeps (h : Changed db event db') {row : Nat × RequestRow}
    (hrow : row ∈ db.requests.rows) : ∃ row' ∈ db'.requests.rows, row'.1 = row.1 := by
  cases h with
  | grown event h t ht => exact ⟨row, ht.mem hrow, rfl⟩
  | updated id status =>
    rcases mem_setStatus (s := Conn.open db) hrow (.integer status) id with ⟨row', hrow', hid, _⟩
    exact ⟨row', hrow', hid⟩
  | claimed _ _ req _ =>
    rcases mem_setStatus (s := Conn.open db) hrow (.integer 1) req.id with ⟨row', hrow', hid, _⟩
    exact ⟨row', hrow', hid⟩

theorem same_zero_of_ne {status : Int} (h : status ≠ 0)
    : (Value.integer status).same (.integer 0) = false := by
  rw [← Bool.not_eq_true, Value.same_iff]
  intro hsame
  exact h (Value.integer.inj hsame.1)

def Taken (db : Database) (id : Int) : Prop :=
  ∃ row ∈ db.requests.rows, (row.1 : Int) = id ∧ row.2.status.same (.integer 0) = false

theorem Taken.grown {id : Int} (h : Taken db id) {t : Table RequestRow}
    (ht : Table.Grown RequestRow.key db.requests t) : Taken { db with requests := t } id := by
  rcases h with ⟨row, hrow, hstatus⟩
  exact ⟨row, ht.mem hrow, hstatus⟩

-- Only status 0 makes the row of an id pending again.
theorem Taken.setStatus {id id' status : Int} (h : Taken db id) (hkeep : id = id' → status ≠ 0)
    : Taken (setStatus (Conn.open db) (.integer status) (.integer id')).db id := by
  rcases h with ⟨row, hrow, hid, hstatus⟩
  rcases mem_setStatus (s := Conn.open db) hrow (.integer status) id' with
    ⟨row', hrow', hid', hstatus'⟩
  refine ⟨row', hrow', by rw [hid', hid], ?_⟩
  rw [hstatus']
  split
  . next heq =>
    apply same_zero_of_ne
    apply hkeep
    rw [← hid, heq]
  . exact hstatus

theorem Exclusive.concat (h : Exclusive db log) {e : PendingEvent} (hnot : ∀ id, ¬ IsClaim id e)
    (htaken : ∀ id, Taken db id → ¬ IsReset id e → Taken db' id) : Exclusive db' (log ++ [e]) where
  taken := by
    intro id hopen
    rw [History.open_concat] at hopen
    have ⟨hopen, hreset⟩ := hopen.resolve_left (hnot id)
    exact htaken id (h.taken id hopen) hreset
  separated := by
    intro id
    apply (h.separated id).concat
    intro he
    exact absurd he (hnot id)

theorem Exclusive.claimed (h : Exclusive db log) {row : Nat × RequestRow}
    (hrow : row ∈ pendingRequests db) {req : Request} (hid : (row.1 : Int) = req.id)
    : Exclusive (setStatus (Conn.open db) (.integer 1) (.integer req.id)).db
        (log ++ [.claimed (.returned (some req))]) := by
  rw [mem_pendingRequests] at hrow
  constructor
  . intro id hopen
    rw [History.open_concat] at hopen
    rcases hopen with ⟨req', hreq', hid'⟩ | ⟨hopen, _⟩
    . cases hreq'
      rcases mem_setStatus (s := Conn.open db) hrow.1 (.integer 1) req.id with
        ⟨row', hrow', heq, hstatus⟩
      refine ⟨row', hrow', by rw [heq, hid, hid'], ?_⟩
      rw [hstatus, if_pos hid]
      exact same_zero_of_ne (by decide)
    . apply Taken.setStatus (h.taken id hopen)
      intro _
      decide
  . intro id
    apply (h.separated id).concat
    rintro ⟨req', hreq', hid'⟩ hopen
    cases hreq'
    -- the row of an open claim is not pending
    rcases h.taken id hopen with ⟨old, hold, holdId, hstatus⟩
    have hsame : old = row := by
      apply Table.eq_of_mem_of_id_eq hold hrow.1
      omega
    rw [hsame, hrow.2] at hstatus
    cases hstatus

/-- A request that was claimed and not reset is not claimed, and its row does not become pending. -/
theorem Exclusive.changed (h : Exclusive db log) (hchanged : Changed db event db')
    (hids : ∀ row ∈ db'.requests.rows, row.1 < 2 ^ 31) : Exclusive db' (log ++ event.toList) := by
  cases hchanged with
  | grown event hevent t ht =>
    cases event with
    | none =>
      rw [Option.toList_none, List.append_nil]
      exact ⟨fun id hopen => Taken.grown (h.taken id hopen) ht, h.separated⟩
    | some e =>
      apply h.concat
      . rintro id ⟨req, hreq, _⟩
        exact hevent req (by rw [hreq])
      . intro id htaken _
        exact htaken.grown ht
  | updated id status =>
    apply h.concat
    . rintro id' ⟨req, hreq, _⟩
      cases hreq
    . intro id' htaken hreset
      apply htaken.setStatus
      intro heq hzero
      apply hreset
      rw [IsReset, heq, hzero]
  | claimed row hrow req hid =>
    apply h.claimed hrow
    rw [mem_pendingRequests] at hrow
    rcases mem_setStatus (s := Conn.open db) hrow.1 (.integer 1) req.id with ⟨row', hrow', heq, _⟩
    have hlt := hids row' hrow'
    rw [heq] at hlt
    rw [hid, Lib.toInt_ofNat hlt]

end Exclusive

namespace DbFile

variable {ι : Type} [DecidableEq ι] {f : DbFile ι}

theorem Phases.exec (h : f.Phases) (sched : List (FileAction ι)) : (f.exec sched).Phases := by
  induction sched generalizing f with
  | nil => exact h
  | cons act sched ih => exact ih (h.step act).1

theorem Phases.keeps (h : f.Phases) (sched : List (FileAction ι)) {row : Nat × RequestRow}
    (hrow : row ∈ f.committed.requests.rows)
    : ∃ row' ∈ (f.exec sched).committed.requests.rows, row'.1 = row.1 := by
  induction sched generalizing f row with
  | nil => exact ⟨row, hrow, rfl⟩
  | cons act sched ih =>
    have ⟨hphases, event, hchanged, _⟩ := h.step act
    rcases hchanged.keeps hrow with ⟨row₁, hrow₁, hid₁⟩
    rcases ih hphases hrow₁ with ⟨row₂, hrow₂, hid₂⟩
    exact ⟨row₂, hrow₂, hid₂.trans hid₁⟩

theorem exclusive_exec (h : f.Phases) (hexclusive : Exclusive f.committed f.log)
    (sched : List (FileAction ι)) (hids : ∀ row ∈ (f.exec sched).committed.requests.rows, row.1 < 2 ^ 31)
    : Exclusive (f.exec sched).committed (f.exec sched).log := by
  induction sched generalizing f with
  | nil => exact hexclusive
  | cons act sched ih =>
    have ⟨hphases, event, hchanged, hlog⟩ := h.step act
    apply ih hphases
    . rw [hlog]
      apply hexclusive.changed hchanged
      intro row hrow
      rcases hphases.keeps sched hrow with ⟨row', hrow', hid⟩
      rw [← hid]
      exact hids row' hrow'
    . exact hids

section Resave

variable {req : Request} {s : Conn} {c : Call}

theorem rows_saveCall (h : SaveCall (some req) c)
    (hrow : ∃ row ∈ s.db.requests.rows, row.2.key = req.boundKey) (env : CallEnv)
    : (answer c env s).2.db.requests.rows = s.db.requests.rows := by
  cases c with
  | exec cmd => cases h.2
  | step sql vs =>
    simp only [answer]
    split
    . rfl
    . have hsql : sql = .insertRequest ∨ sql = .selectRequestId := by
        simpa [UsesOnly] using h.2
      rcases hsql with rfl | rfl
      . rcases h.params_eq with ⟨req', hreq, rfl⟩
        cases hreq
        simp only [stepStatement]
        by_cases hurl : req.url = none
        . simp [stepInsertRequest, insertRequestValues, encodeRequest, hurl, textValue]
        . cases stepInsertRequest_cases (s := s) hurl env with
          | inl hstep =>
            rcases hrow with ⟨row, hrow, hkey⟩
            rw [hstep]
            cases hlookup : s.db.requests.lookup RequestRow.key req.boundKey with
            | some row' => exact rows_insertedRequest_of_some hlookup env
            | none =>
              rw [Table.lookup, List.find?_eq_none] at hlookup
              apply absurd _ (hlookup row hrow)
              rw [hkey, allSame_self (boundKey_ne_null hurl)]
          | inr hstep => rw [hstep.1]
      . rfl
  | prepare | bind | lastInsertRowid | malloc => rw [state_answer env s (by simp) (by simp)]

theorem committed_goOn (f : DbFile ι) (i : ι) (op : PendingOp) (p : DbProg PendingEvent)
    : (f.goOn i op p).committed = f.committed ∧ (f.goOn i op p).view i = f.view i := by
  unfold goOn
  split
  . exact ⟨rfl, rfl⟩
  . exact ⟨rfl, rfl⟩

theorem rows_step_saveRequest (h : f.Phases) {i : ι} {p : DbProg PendingEvent}
    (hrunning : f.running i = some (.saveRequest (some req), p))
    (hrow : ∃ row ∈ (f.view i).db.requests.rows, row.2.key = req.boundKey) (env : CallEnv)
    : (f.step (.call i env)).committed.requests.rows = f.committed.requests.rows ∧
        ((f.step (.call i env)).view i).db.requests.rows = (f.view i).db.requests.rows := by
  have hphase := h i _ p hrunning
  cases p with
  | ret event =>
    simp only [DbFile.step, hrunning]
    exact ⟨trivial, trivial⟩
  | call c k =>
    rcases hphase with ⟨q, hq, hcalls⟩
    cases q with
    | ret a => cases hq
    | call c' k' =>
      cases hq
      simp only [DbFile.step, hrunning]
      rw [(committed_goOn _ _ _ _).1, (committed_goOn _ _ _ _).2]
      cases hlocked : f.lockedFor i with
      | true =>
        rw [serve_of_lockedFor hlocked]
        exact ⟨rfl, rfl⟩
      | false =>
        have hrows := rows_saveCall hcalls.1 hrow env
        have hexec : ∀ cmd, c ≠ .exec cmd := by
          intro cmd heq
          have huses := hcalls.1.2
          rw [heq] at huses
          exact huses
        rw [committed_serve hexec hlocked]
        constructor
        . split
          . next hwritten => rw [hrows, db_view_of_written hwritten]
          . rfl
        . rw [serve_of_not_lockedFor hlocked, reliable_of_ne (hexec .commit), view_put_self, hrows]

end Resave

end DbFile

open DbFile in
/--
While the ids fit into an `int`, a request that was claimed is claimed again only after its status was
set to 0, and a save never changes the row that its request has.
-/
theorem dbGetNextPendingRequest_exclusive {ι : Type} [DecidableEq ι] (db : Database)
    (sched : List (FileAction ι))
    : let f := (ofDatabase db).exec sched
      (∀ row ∈ f.committed.requests.rows, row.1 < 2 ^ 31) →
        (∀ id, History.Separated (IsClaim id) (IsReset id) f.log) ∧
          ∀ i req p env, f.running i = some (.saveRequest (some req), p) →
            (∃ row ∈ (f.view i).db.requests.rows, row.2.key = req.boundKey) →
            (f.step (.call i env)).committed.requests.rows = f.committed.requests.rows ∧
              ((f.step (.call i env)).view i).db.requests.rows = (f.view i).db.requests.rows := by
  intro f hids
  have hphases : f.Phases := (phases_ofDatabase db).exec sched
  constructor
  . apply (exclusive_exec (phases_ofDatabase db) (exclusive_nil db) sched hids).separated
  . intro i req p env hrunning hrow
    exact rows_step_saveRequest hphases hrunning hrow env

section Examples

def calls {ι : Type} (i : ι) (n : Nat) (env : CallEnv) : List (FileAction ι) :=
  List.replicate n (.call i env)

-- A request is claimed by one connection, in vain by another one, and once more after a reset.
def claimTwice : List (FileAction Bool) :=
  [.start false (.saveRequest (some postRequest))] ++ calls false 16 default ++
    [.start false .getNextPendingRequest] ++ calls false 1 default ++
    [.start true .getNextPendingRequest] ++ calls true 1 default ++ calls false 9 default ++
    [.start true (.updateRequestStatus 1 0)] ++ calls true 4 default ++
    [.start true .getNextPendingRequest] ++ calls true 10 default

theorem dbGetNextPendingRequest_exclusive_claimTwice
    : let f := (DbFile.ofDatabase oneCollection.db).exec claimTwice
      f.log = [.saved sqliteOk (some { postRequest with id := 1 }), .claimed (.returned none),
          .claimed (.returned (some { postRequest with id := 1 })), .updated 1 0 sqliteOk,
          .claimed (.returned (some { postRequest with id := 1 }))] ∧
        ∀ id, History.Separated (IsClaim id) (IsReset id) f.log := by
  refine ⟨by decide +kernel, ?_⟩
  apply (dbGetNextPendingRequest_exclusive oneCollection.db claimTwice _).1
  decide +kernel

-- Two claims on a database whose only other row has an id beyond the range of an `int`.
def claimWrapped : List (FileAction Unit) :=
  [.start () .getNextPendingRequest] ++ calls () 10 { pick := 1 } ++
    [.start () .getNextPendingRequest] ++ calls () 10 { pick := 1 }

/-- Two claims in a row return the same id, because no row is found under it. -/
theorem dbGetNextPendingRequest_not_exclusive
    : (beyondInt.Reachable Request.WellFormed) ∧
        ((DbFile.ofDatabase beyondInt.db).exec claimWrapped).log =
          [.claimed (.returned (some { otherRequest with id := -2 ^ 31 })),
            .claimed (.returned (some { otherRequest with id := -2 ^ 31 }))] ∧
        ¬ History.Separated (IsClaim (-2 ^ 31)) (IsReset (-2 ^ 31))
          ((DbFile.ofDatabase beyondInt.db).exec claimWrapped).log := by
  have hlog : ((DbFile.ofDatabase beyondInt.db).exec claimWrapped).log =
      [.claimed (.returned (some { otherRequest with id := -2 ^ 31 })),
        .claimed (.returned (some { otherRequest with id := -2 ^ 31 }))] := by
    decide +kernel
  refine ⟨beyondInt_reachable, hlog, ?_⟩
  intro h
  rw [hlog] at h
  rcases h [] _ [] _ [] rfl ⟨_, rfl, rfl⟩ ⟨_, rfl, rfl⟩ with ⟨_, hr, _⟩
  cases hr

end Examples

end HttpRuntime
