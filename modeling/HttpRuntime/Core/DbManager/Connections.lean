import HttpRuntime.Core.DbManager.ClaimProgress
import HttpRuntime.Core.DbManager.Serializable

/-!
This module contains several connections to one database file, each of which calls functions of the
pending queue, with their single SQLite calls interleaved.

The file has one write lock. BEGIN IMMEDIATE takes it or fails, a statement that writes outside of a
transaction fails while another connection has it, and what is written in a transaction is seen by
its own connection only until COMMIT.
-/

open Lib Lib.Sql

namespace HttpRuntime

inductive PendingOp where
  | getNextPendingRequest
  | saveRequest (req : Option Request)
  | updateRequestStatus (id status : Int)

inductive PendingEvent where
  | claimed (out : Outcome (Option Request))
  | saved (rc : Int) (req : Option Request)
  | updated (id status rc : Int)
  deriving DecidableEq

def PendingOp.prog (op : PendingOp) : DbProg PendingEvent :=
  match op with
  | .getNextPendingRequest => dbGetNextPendingRequest.map .claimed
  | .saveRequest req => (dbSaveRequest req).map (fun res => .saved res.1 res.2)
  | .updateRequestStatus id status => (dbUpdateRequestStatus id status).map (.updated id status)

-- `writer` has the write lock, and `log` is in the order of the returns.
structure DbFile (ι : Type) where
  committed : Database
  writer : Option (ι × Database)
  lastRowid : ι → Nat
  running : ι → Option (PendingOp × DbProg PendingEvent)
  log : List PendingEvent

inductive FileAction (ι : Type) where
  | start (i : ι) (op : PendingOp)
  | call (i : ι) (env : CallEnv)

namespace DbFile

variable {ι : Type} [DecidableEq ι]

def ofDatabase (db : Database) : DbFile ι where
  committed := db
  writer := none
  lastRowid := fun _ => 0
  running := fun _ => none
  log := []

variable (f : DbFile ι)

-- What connection `i` has written in a transaction of its own.
def written (i : ι) : Option Database :=
  match f.writer with
  | some (j, db) => if j = i then some db else none
  | none => none

def lockedFor (i : ι) : Bool :=
  match f.writer with
  | some (j, _) => decide (j ≠ i)
  | none => false

/-- The file as connection `i` sees it. -/
def view (i : ι) : Conn :=
  match f.written i with
  | some db => { db := db, saved := some f.committed, lastRowid := f.lastRowid i }
  | none => { db := f.committed, saved := none, lastRowid := f.lastRowid i }

def put (i : ι) (s : Conn) : DbFile ι :=
  {
    f with
    committed := s.committed
    writer :=
      match s.saved with
      | some _ => some (i, s.db)
      | none => if f.lockedFor i then f.writer else none
    lastRowid := Function.update f.lastRowid i s.lastRowid
  }

end DbFile

-- The calls that need the write lock.
def Call.writes (c : Call) : Bool :=
  match c with
  | .exec .commit => false
  | .exec .rollback => false
  | .exec _ => true
  | .step .insertCollection _ => true
  | .step .insertResponse _ => true
  | .step .insertRequest _ => true
  | .step .updateRequestClaimed _ => true
  | .step .updateRequestStatus _ => true
  | _ => false

namespace DbFile

variable {ι : Type} [DecidableEq ι] (f : DbFile ι)

/-- One SQLite call of connection `i`. COMMIT succeeds. -/
def serve (i : ι) (c : Call) (env : CallEnv) : Reply × DbFile ι :=
  if f.lockedFor i && c.writes then
    (.error, f)
  else
    let res := reliable .commit c env (f.view i)
    (res.1, f.put i res.2)

-- Connection `i` has `p` of `op` left to do.
def goOn (i : ι) (op : PendingOp) (p : DbProg PendingEvent) : DbFile ι :=
  match p with
  | .ret event =>
    { f with running := Function.update f.running i none, log := f.log ++ [event] }
  | p => { f with running := Function.update f.running i (some (op, p)) }

def step (act : FileAction ι) : DbFile ι :=
  match act with
  | .start i op =>
    match f.running i with
    | none => f.goOn i op op.prog
    | some _ => f
  | .call i env =>
    match f.running i with
    | some (op, .call c k) =>
      let res := f.serve i c env
      res.2.goOn i op (k res.1)
    | _ => f

def exec (sched : List (FileAction ι)) : DbFile ι :=
  sched.foldl step f

section Serve

variable {f} {i j : ι} {c : Call}

theorem written_of_lockedFor (h : f.lockedFor i = true) : f.written i = none := by
  unfold lockedFor at h
  unfold written
  split
  . next j db hwriter =>
    rw [hwriter] at h
    simp only [decide_eq_true_eq] at h
    rw [if_neg h]
  . rfl

theorem writer_of_written {db : Database} (h : f.written i = some db) : f.writer = some (i, db) := by
  unfold written at h
  split at h
  . next j db' hwriter =>
    split at h
    . next hj =>
      rw [Option.some.injEq] at h
      rw [hwriter, hj, h]
    . cases h
  . cases h

theorem writer_of_not_lockedFor (hlocked : f.lockedFor i = false) (hwritten : f.written i = none)
    : f.writer = none := by
  unfold lockedFor at hlocked
  unfold written at hwritten
  split at hwritten
  . next j db hwriter =>
    rw [hwriter] at hlocked
    simp only [decide_eq_false_iff_not, not_not] at hlocked
    rw [if_pos hlocked] at hwritten
    cases hwritten
  . assumption

theorem lockedFor_of_written {db : Database} (h : f.written i = some db) (hne : j ≠ i)
    : f.lockedFor j = true := by
  unfold lockedFor
  rw [writer_of_written h]
  apply decide_eq_true
  exact hne.symm

theorem saved_view (f : DbFile ι) (i : ι)
    : (f.view i).saved = (f.written i).map (fun _ => f.committed) := by
  unfold view
  split
  . next hwritten => rw [hwritten, Option.map_some]
  . next hwritten => rw [hwritten, Option.map_none]

theorem committed_view (f : DbFile ι) (i : ι) : (f.view i).committed = f.committed := by
  unfold view
  split <;> rfl

theorem put_view (f : DbFile ι) (i : ι) : f.put i (f.view i) = f := by
  have hrowid : (f.view i).lastRowid = f.lastRowid i := by
    unfold view
    split <;> rfl
  unfold put
  rw [committed_view, saved_view, hrowid, Function.update_eq_self]
  cases hwritten : f.written i with
  | some db =>
    have hdb : (f.view i).db = db := by
      unfold view
      rw [hwritten]
    rw [Option.map_some, hdb, ← writer_of_written hwritten]
  | none =>
    rw [Option.map_none]
    cases hlocked : f.lockedFor i with
    | true => rfl
    | false =>
      simp only [Bool.false_eq_true, if_false]
      rw [← writer_of_not_lockedFor hlocked hwritten]

theorem written_put (f : DbFile ι) (i : ι) (s : Conn)
    : (f.put i s).written i = s.saved.map (fun _ => s.db) := by
  unfold put written
  cases hsaved : s.saved with
  | some db => simp
  | none =>
    cases hlocked : f.lockedFor i with
    | false => simp
    | true => exact written_of_lockedFor hlocked

theorem view_put_self (f : DbFile ι) (i : ι) (s : Conn) : (f.put i s).view i = s := by
  unfold view
  rw [written_put]
  cases hsaved : s.saved with
  | some db =>
    simp only [put, Option.map_some, Conn.committed, hsaved, Option.getD_some, Function.update_self]
    rw [← hsaved]
  | none =>
    simp only [put, Option.map_none, Conn.committed, hsaved, Option.getD_none, Function.update_self]
    rw [← hsaved]

theorem answer_of_not_writes (h : c.writes = false) (env : CallEnv) {s : Conn}
    (hidle : s.saved = none) : (answer c env s).2 = s := by
  cases c with
  | exec cmd =>
    simp only [answer]
    split
    . rfl
    . cases cmd with
      | commit => simp only [execCommand, hidle]
      | rollback => simp only [execCommand, hidle]
      | beginImmediate => cases h
      | deleteResponses => cases h
      | deleteRequests => cases h
      | deleteCollections => cases h
  | step sql vs =>
    simp only [answer]
    split
    . rfl
    . cases sql with
      | insertCollection => cases h
      | insertResponse => cases h
      | insertRequest => cases h
      | updateRequestClaimed => cases h
      | updateRequestStatus => cases h
      | selectCollectionId => rfl
      | selectRequestId => rfl
      | selectPendingRequest => rfl
      | selectLatestResponse => rfl
      | countResponses =>
        simp only [stepStatement]
        split <;> rfl
  | prepare | bind | lastInsertRowid | malloc => exact state_answer env s (by simp) (by simp)

theorem serve_of_lockedFor (h : f.lockedFor i = true) (c : Call) (env : CallEnv)
    : (f.serve i c env).2 = f := by
  unfold serve
  split
  . rfl
  . next hwrites =>
    rw [h, Bool.true_and, Bool.not_eq_true] at hwrites
    have hidle : (f.view i).saved = none := by
      rw [saved_view, written_of_lockedFor h, Option.map_none]
    have hstate : (reliable .commit c env (f.view i)).2 = f.view i := by
      unfold reliable
      split
      . exact answer_of_not_writes hwrites _ hidle
      . exact answer_of_not_writes hwrites _ hidle
    dsimp only
    rw [hstate, put_view]

theorem serve_of_not_lockedFor (h : f.lockedFor i = false) (c : Call) (env : CallEnv)
    : f.serve i c env =
        ((reliable .commit c env (f.view i)).1, f.put i (reliable .commit c env (f.view i)).2) := by
  unfold serve
  rw [h]
  rfl

end Serve

end DbFile

end HttpRuntime
