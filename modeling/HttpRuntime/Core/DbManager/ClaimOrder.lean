import HttpRuntime.Core.DbManager.IdRange

/-!
This module contains the order in which pending requests are claimed. `ORDER BY created_at` only
tells apart what was saved in different seconds.
-/

open Lib Lib.Sql

namespace HttpRuntime

inductive QueueCall where
  | save (req : Request) (es : List CallEnv)
  | claim (es : List CallEnv)

-- `saved` are the ids of the rows in the order in which they were added, `returned` what was claimed.
structure QueueRun where
  conn : Conn
  saved : List Int
  returned : List Int

def rowIds (rows : List (Nat × RequestRow)) : List Int := rows.map (fun row => (row.1 : Int))

namespace QueueRun

def start (s : Conn) : QueueRun where
  conn := s
  saved := rowIds (pendingRequests s.db)
  returned := []

def step (r : QueueRun) (call : QueueCall) : QueueRun :=
  match call with
  | .save req es =>
    let s := ((dbSaveRequest (some req)).run answer es r.conn).2
    let added := s.db.requests.rows.drop r.conn.db.requests.rows.length
    { r with conn := s, saved := r.saved ++ rowIds added }
  | .claim es =>
    let res := dbGetNextPendingRequest.run answer es r.conn
    { r with conn := res.2, returned := r.returned ++ (res.1.toOption.map Request.id).toList }

def exec (r : QueueRun) (calls : List QueueCall) : QueueRun := calls.foldl step r

end QueueRun

/-- No other pending row is as old as the one that was saved first, whose id is an `int`. -/
def OldestFirst (db : Database) : Prop :=
  ∀ row ∈ (pendingRequests db).head?,
    row.1 < 2 ^ 31 ∧ ∀ row' ∈ (pendingRequests db).tail, row.2.createdAt < row'.2.createdAt

instance (db : Database) : Decidable (OldestFirst db) :=
  inferInstanceAs (Decidable (∀ row ∈ (pendingRequests db).head?, _ ∧ ∀ row' ∈ _, _))

-- Every claim of the run starts where the order of the rows is the order of their age.
def Ordered (r : QueueRun) (calls : List QueueCall) : Prop :=
  match calls with
  | [] => True
  | .save req es :: calls => Ordered (r.step (.save req es)) calls
  | .claim es :: calls => OldestFirst r.conn.db ∧ Ordered (r.step (.claim es)) calls

instance Ordered.decidable (r : QueueRun) (calls : List QueueCall) : Decidable (Ordered r calls) :=
  match calls with
  | [] => isTrue trivial
  | .save req es :: calls => Ordered.decidable (r.step (.save req es)) calls
  | .claim es :: calls =>
    have := Ordered.decidable (r.step (.claim es)) calls
    inferInstanceAs (Decidable (OldestFirst r.conn.db ∧ Ordered (r.step (.claim es)) calls))

section Save

variable {req : Request} {s : Conn}

-- A lookup changes nothing.
theorem state_of_selectRequestId {α : Type} {p : DbProg α} (hp : p.Calls (UsesOnly [.selectRequestId]))
    (es : List CallEnv) (s : Conn) : (p.run answer es s).2 = s := by
  apply hp.run (I := fun s' => s' = s) _ es rfl
  intro c env s' hc hs'
  rw [← hs']
  cases c with
  | exec cmd => cases hc
  | step sql vs =>
    have hsql : sql = .selectRequestId := by
      simpa [UsesOnly] using hc
    subst hsql
    simp only [answer]
    split <;> rfl
  | prepare | bind | lastInsertRowid | malloc => exact state_answer env s' (by simp) (by simp)

/-- A save leaves the connection alone, or it comes to its INSERT. -/
theorem state_dbSaveRequest (req : Request) (es : List CallEnv) (s : Conn)
    : ((dbSaveRequest (some req)).run answer es s).2 = s ∨
        ∃ env, ((dbSaveRequest (some req)).run answer es s).2 =
          (stepInsertRequest env s (insertRequestValues req)).2 := by
  by_cases h : calm 10 es = true ∧ none ∉ insertRequestParams req
  . right
    unfold dbSaveRequest
    dsimp only
    rw [run_statement_of_calm (insertRequestParams_eq h.2) h.1]
    simp only [stepStatement]
    refine ⟨_, state_of_selectRequestId ?_ _ _⟩
    split
    . apply calls_usesOnly_statement
      . decide
      . trivial
      . intro r
        split <;> trivial
    . trivial
  . left
    rw [not_and_or, Bool.not_eq_true, not_not] at h
    rw [dbSaveRequest_not_calm h]

theorem rows_dbSaveRequest (req : Request) (es : List CallEnv) (s : Conn)
    : ((dbSaveRequest (some req)).run answer es s).2.db.requests.rows = s.db.requests.rows ∨
        ∃ id env, ((dbSaveRequest (some req)).run answer es s).2.db.requests.rows =
          s.db.requests.rows ++ [(id, requestRow req env)] := by
  rcases state_dbSaveRequest req es s with h | ⟨env, h⟩
  . rw [h]
    exact Or.inl rfl
  . rw [h]
    by_cases hurl : req.url = none
    . left
      simp [stepInsertRequest, insertRequestValues, encodeRequest, hurl, textValue]
    . cases stepInsertRequest_cases (s := s) hurl env with
      | inl hstep =>
        rw [hstep]
        cases hlookup : s.db.requests.lookup RequestRow.key req.boundKey with
        | some row =>
          left
          exact rows_insertedRequest_of_some hlookup env
        | none =>
          right
          exact ⟨_, env, rows_insertedRequest_of_none hlookup env⟩
      | inr hstep =>
        left
        rw [hstep.1]

end Save

section Claim

variable {es : List CallEnv} {s : Conn}

/-- Whichever of its calls fail, a claim marks the row that it returns, or it marks none. -/
theorem dbGetNextPendingRequest_cases (es : List CallEnv) (s : Conn)
    : ((dbGetNextPendingRequest.run answer es s).1.toOption = none ∧
          (dbGetNextPendingRequest.run answer es s).2.db = s.db) ∨
        ∃ row req,
          pickedRow (pickOf es) s.db = some row ∧
          (dbGetNextPendingRequest.run answer es s).1.toOption = some req ∧
          req.id = Lib.toInt row.1 ∧
          (dbGetNextPendingRequest.run answer es s).2.db =
            (setStatus s (.integer 1) (.integer req.id)).db := by
  cases hbegin : answer (.exec .beginImmediate) (es.headD default) s with
  | mk reply s₁ =>
    by_cases hok : reply = .ok
    . have hs₁ : s₁.db = s.db ∧ s₁.saved = some s.db := by
        simp only [answer, execCommand] at hbegin
        grind
      rw [hok] at hbegin
      rcases plain_answer.run_dbGetNextPendingRequest hbegin with
        ⟨row, req, hclaims, hrun⟩ | ⟨_, out, es', _, hout, hrun⟩
      . right
        rw [hrun]
        refine ⟨row, req, ?_, rfl, id_of_decodeRequest hclaims.decoded, ?_⟩
        . rw [← hs₁.1]
          exact hclaims.picked
        . have hset : (setStatus s₁ (.integer 1) (.integer req.id)).db =
              (setStatus s (.integer 1) (.integer req.id)).db := by
            unfold setStatus
            rw [hs₁.1]
          rw [← hset]
          simp only [answer, execCommand]
          grind
      . left
        rw [hrun]
        refine ⟨hout, ?_⟩
        simp only [answer, execCommand]
        grind
    . left
      have hs₁ : s₁ = s := by
        simp only [answer, execCommand] at hbegin
        grind
      rw [dbGetNextPendingRequest_eq, Prog.run_call, hbegin, hs₁]
      split
      . next heq => exact absurd heq hok
      . exact ⟨rfl, rfl⟩

theorem pickedRow_of_oldestFirst {row : Nat × RequestRow} {rest : List (Nat × RequestRow)}
    (h : OldestFirst s.db) (hpending : pendingRequests s.db = row :: rest) (pick : Nat)
    : pickedRow pick s.db = some row := by
  have hyounger : ∀ row' ∈ rest, row.2.createdAt < row'.2.createdAt := by
    have := h row (by rw [hpending]; rfl)
    rw [hpending] at this
    exact this.2
  have holdest : oldestPending s.db = [row] := by
    unfold oldestPending
    rw [hpending, List.filter_cons, if_pos, List.cons.injEq]
    . refine ⟨rfl, ?_⟩
      rw [List.filter_eq_nil_iff]
      intro row' hrow' hall
      rw [List.all_eq_true] at hall
      have hle := hall row (List.mem_cons_self ..)
      have hlt := hyounger row' hrow'
      rw [decide_eq_true_iff] at hle
      omega
    . rw [List.all_eq_true]
      intro row' hrow'
      rw [decide_eq_true_iff]
      rw [List.mem_cons] at hrow'
      rcases hrow' with rfl | hrow'
      . exact Nat.le_refl _
      . have := hyounger row' hrow'
        omega
  unfold pickedRow
  rw [holdest, List.length_singleton, Nat.mod_one]
  rfl

end Claim

section Run

def Balanced (r : QueueRun) : Prop :=
  r.saved = r.returned ++ rowIds (pendingRequests r.conn.db)

variable {r : QueueRun}

theorem balanced_start (s : Conn) : Balanced (QueueRun.start s) := rfl

theorem Balanced.save (h : Balanced r) (req : Request) (es : List CallEnv)
    : Balanced (r.step (.save req es)) := by
  unfold Balanced at h ⊢
  simp only [QueueRun.step, pendingRequests] at h ⊢
  rcases rows_dbSaveRequest req es r.conn with hrows | ⟨id, env, hrows⟩
  . rw [hrows, List.drop_length, h]
    simp [rowIds]
  . have hpending : (requestRow req env).status.same (.integer 0) = true := rfl
    rw [hrows, List.drop_left, List.filter_append, List.filter_singleton, hpending, h]
    simp [rowIds]

theorem Balanced.claim (h : Balanced r) (horder : OldestFirst r.conn.db) (es : List CallEnv)
    : Balanced (r.step (.claim es)) := by
  unfold Balanced at h ⊢
  simp only [QueueRun.step]
  rcases dbGetNextPendingRequest_cases es r.conn with
    ⟨hnone, hdb⟩ | ⟨row, req, hpicked, hsome, hid, hdb⟩
  . rw [hnone, hdb, h]
    simp
  . have hmem := mem_pendingRequests_of_pickedRow hpicked
    cases hpending : pendingRequests r.conn.db with
    | nil =>
      rw [hpending] at hmem
      cases hmem
    | cons first rest =>
      rw [pickedRow_of_oldestFirst horder hpending, Option.some.injEq] at hpicked
      have hfirst := (horder first (by rw [hpending]; rfl)).1
      have hincreasing := increasing_pendingRequests r.conn.db
      rw [hpending, List.pairwise_cons] at hincreasing
      rw [← hpicked, Lib.toInt_ofNat hfirst] at hid
      have hrest : (first :: rest).filter (fun r => !decide ((r.1 : Int) = req.id)) = rest := by
        rw [List.filter_cons, if_neg (by simp [hid]), List.filter_eq_self]
        intro row' hrow'
        have := hincreasing.1 row' hrow'
        rw [Bool.not_eq_true', decide_eq_false_iff_not]
        omega
      rw [hsome, hdb, pendingRequests_setStatus, hpending, hrest, h, hpending]
      simp [rowIds, hid]

theorem Balanced.exec (h : Balanced r) {calls : List QueueCall} (horder : Ordered r calls)
    : Balanced (r.exec calls) := by
  induction calls generalizing r with
  | nil => exact h
  | cons call calls ih =>
    cases call with
    | save req es => exact ih (h.save req es) horder
    | claim es => exact ih (h.claim horder.1 es) horder.2

/--
In every run of saves and claims in which no claim starts with a tie, the requests are claimed in the
order in which they were saved.
-/
theorem dbGetNextPendingRequest_fifo (s : Conn) (calls : List QueueCall)
    (horder : Ordered (QueueRun.start s) calls)
    : ((QueueRun.start s).exec calls).returned <+: ((QueueRun.start s).exec calls).saved := by
  rw [(balanced_start s).exec horder]
  exact List.prefix_append _ _

end Run

section Examples

-- Two requests are saved in different seconds, the second one after a claim.
def twoSeconds : List QueueCall :=
  [.save postRequest [], .claim [], .save otherRequest (List.replicate 16 { now := 1 }), .claim []]

theorem dbGetNextPendingRequest_fifo_twoSeconds
    : ((QueueRun.start oneCollection).exec twoSeconds).returned = [1, 2] ∧
        ((QueueRun.start oneCollection).exec twoSeconds).returned <+:
          ((QueueRun.start oneCollection).exec twoSeconds).saved := by
  refine ⟨by decide +kernel, ?_⟩
  apply dbGetNextPendingRequest_fifo
  decide +kernel

-- Two requests are saved in one second, and SQLite puts the second one first.
def oneSecond : List QueueCall :=
  [.save postRequest [], .save otherRequest [], .claim (List.replicate 10 { pick := 1 }), .claim []]

theorem dbGetNextPendingRequest_not_fifo
    : oneCollection.Reachable Request.WellFormed ∧
        ((QueueRun.start oneCollection).exec oneSecond).saved = [1, 2] ∧
        ((QueueRun.start oneCollection).exec oneSecond).returned = [2, 1] ∧
        ¬ (((QueueRun.start oneCollection).exec oneSecond).returned <+:
          ((QueueRun.start oneCollection).exec oneSecond).saved) := by
  refine ⟨oneCollection_reachable, by decide +kernel, by decide +kernel, by decide +kernel⟩

end Examples

end HttpRuntime
