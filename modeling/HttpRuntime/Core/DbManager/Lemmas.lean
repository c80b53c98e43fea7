import HttpRuntime.Core.DbManager.Basic

/-!
This module contains what a run of the parts of `db_manager.c` amounts to: how a statement can end,
and what each function answers and leaves behind, whichever of its calls fail.
-/

open Lib Lib.Sql

namespace HttpRuntime

variable {α : Type}

-- The first `n` calls do not fail for reasons of their own.
def calm (n : Nat) (es : List CallEnv) : Bool :=
  (es.take n).all (fun e => !e.fault)

@[simp]
theorem calm_zero (es : List CallEnv) : calm 0 es = true := rfl

theorem calm_succ (n : Nat) (es : List CallEnv)
    : calm (n + 1) es = (!(es.headD default).fault && calm n es.tail) := by
  cases es with
  | nil => cases n <;> rfl
  | cons e es => rfl

theorem calm_add (m n : Nat) (es : List CallEnv)
    : calm (m + n) es = (calm m es && calm n (es.drop m)) := by
  unfold calm
  rw [List.take_add, List.all_append]

theorem calm_one (es : List CallEnv) : calm 1 es = !(es.headD default).fault := by
  rw [calm_succ, calm_zero, Bool.and_true]

theorem calm_of_forall {es : List CallEnv} (h : ∀ e ∈ es, e.fault = false) (n : Nat)
    : calm n es = true := by
  unfold calm
  rw [List.all_eq_true]
  intro e he
  rw [h e (List.mem_of_mem_take he)]
  rfl

theorem run_bindAll_of_calm {vs : List Value} {es : List CallEnv} (h : calm vs.length es = true)
    (failure : DbProg α) (k : List Value → DbProg α) (s : Conn)
    : (bindAll (vs.map some) failure k).run answer es s =
        (k vs).run answer (es.drop vs.length) s := by
  induction vs generalizing es k with
  | nil => rfl
  | cons v vs ih =>
    rw [List.length_cons, calm_succ, Bool.and_eq_true, Bool.not_eq_true'] at h
    rw [List.map_cons, bindAll, Prog.run_call]
    simp only [answer, h.1, Bool.false_eq_true, if_false]
    rw [ih h.2, List.length_cons, List.drop_tail]

theorem run_bindAll_of_not_calm {params : List (Option Value)} {es : List CallEnv}
    (h : calm params.length es = false ∨ none ∈ params) (a : α) (k : List Value → DbProg α)
    (s : Conn) : (bindAll params (.ret a) k).run answer es s = (a, s) := by
  induction params generalizing es k with
  | nil => simp at h
  | cons param params ih =>
    rw [bindAll, Prog.run_call]
    cases param with
    | none => rfl
    | some v =>
      cases hfault : (es.headD default).fault with
      | true =>
        simp only [answer, hfault, if_true]
        rfl
      | false =>
        simp only [answer, hfault, Bool.false_eq_true, if_false]
        apply ih
        cases h with
        | inl h =>
          left
          rw [List.length_cons, calm_succ, hfault] at h
          simpa using h
        | inr h =>
          right
          simpa using h

/-- What holds of the end of a statement and survives local calls holds of the whole statement. -/
theorem bindAll_induction {P : DbProg α → Prop}
    (hbind : ∀ param k, (∀ r, P (k r)) → P (.call (.bind param) k)) {failure : DbProg α}
    (hfailure : P failure) {params : List (Option Value)} {k : List Value → DbProg α}
    (hk : ∀ vs, params = vs.map some → P (k vs)) : P (bindAll params failure k) := by
  induction params generalizing k with
  | nil => exact hk [] rfl
  | cons param params ih =>
    apply hbind
    intro r
    split
    . next v =>
      apply ih
      intro vs hvs
      apply hk
      rw [hvs, List.map_cons]
    . exact hfailure

theorem statement_induction {P : DbProg α → Prop}
    (hprepare : ∀ sql k, (∀ r, P (k r)) → P (.call (.prepare sql) k))
    (hbind : ∀ param k, (∀ r, P (k r)) → P (.call (.bind param) k)) {failure : DbProg α}
    (hfailure : P failure) {sql : Sql} {params : List (Option Value)} {k : Reply → DbProg α}
    (hk : ∀ vs, params = vs.map some → P (.call (.step sql vs) k))
    : P (statement sql params failure k) := by
  apply hprepare
  intro r
  split
  . exact bindAll_induction hbind hfailure hk
  . exact hfailure

section Statement

variable {sql : Sql} {params : List (Option Value)} {vs : List Value} {es : List CallEnv}

theorem exists_map_some (h : none ∉ params) : ∃ vs : List Value, params = vs.map some := by
  induction params with
  | nil => exact ⟨[], rfl⟩
  | cons param params ih =>
    rw [List.mem_cons, not_or] at h
    rcases ih h.2 with ⟨vs, hvs⟩
    cases param with
    | none => exact absurd rfl h.1
    | some v => exact ⟨v :: vs, by rw [hvs, List.map_cons]⟩

theorem run_statement_of_prepared (hparams : params = vs.map some)
    (h : calm (vs.length + 1) es = true) (failure : DbProg α) (k : Reply → DbProg α) (s : Conn)
    : (statement sql params failure k).run answer es s =
        (Prog.call (.step sql vs) k).run answer (es.drop (vs.length + 1)) s := by
  rw [calm_succ, Bool.and_eq_true, Bool.not_eq_true'] at h
  rw [statement, Prog.run_call]
  simp only [answer, h.1, Bool.false_eq_true, if_false]
  rw [hparams, run_bindAll_of_calm h.2, List.drop_tail]

theorem run_statement_of_unprepared (h : calm (params.length + 1) es = false ∨ none ∈ params)
    (a : α) (k : Reply → DbProg α) (s : Conn)
    : (statement sql params (.ret a) k).run answer es s = (a, s) := by
  rw [statement, Prog.run_call]
  cases hfault : (es.headD default).fault with
  | true =>
    simp only [answer, hfault, if_true]
    rfl
  | false =>
    simp only [answer, hfault, Bool.false_eq_true, if_false]
    apply run_bindAll_of_not_calm
    cases h with
    | inl h =>
      left
      rw [calm_succ, hfault] at h
      simpa using h
    | inr h => exact Or.inr h

theorem run_statement_of_calm (hparams : params = vs.map some) (h : calm (vs.length + 2) es = true)
    (failure : DbProg α) (k : Reply → DbProg α) (s : Conn)
    : (statement sql params failure k).run answer es s =
        (k (stepStatement ((es.drop (vs.length + 1)).headD default) s sql vs).1).run answer
          (es.drop (vs.length + 2))
          (stepStatement ((es.drop (vs.length + 1)).headD default) s sql vs).2 := by
  rw [calm_add (vs.length + 1) 1, calm_one, Bool.and_eq_true, Bool.not_eq_true'] at h
  rw [run_statement_of_prepared hparams h.1, Prog.run_call, List.tail_drop]
  simp only [answer, h.2, Bool.false_eq_true, if_false]

/-- Where a refused step is a failure like all others, a statement changes nothing unless it is stepped. -/
theorem run_statement_of_not_calm (h : calm (params.length + 2) es = false ∨ none ∈ params)
    {a : α} {k : Reply → DbProg α} (hk : k .error = .ret a) (s : Conn)
    : (statement sql params (.ret a) k).run answer es s = (a, s) := by
  by_cases hunprepared : calm (params.length + 1) es = false ∨ none ∈ params
  . exact run_statement_of_unprepared hunprepared a k s
  . rw [not_or, Bool.not_eq_false] at hunprepared
    rcases exists_map_some hunprepared.2 with ⟨vs, hvs⟩
    have hlength : params.length = vs.length := by rw [hvs, List.length_map]
    rw [hlength] at h hunprepared
    rw [run_statement_of_prepared hvs hunprepared.1, Prog.run_call]
    have hfault : ((es.drop (vs.length + 1)).headD default).fault = true := by
      cases h with
      | inl h =>
        rw [calm_add (vs.length + 1) 1, hunprepared.1, calm_one] at h
        simpa using h
      | inr h => exact absurd h hunprepared.2
    simp only [answer, hfault, if_true]
    rw [hk, Prog.run_ret]

/-- Where every failure is the same, a statement fails without a trace or it is stepped once. -/
theorem run_statement_cases (sql : Sql) {a : α} {k : Reply → DbProg α} (hk : k .error = .ret a)
    (params : List (Option Value)) (es : List CallEnv) (s : Conn)
    : (statement sql params (.ret a) k).run answer es s = (a, s) ∨
        ∃ vs env es',
          params = vs.map some ∧
          (statement sql params (.ret a) k).run answer es s =
            (k (stepStatement env s sql vs).1).run answer es' (stepStatement env s sql vs).2 := by
  by_cases h : calm (params.length + 2) es = true ∧ none ∉ params
  . right
    rcases exists_map_some h.2 with ⟨vs, hvs⟩
    have hlength : params.length = vs.length := by rw [hvs, List.length_map]
    rw [hlength] at h
    exact ⟨vs, _, _, hvs, run_statement_of_calm hvs h.1 _ k s⟩
  . left
    rw [not_and_or, Bool.not_eq_true, not_not] at h
    exact run_statement_of_not_calm h hk s

end Statement

section Calls

variable {P : Call → Prop}

theorem calls_statement (hbind : ∀ p, P (.bind p)) (hprepare : ∀ sql, P (.prepare sql)) {sql : Sql}
    {params : List (Option Value)} (hstep : ∀ vs, params = vs.map some → P (.step sql vs))
    {failure : DbProg α} (hfailure : failure.Calls P) {k : Reply → DbProg α}
    (hk : ∀ r, (k r).Calls P) : (statement sql params failure k).Calls P := by
  apply statement_induction (P := fun p => p.Calls P)
  . intro sql k hk
    exact ⟨hprepare sql, hk⟩
  . intro param k hk
    exact ⟨hbind param, hk⟩
  . exact hfailure
  . intro vs hvs
    exact ⟨hstep vs hvs, hk⟩

-- The shape of the saves that look up the id of their row.
theorem calls_insertThenSelect (hbind : ∀ p, P (.bind p)) (hprepare : ∀ sql, P (.prepare sql))
    {ins sel : Sql} (hins : ∀ vs, P (.step ins vs)) (hsel : ∀ vs, P (.step sel vs))
    {params params' : List (Option Value)} {a : α} {k : Reply → DbProg α}
    (hret : ∀ r, ∃ b, k r = .ret b)
    : (statement ins params (.ret a) fun r =>
        match r with
        | .done => statement sel params' (.ret a) k
        | _ => .ret a).Calls P := by
  apply calls_statement hbind hprepare
  . exact fun vs _ => hins vs
  . trivial
  . intro r
    split
    . apply calls_statement hbind hprepare
      . exact fun vs _ => hsel vs
      . trivial
      . intro r
        rcases hret r with ⟨b, hb⟩
        rw [hb]
        trivial
    . trivial

def UsesOnly (sqls : List Sql) (c : Call) : Prop :=
  match c with
  | .exec _ => False
  | .step sql _ => sql ∈ sqls
  | _ => True

theorem ne_exec_of_usesOnly {sqls : List Sql} (c : Call) (h : UsesOnly sqls c) (cmd : Command)
    : c ≠ .exec cmd := by
  rintro rfl
  exact h

theorem calls_usesOnly_statement {sqls : List Sql} {sql : Sql} (hsql : sql ∈ sqls)
    {params : List (Option Value)} {failure : DbProg α} (hfailure : failure.Calls (UsesOnly sqls))
    {k : Reply → DbProg α} (hk : ∀ r, (k r).Calls (UsesOnly sqls))
    : (statement sql params failure k).Calls (UsesOnly sqls) :=
  calls_statement (fun _ => trivial) (fun _ => trivial) (fun _ _ => hsql) hfailure hk

theorem calls_safeCopy (hmalloc : P .malloc) {src : Option Bytes} {len : Nat}
    {crash : DbProg α} (hcrash : crash.Calls P) {k : Option Bytes → DbProg α}
    (hk : ∀ copy, (k copy).Calls P) : (safeCopy src len crash k).Calls P := by
  unfold safeCopy
  split
  . exact hk none
  . refine ⟨hmalloc, ?_⟩
    intro r
    dsimp only
    split
    . split
      . exact hcrash
      . exact hk _
    . exact hk none

theorem calls_mapRowToRequest (hmalloc : P .malloc) {cols : List Value} {crash : DbProg α}
    (hcrash : crash.Calls P) {k : Option Request → DbProg α} (hk : ∀ req, (k req).Calls P)
    : (mapRowToRequest cols crash k).Calls P := by
  refine ⟨hmalloc, ?_⟩
  intro r
  dsimp only
  split
  . apply calls_safeCopy hmalloc hcrash
    intro url
    apply calls_safeCopy hmalloc hcrash
    intro headers
    apply calls_safeCopy hmalloc hcrash
    intro body
    split <;> [skip; split <;> [skip; split]]
    all_goals exact hk _
  . exact hk none

theorem calls_dbSaveCollection (coll : Option Collection)
    : (dbSaveCollection coll).Calls (UsesOnly [.insertCollection, .selectCollectionId]) := by
  cases coll with
  | none => trivial
  | some coll =>
    apply calls_insertThenSelect
    . exact fun _ => trivial
    . exact fun _ => trivial
    . simp [UsesOnly]
    . simp [UsesOnly]
    . intro r
      split
      all_goals exact ⟨_, rfl⟩

theorem calls_dbSaveRequest (req : Option Request)
    : (dbSaveRequest req).Calls (UsesOnly [.insertRequest, .selectRequestId]) := by
  cases req with
  | none => trivial
  | some req =>
    apply calls_insertThenSelect
    . exact fun _ => trivial
    . exact fun _ => trivial
    . simp [UsesOnly]
    . simp [UsesOnly]
    . intro r
      split
      all_goals exact ⟨_, rfl⟩

theorem calls_dbSaveResponse (resp : Option Response)
    : (dbSaveResponse resp).Calls (UsesOnly [.insertResponse]) := by
  cases resp with
  | none => trivial
  | some resp =>
    apply calls_usesOnly_statement
    . decide
    . trivial
    . intro r
      split
      . refine ⟨trivial, ?_⟩
        intro r
        dsimp only
        split <;> trivial
      . trivial

theorem calls_dbUpdateRequestStatus (id status : Int)
    : (dbUpdateRequestStatus id status).Calls (UsesOnly [.updateRequestStatus]) := by
  apply calls_usesOnly_statement
  . decide
  . trivial
  . intro r
    split <;> trivial

end Calls

end HttpRuntime
