import HttpRuntime.Core.DbManager.SaveRequest

/-!
This module contains what the functions of `db_manager.c` do that save a collection or a request: how
the tables grow, and what decides the results.
-/

open Lib Lib.Sql

namespace HttpRuntime

variable {s : Conn} {req : Request} {coll : Collection} {es : List CallEnv}

structure Conn.GrownTo (s s' : Conn) : Prop where
  collections : Table.Grown CollectionRow.key s.db.collections s'.db.collections
  requests : Table.Grown RequestRow.key s.db.requests s'.db.requests
  responses : s'.db.responses = s.db.responses

theorem Conn.GrownTo.refl (s : Conn) : s.GrownTo s := ⟨.same, .same, rfl⟩

theorem Stepped.grown_insertRequest {s' : Conn} (h : Stepped s .insertRequest s')
    : s.GrownTo s' ∧ s'.db.collections = s.db.collections := by
  cases h with
  | same => exact ⟨.refl s, rfl⟩
  | insertRequest t rowid ht =>
    exact ⟨⟨.same, .of_or ht, rfl⟩, rfl⟩
  | update sql hupdate =>
    rcases hupdate with hupdate | hupdate
    all_goals cases hupdate

theorem Stepped.grown_insertCollection {s' : Conn} (h : Stepped s .insertCollection s')
    : s.GrownTo s' ∧ s'.db.requests = s.db.requests := by
  cases h with
  | same => exact ⟨.refl s, rfl⟩
  | insertCollection t rowid ht =>
    exact ⟨⟨.of_or ht, .same, rfl⟩, rfl⟩
  | update sql hupdate =>
    rcases hupdate with hupdate | hupdate
    all_goals cases hupdate

theorem stepped_insertThenSelect {α : Type} {ins sel : Sql} {params params' : List (Option Value)}
    {a : α} {k : Reply → DbProg α} (hk : k .error = .ret a) (hret : ∀ r, ∃ b, k r = .ret b)
    (hsel : ∀ env s vs, (stepStatement env s sel vs).2 = s) (es : List CallEnv) (s : Conn)
    : Stepped s ins
        ((statement ins params (.ret a) fun r =>
          match r with
          | .done => statement sel params' (.ret a) k
          | _ => .ret a).run answer es s).2 := by
  rcases run_statement_cases ins (k := fun r =>
      match r with
      | .done => statement sel params' (.ret a) k
      | _ => .ret a) rfl params es s with hrun | ⟨vs, env, es', _, hrun⟩
  . rw [hrun]
    exact .same ins
  . rw [hrun]
    have hstepped := stepped_stepStatement env s ins vs
    split
    . rcases run_statement_cases sel hk params' es' (stepStatement env s ins vs).2 with
        hrun' | ⟨vs', env', es'', _, hrun'⟩
      . rw [hrun']
        exact hstepped
      . rw [hrun', hsel]
        rcases hret (stepStatement env' (stepStatement env s ins vs).2 sel vs').1 with ⟨b, hb⟩
        rw [hb]
        exact hstepped
    . exact hstepped

theorem stepped_dbSaveRequest (req : Request) (es : List CallEnv) (s : Conn)
    : Stepped s .insertRequest ((dbSaveRequest (some req)).run answer es s).2 := by
  apply stepped_insertThenSelect
  . rfl
  . intro r
    split
    all_goals exact ⟨_, rfl⟩
  . intro env s vs
    rfl

theorem stepped_dbSaveCollection (coll : Collection) (es : List CallEnv) (s : Conn)
    : Stepped s .insertCollection ((dbSaveCollection (some coll)).run answer es s).2 := by
  apply stepped_insertThenSelect
  . rfl
  . intro r
    split
    all_goals exact ⟨_, rfl⟩
  . intro env s vs
    rfl

section SaveRequest

/-- The calls of `db_save_request` go through, and the lookup compares with no NULL. -/
def Savable (req : Request) (es : List CallEnv) : Prop :=
  calm 10 es = true ∧ none ∉ insertRequestParams req ∧ req.url ≠ none ∧ req.body ≠ none ∧
    calm 6 (es.drop 10) = true

instance (req : Request) (es : List CallEnv) : Decidable (Savable req es) :=
  inferInstanceAs (Decidable (_ ∧ _))

-- A lookup that compares with NULL ends as a failure does.
theorem run_selectRequestId_of_null_mem {α : Type} {params : List (Option Value)} {a : α}
    {k : Reply → DbProg α} (herror : k .error = .ret a) (hdone : k .done = .ret a)
    (hnull : some .null ∈ params)
    : (statement .selectRequestId params (.ret a) k).run answer es s = (a, s) := by
  rcases run_statement_cases .selectRequestId herror params es s with hrun | ⟨vs, env, es', hvs, hrun⟩
  . exact hrun
  . rw [hvs, List.mem_map] at hnull
    rcases hnull with ⟨v, hv, heq⟩
    rw [Option.some.injEq] at heq
    rw [heq] at hv
    rw [hrun]
    simp only [stepStatement, stepSelectRequestId]
    rw [Table.lookup_of_null_mem hv, hdone]
    rfl

/-- A request without a URL is ignored by the INSERT and not found by the lookup. -/
theorem dbSaveRequest_of_url_eq_none (hcalm : calm 10 es = true)
    (hbound : none ∉ insertRequestParams req) (hurl : req.url = none)
    : ((dbSaveRequest (some req)).run answer es s).1 = (sqliteError, some req) := by
  have hdone : (stepInsertRequest ((es.drop 9).headD default) s (insertRequestValues req)).1 = .done := by
    have hnull : (encodeRequest req (.integer 0) 0).url = .null := textValue_eq_null.mpr hurl
    unfold stepInsertRequest insertRequestValues
    dsimp only
    rw [if_pos hnull]
  have hmem : some .null ∈ selectRequestParams req := by
    simp [selectRequestParams, hurl, bindText, textValue, Value.size]
  rw [run_selectRequestId hcalm hbound hdone, run_selectRequestId_of_null_mem ?_ ?_ hmem]
  all_goals rfl

variable (hcoll : ∃ row ∈ s.db.collections.rows, req.collectionId = row.1)

include hcoll

theorem dbSaveRequest_of_savable (h : Savable req es)
    : ∃ row,
        (dbSaveRequest (some req)).run answer es s =
          ((sqliteOk, some { req with id := Lib.toInt row.1 }),
            insertedRequest ((es.drop 9).headD default) s req) ∧
        (insertedRequest ((es.drop 9).headD default) s req).db.requests.lookup RequestRow.key
          req.boundKey = some row := by
  rcases h with ⟨hcalm, hbound, hurl, hbody, hlookup⟩
  have hstep := stepInsertRequest_run hurl hcoll ((es.drop 9).headD default)
  exact ⟨_, dbSaveRequest_found hcalm hbound hstep hurl hbody hlookup, lookup_insertedRequest hurl _⟩

theorem dbSaveRequest_of_not_savable (h : ¬ Savable req es)
    : ((dbSaveRequest (some req)).run answer es s).1 = (sqliteError, some req) := by
  by_cases hins : calm 10 es = true ∧ none ∉ insertRequestParams req
  . by_cases hurl : req.url = none
    . exact dbSaveRequest_of_url_eq_none hins.1 hins.2 hurl
    . have hstep := stepInsertRequest_run hurl hcoll ((es.drop 9).headD default)
      rw [dbSaveRequest_not_found hins.1 hins.2 hstep]
      by_contra hgo
      rw [not_or, Bool.not_eq_false] at hgo
      exact h ⟨hins.1, hins.2, hurl, hgo.1, hgo.2⟩
  . rw [not_and_or, Bool.not_eq_true, not_not] at hins
    rw [dbSaveRequest_not_calm hins]

end SaveRequest

section SaveCollection

theorem stepInsertCollection_done (name nameLen : Value)
    : (stepInsertCollection s [name, nameLen]).1 = .done := by
  unfold stepInsertCollection
  dsimp only
  split <;> rfl

theorem dbSaveCollection_cases (coll : Collection) (es : List CallEnv) (s : Conn)
    : ((dbSaveCollection (some coll)).run answer es s).1 = (sqliteError, some coll) ∨
        ∃ row,
          ((dbSaveCollection (some coll)).run answer es s).1 =
            (sqliteOk, some { coll with id := Lib.toInt row.1 }) ∧
          ((dbSaveCollection (some coll)).run answer es s).2.db.collections.lookup CollectionRow.key
            [textValue coll.name coll.nameLen] = some row := by
  unfold dbSaveCollection
  dsimp only
  by_cases hins : calm 4 es = true ∧ bindText coll.name coll.nameLen ≠ none
  . have hname := bindText_of_ne_none hins.2
    have hparams : [bindText coll.name coll.nameLen, bindInt (Lib.toInt coll.nameLen)] =
        [textValue coll.name coll.nameLen, .integer (Lib.toInt coll.nameLen)].map some := by
      rw [hname]
      rfl
    have hparams' : [bindText coll.name coll.nameLen] = [textValue coll.name coll.nameLen].map some := by
      rw [hname]
      rfl
    rw [run_statement_of_calm hparams hins.1]
    simp only [stepStatement, List.length_cons, List.length_nil]
    rw [stepInsertCollection_done]
    dsimp only
    cases hcalm : calm 3 (es.drop 4) with
    | false =>
      left
      refine congrArg Prod.fst (run_statement_of_not_calm ?_ ?_ _)
      . exact Or.inl hcalm
      . rfl
    | true =>
      rw [run_statement_of_calm hparams' hcalm]
      simp only [stepStatement, stepSelectCollectionId]
      cases hlookup : (stepInsertCollection s
        [textValue coll.name coll.nameLen, .integer (Lib.toInt coll.nameLen)]).2.db.collections.lookup
          CollectionRow.key [textValue coll.name coll.nameLen] with
      | some row => exact Or.inr ⟨row, rfl, hlookup⟩
      | none => exact Or.inl rfl
  . left
    rw [not_and_or, Bool.not_eq_true, not_not] at hins
    refine congrArg Prod.fst (run_statement_of_not_calm ?_ ?_ s)
    . cases hins with
      | inl hins => exact Or.inl hins
      | inr hins => exact Or.inr (by simp [hins])
    . rfl

-- The calls that use nothing but the collections.
def OnCollections (c : Call) : Prop :=
  UsesOnly [.insertCollection, .selectCollectionId] c ∧ c ≠ .lastInsertRowid

theorem calls_onCollections_dbSaveCollection (coll : Collection)
    : (dbSaveCollection (some coll)).Calls OnCollections := by
  apply calls_insertThenSelect
  . simp [OnCollections, UsesOnly]
  . simp [OnCollections, UsesOnly]
  . simp [OnCollections, UsesOnly]
  . simp [OnCollections, UsesOnly]
  . intro r
    split
    all_goals exact ⟨_, rfl⟩

theorem answer_onCollections {s s' : Conn} (h : s.db.collections = s'.db.collections) {c : Call}
    (hc : OnCollections c) (env : CallEnv)
    : (answer c env s).1 = (answer c env s').1 ∧
        (answer c env s).2.db.collections = (answer c env s').2.db.collections := by
  unfold answer
  split
  . exact absurd rfl hc.2
  . cases hc.1
  . split <;> exact ⟨rfl, h⟩
  . exact ⟨rfl, h⟩
  . split <;> exact ⟨rfl, h⟩
  . next sql vs =>
    split
    . exact ⟨rfl, h⟩
    . have hsql : sql = .insertCollection ∨ sql = .selectCollectionId := by
        simpa [UsesOnly] using hc.1
      rcases hsql with hsql | hsql
      . rw [hsql]
        simp only [stepStatement, stepInsertCollection]
        split
        . split
          all_goals
            refine ⟨rfl, ?_⟩
            dsimp only
            rw [h]
        . exact ⟨rfl, h⟩
      . rw [hsql]
        simp only [stepStatement, stepSelectCollectionId]
        rw [h]
        exact ⟨rfl, rfl⟩
  . split <;> exact ⟨rfl, h⟩

theorem dbSaveCollection_onCollections {s s' : Conn} (h : s.db.collections = s'.db.collections)
    (coll : Collection) (es : List CallEnv)
    : ((dbSaveCollection (some coll)).run answer es s).1 =
          ((dbSaveCollection (some coll)).run answer es s').1 ∧
        ((dbSaveCollection (some coll)).run answer es s).2.db.collections =
          ((dbSaveCollection (some coll)).run answer es s').2.db.collections := by
  refine Prog.Calls.run_rel (R := fun s s' : Conn => s.db.collections = s'.db.collections) ?_
    (calls_onCollections_dbSaveCollection coll) es h
  intro c env s s' hc h
  exact answer_onCollections h hc env

end SaveCollection

end HttpRuntime
