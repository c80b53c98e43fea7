import HttpRuntime.Core.DbManager.Reachable

/-!
This module contains what the foreign keys of the schema promise about every reachable database: a
request belongs to a stored collection, and a response to a stored request.
-/

open Lib Lib.Sql

namespace HttpRuntime

def Refers {ρ : Type} (v : Value) (rows : List (Nat × ρ)) : Prop :=
  v = .null ∨ ∃ row ∈ rows, v = .integer row.1

theorem Refers.mono {ρ : Type} {v : Value} {rows rows' : List (Nat × ρ)} (h : Refers v rows)
    (hsub : ∀ row ∈ rows, ∃ row' ∈ rows', row'.1 = row.1) : Refers v rows' := by
  cases h with
  | inl h => exact Or.inl h
  | inr h =>
    rcases h with ⟨row, hrow, hv⟩
    rcases hsub row hrow with ⟨row', hrow', hid⟩
    exact Or.inr ⟨row', hrow', by rw [hid]; exact hv⟩

theorem refers_iff {ρ : Type} {v : Value} {rows : List (Nat × ρ)}
    : v = .null ∨ rows.any (fun row => decide (v = .integer row.1)) = true ↔ Refers v rows := by
  unfold Refers
  simp only [List.any_eq_true, decide_eq_true_eq]

structure Database.Linked (db : Database) : Prop where
  requests : ∀ row ∈ db.requests.rows, Refers row.2.collectionId db.collections.rows
  responses : ∀ row ∈ db.responses.rows, Refers row.2.requestId db.requests.rows

def Conn.Linked (s : Conn) : Prop :=
  s.db.Linked ∧ ∀ db, s.saved = some db → db.Linked

variable {s : Conn} {db : Database}

theorem Database.Linked.empty : Database.empty.Linked where
  requests := by simp [Database.empty, Table.empty]
  responses := by simp [Database.empty, Table.empty]

theorem Database.Linked.insertCollection (h : db.Linked) (row : CollectionRow)
    : { db with
        collections := (db.collections.insertOrIgnore CollectionRow.key row).1
      }.Linked where
  requests := by
    intro req hreq
    apply (h.requests req hreq).mono
    intro coll hcoll
    exact ⟨coll, Table.mem_insertOrIgnore_of_mem hcoll, rfl⟩
  responses := h.responses

theorem Database.Linked.insertRequest (h : db.Linked) {row : RequestRow}
    (hcheck : (db.requests.insertOrIgnore RequestRow.key row).2 = true →
      Refers row.collectionId db.collections.rows)
    : { db with requests := (db.requests.insertOrIgnore RequestRow.key row).1 }.Linked where
  requests := by
    intro req hreq
    dsimp only at hreq
    cases hlookup : db.requests.lookup RequestRow.key (RequestRow.key row) with
    | some found =>
      rw [Table.insertOrIgnore_of_some hlookup] at hreq
      exact h.requests req hreq
    | none =>
      have hrefers := hcheck (Table.insertOrIgnore_added_iff.mpr hlookup)
      cases Table.mem_rows_insertOrIgnore hreq with
      | inl hreq => exact h.requests req hreq
      | inr hreq =>
        rw [hreq]
        exact hrefers
  responses := by
    intro resp hresp
    apply (h.responses resp hresp).mono
    intro req hreq
    exact ⟨req, Table.mem_insertOrIgnore_of_mem hreq, rfl⟩

theorem Database.Linked.insertResponse (h : db.Linked) {row : ResponseRow}
    (hcheck : Refers row.requestId db.requests.rows)
    : { db with responses := db.responses.insert row }.Linked where
  requests := h.requests
  responses := by
    intro resp hresp
    rw [Table.rows_insert, List.mem_append, List.mem_singleton] at hresp
    cases hresp with
    | inl hresp => exact h.responses resp hresp
    | inr hresp =>
      rw [hresp]
      exact hcheck

theorem Database.Linked.setStatus (h : s.db.Linked) (status id : Value)
    : (setStatus s status id).db.Linked where
  requests := by
    intro req hreq
    rcases List.mem_map.mp hreq with ⟨old, hold, heq⟩
    have hrefers := h.requests old hold
    rw [← heq]
    split <;> exact hrefers
  responses := by
    intro resp hresp
    apply (h.responses resp hresp).mono
    intro req hreq
    refine ⟨_, List.mem_map_of_mem hreq, ?_⟩
    split <;> rfl

theorem Database.Linked.stepStatement (h : s.db.Linked) (sql : Sql) (vs : List Value) (env : CallEnv)
    : (stepStatement env s sql vs).2.db.Linked := by
  cases sql with
  | insertCollection =>
    simp only [HttpRuntime.stepStatement, stepInsertCollection]
    split
    . split
      . exact ⟨h.requests, h.responses⟩
      . exact h.insertCollection _
    . exact h
  | insertRequest =>
    simp only [HttpRuntime.stepStatement, stepInsertRequest]
    split
    . split
      . exact ⟨h.requests, h.responses⟩
      . split
        . next hignored =>
          apply h.insertRequest
          intro hadded
          rw [hignored] at hadded
          cases hadded
        . split
          . next hcheck => exact h.insertRequest (fun _ => refers_iff.mp hcheck)
          . exact h
    . exact h
  | insertResponse =>
    simp only [HttpRuntime.stepStatement, stepInsertResponse]
    split
    . split
      . next hcheck => exact h.insertResponse (refers_iff.mp hcheck)
      . exact h
    . exact h
  | updateRequestClaimed =>
    simp only [HttpRuntime.stepStatement]
    split
    . exact h.setStatus _ _
    . exact h
  | updateRequestStatus =>
    simp only [HttpRuntime.stepStatement]
    split
    . exact h.setStatus _ _
    . exact h
  | countResponses =>
    simp only [HttpRuntime.stepStatement]
    split <;> exact h
  | selectCollectionId => exact h
  | selectRequestId => exact h
  | selectPendingRequest => exact h
  | selectLatestResponse => exact h

theorem Conn.Linked.answer (h : s.Linked) (c : Call) (env : CallEnv) : (answer c env s).2.Linked := by
  apply answer_keeps
  . intro cmd _
    apply execCommand_keeps
    . exact fun _ => ⟨h.1.requests, by simp [Table.clear]⟩
    . intro _ hnull
      rw [List.all_eq_true] at hnull
      refine ⟨by simp [Table.clear], ?_⟩
      intro row hrow
      exact Or.inl (of_decide_eq_true (hnull row hrow))
    . intro _ hnull
      rw [List.all_eq_true] at hnull
      refine ⟨?_, h.1.responses⟩
      intro row hrow
      exact Or.inl (of_decide_eq_true (hnull row hrow))
    . exact h
  . intro sql vs _
    exact h.1.stepStatement sql vs env
  . exact h

theorem Conn.Reachable.linked {Saved : Request → Prop} (h : s.Reachable Saved) : s.Linked := by
  induction h with
  | first => exact ⟨Database.Linked.empty, by simp [Conn.open]⟩
  | call _ _ env ih => exact ih.answer _ env
  | reopen _ ih => exact ⟨reopen_keeps ih, by simp [Conn.open]⟩

end HttpRuntime
