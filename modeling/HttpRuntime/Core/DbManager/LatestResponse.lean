import HttpRuntime.Core.DbManager.Responses

/-!
This module contains what `db_get_latest_response_by_request_id` returns: the last row of the
request as `map_row_to_response` decodes it, or nothing.
-/

open Lib Lib.Sql

namespace HttpRuntime

variable {s : Conn} {es : List CallEnv}

def latestResponse (db : Database) (requestId : Int) : Option (Nat × ResponseRow) :=
  (responsesOf db (.integer requestId)).getLast?

theorem latestResponse_insertedResponse (s : Conn) (resp : Response) (env : CallEnv)
    : latestResponse (insertedResponse s resp env).db resp.requestId =
        some (s.db.responses.seq + 1, responseRow resp env.now) := by
  have hlast : ∀ row ∈ [(s.db.responses.seq + 1, responseRow resp env.now)],
      row.2.requestId.same (.integer resp.requestId) = true := by
    intro row hrow
    rw [List.mem_singleton.mp hrow, Value.same_iff]
    simp [responseRow]
  unfold latestResponse responsesOf insertedResponse Table.insert
  dsimp only
  rw [List.filter_append, List.filter_eq_self.mpr hlast]
  exact List.getLast?_concat

def decodeResponse (row : Nat × ResponseRow) : Response where
  id := Lib.toInt row.1
  requestId := columnInt row.2.requestId
  statusCode := columnInt row.2.statusCode
  headers := safeCopyBlob (columnText row.2.headers) (columnBytes row.2.headers)
  headersLen := 0
  headersCapacity := 0
  contentType := safeCopyBlob (columnText row.2.contentType) (columnBytes row.2.contentType)
  body := safeCopyBlob (columnBlob row.2.body) (columnBytes row.2.body)
  bodyLen := columnBytes row.2.body
  bodyCapacity := 0
  duration := columnDouble row.2.duration
  result := ResponseResults.ofInt (columnInt row.2.result)

-- The allocations of one copy.
def copyAllocs (src : Option Bytes) (len : Nat) : Nat :=
  if safeCopyBlob src len = none then 0 else 1

section SafeCopy

variable {α : Type} {src : Option Bytes} {len : Nat} {crash : DbProg α} {k : Option Bytes → DbProg α} {a : α}

theorem run_malloc_of_calm (k : Reply → DbProg α) (h : calm 1 es = true)
    : (Prog.call Call.malloc k).run answer es s = (k .ok).run answer (es.drop 1) s := by
  rw [calm_one, Bool.not_eq_true'] at h
  rw [Prog.run_call, List.drop_one]
  simp only [answer, h, Bool.false_eq_true, if_false]

theorem run_malloc_of_not_calm (k : Reply → DbProg α) (h : calm 1 es = false)
    : (Prog.call Call.malloc k).run answer es s = (k .error).run answer (es.drop 1) s := by
  rw [calm_one, Bool.not_eq_false'] at h
  rw [Prog.run_call, List.drop_one]
  simp only [answer, h, if_true]

theorem run_safeCopy_const (hfits : len ≤ readable src) (h : ∀ copy es, (k copy).run answer es s = (a, s))
    : (safeCopy src len crash k).run answer es s = (a, s) := by
  unfold safeCopy
  cases safeCopyBlob src len with
  | none => exact h none es
  | some copy =>
    dsimp only
    cases hcalm : calm 1 es with
    | true =>
      rw [run_malloc_of_calm _ hcalm]
      dsimp only
      rw [if_neg (Nat.not_lt.mpr hfits)]
      exact h _ _
    | false =>
      rw [run_malloc_of_not_calm _ hcalm]
      exact h _ _

theorem run_safeCopy_required (hfits : len ≤ readable src)
    (hk : len > 0 → ∀ es, (k none).run answer es s = (a, s))
    : (safeCopy src len crash k).run answer es s =
        if calm (copyAllocs src len) es = true then
          (k (safeCopyBlob src len)).run answer (es.drop (copyAllocs src len)) s
        else
          (a, s) := by
  unfold safeCopy copyAllocs
  cases hcopy : safeCopyBlob src len with
  | none => rfl
  | some copy =>
    simp only [reduceCtorEq, if_false]
    cases hcalm : calm 1 es with
    | true =>
      rw [run_malloc_of_calm _ hcalm, if_pos rfl]
      dsimp only
      rw [if_neg (Nat.not_lt.mpr hfits)]
    | false =>
      rw [run_malloc_of_not_calm _ hcalm]
      dsimp only
      rw [if_neg (by simp)]
      exact hk (len_pos_of_safeCopyBlob hcopy) _

end SafeCopy

def responseAllocs (row : ResponseRow) : Nat :=
  1 + copyAllocs (columnText row.contentType) (columnBytes row.contentType) +
    copyAllocs (columnText row.headers) (columnBytes row.headers) +
    copyAllocs (columnBlob row.body) (columnBytes row.body)

theorem copy_columnText_ne_none {v : Value} (h : columnBytes v > 0)
    : safeCopyBlob (columnText v) (columnBytes v) ≠ none := by
  unfold safeCopyBlob
  rw [if_neg (by omega)]
  cases v <;> simp_all [columnBytes, columnText]

theorem copy_columnBlob_ne_none {v : Value} (h : columnBytes v > 0)
    : safeCopyBlob (columnBlob v) (columnBytes v) ≠ none := by
  have hne (s : Bytes) (hs : s.length > 0) : s ≠ [] := by
    intro heq
    rw [heq] at hs
    cases hs
  unfold safeCopyBlob
  rw [if_neg (by omega)]
  cases v with
  | text s => simp [columnBlob, hne s h]
  | blob s => simp [columnBlob, hne s h]
  | null => cases h
  | integer n => cases h
  | real bits => cases h

theorem columnBytes_le_columnText (v : Value) : columnBytes v ≤ readable (columnText v) := by
  cases v <;> exact Nat.le_refl _

theorem columnBytes_le_columnBlob (v : Value) : columnBytes v ≤ readable (columnBlob v) := by
  unfold columnBlob columnBytes readable
  cases v with
  | text s => cases s <;> simp
  | blob s => cases s <;> simp
  | null => exact Nat.le_refl _
  | integer n => exact Nat.le_refl _
  | real bits => exact Nat.le_refl _

theorem run_mapRowToResponse (row : Nat × ResponseRow) (es : List CallEnv) (s : Conn)
    : (mapRowToResponse (responseColumns row) .ret).run answer es s =
        (if calm (responseAllocs row.2) es = true then some (decodeResponse row) else none, s) := by
  unfold mapRowToResponse responseColumns responseAllocs
  simp only [List.getD_cons_zero, List.getD_cons_succ]
  rw [calm_add, calm_add, calm_add]
  cases hmalloc : calm 1 es with
  | false =>
    rw [run_malloc_of_not_calm _ hmalloc]
    rfl
  | true =>
    rw [run_malloc_of_calm _ hmalloc]
    dsimp only
    -- without one of its copies the response is given up
    rw [run_safeCopy_required (a := none) (columnBytes_le_columnText _), Bool.true_and]
    . cases calm (copyAllocs (columnText row.2.contentType) (columnBytes row.2.contentType)) (es.drop 1) with
      | false => rfl
      | true =>
        rw [if_pos rfl, run_safeCopy_required (a := none) (columnBytes_le_columnText _), Bool.true_and,
          List.drop_drop]
        . cases calm (copyAllocs (columnText row.2.headers) (columnBytes row.2.headers)) (es.drop _) with
          | false => rfl
          | true =>
            rw [if_pos rfl, run_safeCopy_required (a := none) (columnBytes_le_columnBlob _), Bool.true_and,
              List.drop_drop]
            . split
              . rw [if_neg (fun h => copy_columnText_ne_none h.1 h.2),
                  if_neg (fun h => copy_columnText_ne_none h.1 h.2),
                  if_neg (fun h => copy_columnBlob_ne_none h.1 h.2)]
                rfl
              . rfl
            . intro hpos es
              rw [if_neg (fun h => copy_columnText_ne_none h.1 h.2),
                if_neg (fun h => copy_columnText_ne_none h.1 h.2), if_pos ⟨hpos, rfl⟩]
              rfl
        . intro hpos es
          apply run_safeCopy_const (columnBytes_le_columnBlob _)
          intro body es
          rw [if_neg (fun h => copy_columnText_ne_none h.1 h.2), if_pos ⟨hpos, rfl⟩]
          rfl
    . intro hpos es
      apply run_safeCopy_const (columnBytes_le_columnText _)
      intro headers es
      apply run_safeCopy_const (columnBytes_le_columnBlob _)
      intro body es
      rw [if_pos ⟨hpos, rfl⟩]
      rfl

-- What a poll makes of the last row, when the allocations may fail.
def pollResponse (es : List CallEnv) (row : Nat × ResponseRow) : Option Response :=
  if calm 3 es = true ∧ calm (responseAllocs row.2) (es.drop 3) = true then some (decodeResponse row)
  else none

theorem row_of_pollResponse {db : Database} {requestId : Int} {es : List CallEnv} {resp : Response}
    (h : (latestResponse db requestId).bind (pollResponse es) = some resp)
    : ∃ row, latestResponse db requestId = some row ∧ resp = decodeResponse row := by
  rw [Option.bind_eq_some_iff] at h
  rcases h with ⟨row, hrow, hresp⟩
  refine ⟨row, hrow, ?_⟩
  unfold pollResponse at hresp
  split at hresp
  . rw [Option.some.injEq] at hresp
    exact hresp.symm
  . cases hresp

theorem run_dbGetLatestResponseByRequestId (requestId : Int) (es : List CallEnv) (s : Conn)
    : (dbGetLatestResponseByRequestId requestId).run answer es s =
        ((latestResponse s.db requestId).bind (pollResponse es), s) := by
  have hparams : [bindInt requestId] = [Value.integer requestId].map some := rfl
  unfold dbGetLatestResponseByRequestId
  cases hcalm : calm 3 es with
  | false =>
    refine Eq.trans (run_statement_of_not_calm ?_ ?_ s) ?_
    . exact Or.inl hcalm
    . rfl
    . cases latestResponse s.db requestId with
      | none => rfl
      | some row => simp [pollResponse, hcalm]
  | true =>
    rw [run_statement_of_calm hparams hcalm]
    simp only [stepStatement, stepSelectLatestResponse, latestResponse]
    cases (responsesOf s.db (.integer requestId)).getLast? with
    | none => rfl
    | some row =>
      dsimp only [List.length_cons, List.length_nil]
      rw [run_mapRowToResponse]
      simp [pollResponse, hcalm]

end HttpRuntime
