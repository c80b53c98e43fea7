import HttpRuntime.Core.DbManager.LatestResponse

/-!
This module contains what `db_get_next_pending_request` does: which row it claims, with which of its
calls failing, and how its transaction ends. How BEGIN, COMMIT and ROLLBACK are answered is a
parameter here.
-/

open Lib Lib.Sql

namespace HttpRuntime

/-- A server that answers everything but the commands like `answer`. -/
def Plain (server : Server Call Reply CallEnv Conn) : Prop :=
  ∀ c env s, (∀ cmd, c ≠ .exec cmd) → server c env s = answer c env s

theorem plain_answer : Plain answer := fun _ _ _ _ => rfl

-- What a copy gives when it can be allocated.
def copyOf (src : Option Bytes) (len : Nat) : Outcome (Option Bytes) :=
  if safeCopyBlob src len ≠ none ∧ readable src < len then .crashed else .returned (safeCopyBlob src len)

/-- What `map_row_to_request` makes of a row when every allocation succeeds. -/
def decodeRequest (row : Nat × RequestRow) : Outcome (Option Request) :=
  match copyOf (columnString row.2.url) (columnLen row.2.urlLen),
    copyOf (columnString row.2.headers) (columnLen row.2.headersLen),
    copyOf (columnBlob row.2.body) (columnLen row.2.bodyLen) with
  | .returned url, .returned headers, .returned body =>
    if url = none ∨ columnLen row.2.urlLen = 0 then .returned none
    else if columnLen row.2.headersLen > 0 ∧ headers = none then .returned none
    else if columnLen row.2.bodyLen > 0 ∧ body = none then .returned none
    else
      .returned (some {
        id := Lib.toInt row.1
        collectionId := columnInt row.2.collectionId
        method := Method.ofInt (columnInt row.2.method)
        url := url
        urlLen := columnLen row.2.urlLen
        headers := headers
        headersLen := columnLen row.2.headersLen
        body := body
        bodyLen := columnLen row.2.bodyLen
        status := columnInt row.2.status
      })
  | _, _, _ => .crashed

/-- The allocations of `map_row_to_request`: the request, and a copy for each field with bytes. -/
def requestAllocs (row : RequestRow) : Nat :=
  1 + copyAllocs (columnString row.url) (columnLen row.urlLen) +
    copyAllocs (columnString row.headers) (columnLen row.headersLen) +
    copyAllocs (columnBlob row.body) (columnLen row.bodyLen)

def pickedRow (pick : Nat) (db : Database) : Option (Nat × RequestRow) :=
  (oldestPending db)[pick % (oldestPending db).length]?

section Plain

variable {α : Type} {server : Server Call Reply CallEnv Conn} (hplain : Plain server)
  (es : List CallEnv) (s : Conn)

include hplain

theorem Plain.run_malloc (k : Reply → DbProg α)
    : (Prog.call Call.malloc k).run server es s =
        if calm 1 es = true then (k .ok).run server (es.drop 1) s
        else (k .error).run server (es.drop 1) s := by
  rw [Prog.run_call, hplain _ _ _ (by simp), List.drop_one, calm_one]
  cases hfault : (es.headD default).fault with
  | true => simp only [answer, hfault, if_true, Bool.not_true, Bool.false_eq_true, if_false]
  | false => simp only [answer, hfault, Bool.false_eq_true, if_false, Bool.not_false, if_true]

theorem Plain.run_bindAll (vs : List Value) (failure : DbProg α) (k : List Value → DbProg α)
    : (calm vs.length es = true ∧
          (bindAll (vs.map some) failure k).run server es s =
            (k vs).run server (es.drop vs.length) s) ∨
        (calm vs.length es = false ∧
          ∃ es', es' <:+ es ∧
            (bindAll (vs.map some) failure k).run server es s = failure.run server es' s) := by
  induction vs generalizing es k with
  | nil => exact .inl ⟨rfl, rfl⟩
  | cons v vs ih =>
    rw [List.map_cons, bindAll, Prog.run_call, hplain _ _ _ (by simp), List.length_cons, calm_succ]
    cases hfault : (es.headD default).fault with
    | true =>
      right
      simp only [answer, hfault, if_true]
      exact ⟨rfl, es.tail, List.tail_suffix es, rfl⟩
    | false =>
      simp only [answer, hfault, Bool.false_eq_true, if_false]
      rw [← List.drop_tail]
      rcases ih es.tail _ with h | ⟨hcalm, es', hes', hrun⟩
      . exact Or.inl h
      . exact Or.inr ⟨hcalm, es', hes'.trans (List.tail_suffix es), hrun⟩

theorem Plain.run_statement (sql : Sql) {params : List (Option Value)} {vs : List Value}
    (hparams : params = vs.map some) {failure : DbProg α} {k : Reply → DbProg α}
    (hk : k .error = failure)
    : (calm (vs.length + 2) es = true ∧
          (statement sql params failure k).run server es s =
            (k (stepStatement ((es.drop (vs.length + 1)).headD default) s sql vs).1).run server
              (es.drop (vs.length + 2))
              (stepStatement ((es.drop (vs.length + 1)).headD default) s sql vs).2) ∨
        (calm (vs.length + 2) es = false ∧
          ∃ es', es' <:+ es ∧
            (statement sql params failure k).run server es s = failure.run server es' s) := by
  rw [statement, Prog.run_call, hplain _ _ _ (by simp), calm_succ, hparams]
  cases hfault : (es.headD default).fault with
  | true =>
    right
    simp only [answer, hfault, if_true]
    exact ⟨rfl, es.tail, List.tail_suffix es, rfl⟩
  | false =>
    simp only [answer, hfault, Bool.false_eq_true, if_false]
    rcases hplain.run_bindAll es.tail s vs failure (fun vs => .call (.step sql vs) k) with
      ⟨hcalm, hrun⟩ | ⟨hcalm, es', hes', hrun⟩
    . rw [hrun, Prog.run_call, hplain _ _ _ (by simp), calm_add, hcalm, calm_one,
        List.drop_tail, List.tail_drop]
      cases hstep : ((es.drop (vs.length + 1)).headD default).fault with
      | true =>
        right
        simp only [answer, hstep, if_true]
        refine ⟨rfl, es.drop (vs.length + 2), List.drop_suffix _ es, ?_⟩
        rw [hk]
      | false =>
        left
        simp only [answer, hstep, Bool.false_eq_true, if_false]
        exact ⟨rfl, trivial⟩
    . right
      refine ⟨?_, es', hes'.trans (List.tail_suffix es), hrun⟩
      rw [calm_add, hcalm]
      rfl

theorem Plain.run_safeCopy (src : Option Bytes) (len : Nat) (crash : DbProg α)
    (k : Option Bytes → DbProg α)
    : (calm (copyAllocs src len) es = true ∧
          (safeCopy src len crash k).run server es s =
            ((copyOf src len).elim crash k).run server (es.drop (copyAllocs src len)) s) ∨
        (calm (copyAllocs src len) es = false ∧ len > 0 ∧
          ∃ es', es' <:+ es ∧
            (safeCopy src len crash k).run server es s = (k none).run server es' s) := by
  unfold safeCopy copyAllocs copyOf
  cases hcopy : safeCopyBlob src len with
  | none => exact .inl ⟨rfl, rfl⟩
  | some copy =>
    simp only [reduceCtorEq, if_false]
    rw [hplain.run_malloc]
    cases hcalm : calm 1 es with
    | true =>
      left
      refine ⟨rfl, ?_⟩
      rw [if_pos rfl]
      by_cases hover : readable src < len
      . simp [hover, Outcome.elim]
      . simp [hover, Outcome.elim]
    | false => exact .inr ⟨rfl, len_pos_of_safeCopyBlob hcopy, _, List.drop_suffix 1 es, rfl⟩

theorem Plain.run_safeCopy_any (src : Option Bytes) (len : Nat) (crash : DbProg α)
    (k : Option Bytes → DbProg α)
    : ∃ es', es' <:+ es ∧
        ((safeCopy src len crash k).run server es s = crash.run server es' s ∨
          ∃ copy, (safeCopy src len crash k).run server es s = (k copy).run server es' s) := by
  rcases hplain.run_safeCopy es s src len crash k with ⟨_, hrun⟩ | ⟨_, _, es', hes', hrun⟩
  . rw [hrun]
    refine ⟨es.drop (copyAllocs src len), List.drop_suffix _ es, ?_⟩
    cases copyOf src len with
    | returned copy => exact Or.inr ⟨copy, rfl⟩
    | crashed => exact Or.inl rfl
  . exact ⟨es', hes', Or.inr ⟨none, hrun⟩⟩

theorem Plain.run_mapRowToRequest (row : Nat × RequestRow) (crash : DbProg α)
    (k : Option Request → DbProg α)
    : (calm (requestAllocs row.2) es = true ∧
          (mapRowToRequest (requestColumns row) crash k).run server es s =
            ((decodeRequest row).elim crash k).run server (es.drop (requestAllocs row.2)) s) ∨
        ((calm (requestAllocs row.2) es = false ∨ decodeRequest row = .crashed) ∧
          ∃ es', es' <:+ es ∧
            ((mapRowToRequest (requestColumns row) crash k).run server es s =
                (k none).run server es' s ∨
              (mapRowToRequest (requestColumns row) crash k).run server es s =
                crash.run server es' s)) := by
  unfold mapRowToRequest requestColumns requestAllocs
  simp only [List.getD_cons_zero, List.getD_cons_succ]
  rw [hplain.run_malloc, calm_add, calm_add, calm_add]
  cases hmalloc : calm 1 es with
  | false => exact .inr ⟨.inl rfl, _, List.drop_suffix 1 es, .inl rfl⟩
  | true =>
    rw [if_pos rfl, Bool.true_and]
    dsimp only
    have hdrop := List.drop_suffix 1 es
    rcases hplain.run_safeCopy (es.drop 1) s (columnString row.2.url)
      (columnLen row.2.urlLen) crash _ with ⟨hurl, hrun⟩ | ⟨hurl, hpos, es₁, hes₁, hrun⟩
    . rw [hrun, hurl, Bool.true_and, List.drop_drop]
      cases hcopy : copyOf (columnString row.2.url) (columnLen row.2.urlLen) with
      | crashed =>
        refine .inr ⟨.inr ?_, _, List.drop_suffix _ es, .inr rfl⟩
        simp [decodeRequest, hcopy]
      | returned url =>
        simp only [Outcome.elim]
        rcases hplain.run_safeCopy _ s (columnString row.2.headers)
          (columnLen row.2.headersLen) crash _ with ⟨hheaders, hrun⟩ | ⟨hheaders, hpos, es₁, hes₁, hrun⟩
        . rw [hrun, hheaders, Bool.true_and, List.drop_drop]
          cases hcopy' : copyOf (columnString row.2.headers) (columnLen row.2.headersLen) with
          | crashed =>
            refine .inr ⟨.inr ?_, _, List.drop_suffix _ es, .inr rfl⟩
            simp [decodeRequest, hcopy, hcopy']
          | returned headers =>
            simp only [Outcome.elim]
            rcases hplain.run_safeCopy _ s (columnBlob row.2.body)
              (columnLen row.2.bodyLen) crash _ with ⟨hbody, hrun⟩ | ⟨hbody, hpos, es₁, hes₁, hrun⟩
            . left
              rw [hrun, List.drop_drop]
              refine ⟨hbody, ?_⟩
              unfold decodeRequest
              rw [hcopy, hcopy']
              cases copyOf (columnBlob row.2.body) (columnLen row.2.bodyLen) with
              | crashed => rfl
              | returned body =>
                simp only [Outcome.elim]
                split <;> [skip; split <;> [skip; split]]
                all_goals rfl
            . right
              rw [hrun]
              refine ⟨.inl hbody, es₁, hes₁.trans (List.drop_suffix _ es), .inl ?_⟩
              split
              . rfl
              . split
                . rfl
                . rw [if_pos ⟨hpos, rfl⟩]
        . right
          rw [hrun, hheaders]
          rcases hplain.run_safeCopy_any es₁ s (columnBlob row.2.body)
            (columnLen row.2.bodyLen) crash _ with ⟨es₂, hes₂, hrun | ⟨body, hrun⟩⟩
          . exact ⟨.inl rfl, es₂, hes₂.trans (hes₁.trans (List.drop_suffix _ es)), .inr hrun⟩
          . rw [hrun]
            refine ⟨.inl rfl, es₂, hes₂.trans (hes₁.trans (List.drop_suffix _ es)), .inl ?_⟩
            split
            . rfl
            . rw [if_pos ⟨hpos, rfl⟩]
    . right
      rw [hrun, hurl]
      refine ⟨.inl rfl, ?_⟩
      rcases hplain.run_safeCopy_any es₁ s (columnString row.2.headers)
        (columnLen row.2.headersLen) crash _ with ⟨es₂, hes₂, hrun | ⟨headers, hrun⟩⟩
      . exact ⟨es₂, hes₂.trans (hes₁.trans hdrop), .inr hrun⟩
      . rw [hrun]
        rcases hplain.run_safeCopy_any es₂ s (columnBlob row.2.body)
          (columnLen row.2.bodyLen) crash _ with ⟨es₃, hes₃, hrun | ⟨body, hrun⟩⟩
        . exact ⟨es₃, hes₃.trans (hes₂.trans (hes₁.trans hdrop)), .inr hrun⟩
        . rw [hrun, if_pos (Or.inl rfl)]
          exact ⟨es₃, hes₃.trans (hes₂.trans (hes₁.trans hdrop)), .inl rfl⟩

end Plain

def commitIndex (row : RequestRow) : Nat := 3 + requestAllocs row + 3

structure Claims (es : List CallEnv) (db : Database) (row : Nat × RequestRow) (req : Request) : Prop where
  picked : pickedRow ((es.drop 2).headD default).pick db = some row
  decoded : decodeRequest row = .returned (some req)
  calm : calm (commitIndex row.2 - 1) es.tail = true

theorem Claims.unique {es : List CallEnv} {db : Database} {row row' : Nat × RequestRow}
    {req req' : Request} (h : Claims es db row req) (h' : Claims es db row' req')
    : row = row' ∧ req = req' := by
  have hrow := h.picked
  rw [h'.picked, Option.some.injEq] at hrow
  have hreq := h.decoded
  rw [← hrow, h'.decoded, Outcome.returned.injEq, Option.some.injEq] at hreq
  exact ⟨hrow.symm, hreq.symm⟩

-- The ends of `db_get_next_pending_request`, from the last one to the first.
def claimRollback : DbProg (Outcome (Option Request)) :=
  .call (.exec .rollback) fun _ => .ret (.returned none)

def claimCrash : DbProg (Outcome (Option Request)) := .call (.exec .rollback) fun _ => .ret .crashed

def claimUpdated (req : Request) (r : Reply) : DbProg (Outcome (Option Request)) :=
  match r with
  | .done => .call (.exec .commit) fun _ => .ret (.returned (some req))
  | _ => claimRollback

def claimDecoded (req : Option Request) : DbProg (Outcome (Option Request)) :=
  match req with
  | none => claimRollback
  | some req => statement .updateRequestClaimed [bindInt req.id] claimRollback (claimUpdated req)

def claimSelected (r : Reply) : DbProg (Outcome (Option Request)) :=
  match r with
  | .row cols => mapRowToRequest cols claimCrash claimDecoded
  | _ => claimRollback

theorem dbGetNextPendingRequest_eq
    : dbGetNextPendingRequest =
        .call (.exec .beginImmediate) fun r =>
          match r with
          | .ok => statement .selectPendingRequest [] claimRollback claimSelected
          | _ => .ret (.returned none) := rfl

section Run

variable {server : Server Call Reply CallEnv Conn} {es : List CallEnv} {s s₁ : Conn}

theorem run_claimRollback (es : List CallEnv) (s : Conn)
    : claimRollback.run server es s =
        (.returned none, (server (.exec .rollback) (es.headD default) s).2) := rfl

theorem stepStatement_selectPendingRequest (env : CallEnv) (s : Conn)
    : stepStatement env s .selectPendingRequest [] =
        (match pickedRow env.pick s.db with
        | some row => .row (requestColumns row)
        | none => .done, s) := rfl

theorem calm_claim (row : RequestRow) (es : List CallEnv)
    : calm (commitIndex row - 1) es.tail =
        (calm 2 es.tail && calm (requestAllocs row) (es.drop 3) &&
          calm 3 ((es.drop 3).drop (requestAllocs row))) := by
  have hindex : commitIndex row - 1 = 2 + requestAllocs row + 3 := by
    unfold commitIndex
    omega
  rw [hindex, calm_add, calm_add, ← List.drop_drop, List.drop_tail]

theorem not_claims_of_picked {db : Database} {row : Nat × RequestRow}
    (hpicked : pickedRow ((es.drop 2).headD default).pick db = some row)
    (hnot : (∀ req, decodeRequest row ≠ .returned (some req)) ∨
      calm (commitIndex row.2 - 1) es.tail = false)
    (row' : Nat × RequestRow) (req : Request) : ¬ Claims es db row' req := by
  intro h
  have hrow := h.picked
  rw [hpicked, Option.some.injEq] at hrow
  subst hrow
  cases hnot with
  | inl hnone => exact hnone req h.decoded
  | inr hcalm =>
    rw [h.calm] at hcalm
    cases hcalm

/--
After BEGIN the function claims a row and commits, or the transaction is rolled back to where it
began.
-/
theorem Plain.run_dbGetNextPendingRequest (hplain : Plain server)
    (hbegin : server (.exec .beginImmediate) (es.headD default) s = (.ok, s₁))
    : (∃ row req, Claims es s₁.db row req ∧
          dbGetNextPendingRequest.run server es s =
            (.returned (some req),
              (server (.exec .commit) ((es.drop (commitIndex row.2)).headD default)
                (setStatus s₁ (.integer 1) (.integer req.id))).2)) ∨
        ((∀ row req, ¬ Claims es s₁.db row req) ∧
          ∃ out es', es' <:+ es ∧ out.toOption = none ∧
            dbGetNextPendingRequest.run server es s =
              (out, (server (.exec .rollback) (es'.headD default) s₁).2)) := by
  rw [dbGetNextPendingRequest_eq, Prog.run_call, hbegin]
  dsimp only
  rcases hplain.run_statement es.tail s₁ .selectPendingRequest (List.map_nil (f := some)).symm
    (show claimSelected .error = claimRollback from rfl) with
    ⟨hselect, hrun⟩ | ⟨hselect, es', hes', hrun⟩
  . rw [hrun, stepStatement_selectPendingRequest]
    simp only [List.length_nil, Nat.zero_add, List.drop_tail] at hselect ⊢
    cases hpicked : pickedRow ((es.drop 2).headD default).pick s₁.db with
    | none =>
      right
      refine ⟨?_, .returned none, _, List.drop_suffix 3 es, rfl, rfl⟩
      intro row req h
      rw [h.picked] at hpicked
      cases hpicked
    | some row =>
      simp only [claimSelected]
      rcases hplain.run_mapRowToRequest (es.drop 3) s₁ row claimCrash claimDecoded with
        ⟨hallocs, hrun⟩ | ⟨hallocs, es', hes', hrun⟩
      . rw [hrun]
        rcases hdecoded : decodeRequest row with (_ | req) | _
        . right
          refine ⟨?_, .returned none, _, (List.drop_suffix _ _).trans (List.drop_suffix 3 es), rfl, rfl⟩
          exact not_claims_of_picked hpicked (Or.inl (by simp [hdecoded]))
        . simp only [Outcome.elim, claimDecoded]
          have hparams : [bindInt req.id] = [Value.integer req.id].map some := rfl
          rcases hplain.run_statement ((es.drop 3).drop (requestAllocs row.2)) s₁
            .updateRequestClaimed hparams
            (show claimUpdated req .error = claimRollback from rfl) with
            ⟨hupdate, hrun⟩ | ⟨hupdate, es', hes', hrun⟩
          all_goals simp only [List.length_singleton] at hupdate hrun
          . left
            refine ⟨row, req, ⟨hpicked, hdecoded, ?_⟩, ?_⟩
            . rw [calm_claim, hselect, hallocs, hupdate]
              rfl
            . rw [hrun]
              have hindex : ((es.drop 3).drop (requestAllocs row.2)).drop 3 = es.drop (commitIndex row.2) := by
                rw [List.drop_drop, List.drop_drop, commitIndex, Nat.add_assoc]
              simp only [stepStatement, claimUpdated, Prog.run_call, Prog.run_ret, Nat.reduceAdd]
              rw [hindex]
          . right
            rw [hrun, run_claimRollback]
            have hsuffix := hes'.trans ((List.drop_suffix _ _).trans (List.drop_suffix 3 es))
            refine ⟨?_, .returned none, es', hsuffix, rfl, rfl⟩
            apply not_claims_of_picked hpicked
            right
            rw [calm_claim, hupdate, Bool.and_false]
        . right
          refine ⟨?_, .crashed, _, (List.drop_suffix _ _).trans (List.drop_suffix 3 es), rfl, rfl⟩
          exact not_claims_of_picked hpicked (Or.inl (by simp [hdecoded]))
      . right
        refine ⟨?_, ?_⟩
        . apply not_claims_of_picked hpicked
          cases hallocs with
          | inl hallocs =>
            right
            rw [calm_claim, hallocs, Bool.and_false, Bool.false_and]
          | inr hcrashed => exact Or.inl (by simp [hcrashed])
        . have hsuffix := hes'.trans (List.drop_suffix 3 es)
          cases hrun with
          | inl hrun => exact ⟨.returned none, es', hsuffix, rfl, hrun⟩
          | inr hrun => exact ⟨.crashed, es', hsuffix, rfl, hrun⟩
  . right
    rw [hrun, run_claimRollback]
    refine ⟨?_, .returned none, es', hes'.trans (List.tail_suffix es), rfl, rfl⟩
    intro row req h
    have hcalm := h.calm
    rw [List.length_nil, Nat.zero_add] at hselect
    rw [calm_claim, hselect] at hcalm
    simp at hcalm

end Run

end HttpRuntime
