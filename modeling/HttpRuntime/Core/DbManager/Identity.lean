import HttpRuntime.Core.DbManager.IdRange
import HttpRuntime.Core.DbManager.Saves

/-!
This module contains the ids of saved collections and requests: equal exactly for equal entities, and
never given away.
-/

open Lib Lib.Sql

namespace HttpRuntime

inductive EntityCall where
  | collection (coll : Collection) (es : List CallEnv)
  | request (req : Request) (es : List CallEnv)

/-- The pointers lead to as many bytes as the lengths say, and the lengths are preserved by `int`. -/
def EntityCall.Fits (call : EntityCall) : Prop :=
  match call with
  | .collection coll _ => (coll.name.getD []).length = coll.nameLen ∧ coll.nameLen < 2 ^ 31
  | .request req _ =>
    req.WellFormed ∧ req.url ≠ none ∧ req.urlLen < 2 ^ 31 ∧ req.bodyLen < 2 ^ 31

-- What was saved successfully, with the ids that the calls wrote.
structure SaveHistory where
  conn : Conn
  collections : List (Collection × Int)
  requests : List (Request × Int)

-- The id that a call wrote, when it was a success.
def writtenId {α : Type} (id : α → Int) (res : Int × Option α) : Option Int :=
  if res.1 = sqliteOk then res.2.map id else none

namespace SaveHistory

def start (s : Conn) : SaveHistory where
  conn := s
  collections := []
  requests := []

def step (h : SaveHistory) (call : EntityCall) : SaveHistory :=
  match call with
  | .collection coll es =>
    let res := (dbSaveCollection (some coll)).run answer es h.conn
    let id := writtenId Collection.id res.1
    { h with conn := res.2, collections := h.collections ++ (id.map (coll, ·)).toList }
  | .request req es =>
    let res := (dbSaveRequest (some req)).run answer es h.conn
    let id := writtenId Request.id res.1
    { h with conn := res.2, requests := h.requests ++ (id.map (req, ·)).toList }

def exec (h : SaveHistory) (calls : List EntityCall) : SaveHistory := calls.foldl step h

end SaveHistory

def nameRows (db : Database) (coll : Collection) : List (Nat × CollectionRow) :=
  db.collections.rows.filter (fun row => row.2.name = .text (coll.name.getD []))

/-- Equal ids are equal entities, and each has exactly one row, under the id that was written. -/
structure Identified (h : SaveHistory) : Prop where
  collections_iff : ∀ e ∈ h.collections, ∀ e' ∈ h.collections, e.2 = e'.2 ↔ e.1.name = e'.1.name
  requests_iff : ∀ e ∈ h.requests, ∀ e' ∈ h.requests, e.2 = e'.2 ↔
    e.1.collectionId = e'.1.collectionId ∧
    e.1.method = e'.1.method ∧
    e.1.url = e'.1.url ∧
    e.1.body = e'.1.body
  collection_row : ∀ e ∈ h.collections, ∃ row, nameRows h.conn.db e.1 = [row] ∧ (row.1 : Int) = e.2
  request_row : ∀ e ∈ h.requests, ∃ row, identityRows h.conn.db e.1 = [row] ∧ (row.1 : Int) = e.2

/-- The ids of the rows fit into an `int`. -/
def IdsFit (db : Database) : Prop :=
  (∀ row ∈ db.collections.rows, row.1 < 2 ^ 31) ∧ ∀ row ∈ db.requests.rows, row.1 < 2 ^ 31

-- What was saved is found, and its id is the one that was written.
structure SaveHistory.Found (h : SaveHistory) : Prop where
  collection : ∀ e ∈ h.collections,
    EntityCall.Fits (.collection e.1 []) ∧ e.1.name ≠ none ∧
      ∃ row, h.conn.db.collections.lookup CollectionRow.key [textValue e.1.name e.1.nameLen] = some row ∧
        e.2 = Lib.toInt row.1
  request : ∀ e ∈ h.requests,
    EntityCall.Fits (.request e.1 []) ∧ e.1.body ≠ none ∧
      ∃ row, h.conn.db.requests.lookup RequestRow.key e.1.boundKey = some row ∧
        e.2 = Lib.toInt row.1

section Step

variable {h : SaveHistory} {s' : Conn}

theorem SaveHistory.Found.grown (hfound : h.Found) (hgrown : h.conn.GrownTo s')
    : SaveHistory.Found { h with conn := s' } where
  collection := by
    intro e he
    rcases hfound.collection e he with ⟨hfits, hname, row, hlookup, hid⟩
    exact ⟨hfits, hname, row, hgrown.collections.lookup hlookup, hid⟩
  request := by
    intro e he
    rcases hfound.request e he with ⟨hfits, hbody, row, hlookup, hid⟩
    exact ⟨hfits, hbody, row, hgrown.requests.lookup hlookup, hid⟩

theorem SaveHistory.Found.step (hfound : h.Found) {call : EntityCall} (hfits : call.Fits)
    : (h.step call).Found := by
  cases call with
  | collection coll es =>
    have hgrown := (stepped_dbSaveCollection coll es h.conn).grown_insertCollection.1
    have hkept := hfound.grown hgrown
    refine ⟨?_, hkept.request⟩
    intro e he
    simp only [SaveHistory.step, List.mem_append, Option.mem_toList] at he
    rcases he with he | he
    . exact hkept.collection e he
    . rcases dbSaveCollection_cases coll es h.conn with hres | ⟨row, hres, hlookup⟩
      . rw [hres] at he
        cases he
      . rw [hres] at he
        cases he
        refine ⟨hfits, ?_, row, hlookup, rfl⟩
        intro hname
        rw [hname, Table.lookup_of_null_mem (by simp [textValue])] at hlookup
        cases hlookup
  | request req es =>
    have hgrown := (stepped_dbSaveRequest req es h.conn).grown_insertRequest.1
    have hkept := hfound.grown hgrown
    refine ⟨hkept.collection, ?_⟩
    intro e he
    simp only [SaveHistory.step, List.mem_append, Option.mem_toList] at he
    rcases he with he | he
    . exact hkept.request e he
    . by_cases hok : ((dbSaveRequest (some req)).run answer es h.conn).1.1 = sqliteOk
      . rcases dbSaveRequest_ok hfits.2.1 hok with ⟨env, hbody, _, hrun⟩
        rw [hrun] at he
        cases he
        refine ⟨hfits, hbody, savedRow env h.conn.db req, ?_, rfl⟩
        simp only [SaveHistory.step, hrun]
        exact lookup_insertedRequest hfits.2.1 env
      . rw [writtenId, if_neg hok] at he
        cases he

theorem SaveHistory.Found.exec (hfound : h.Found) {calls : List EntityCall}
    (hfits : ∀ call ∈ calls, call.Fits) : (h.exec calls).Found := by
  induction calls generalizing h with
  | nil => exact hfound
  | cons call calls ih =>
    rw [List.forall_mem_cons] at hfits
    exact ih (hfound.step hfits.1) hfits.2

theorem reachable_exec (hreach : h.conn.Reachable Request.WellFormed) {calls : List EntityCall}
    (hfits : ∀ call ∈ calls, call.Fits) : (h.exec calls).conn.Reachable Request.WellFormed := by
  induction calls generalizing h with
  | nil => exact hreach
  | cons call calls ih =>
    rw [List.forall_mem_cons] at hfits
    apply ih _ hfits.2
    cases call with
    | collection coll es => exact hreach.run (issued_dbSaveCollection _) es
    | request req es => exact hreach.run (issued_dbSaveRequest hfits.1.1) es

end Step

section Identified

variable {h : SaveHistory} {db : Database}

theorem textValue_of_fits {coll : Collection} {es : List CallEnv}
    (hfits : (EntityCall.collection coll es).Fits) (hname : coll.name ≠ none)
    : textValue coll.name coll.nameLen = .text (coll.name.getD []) := by
  have hlen := hfits.2
  rw [← hfits.1] at hlen
  rw [textValue_eq_text hname, ← hfits.1, boundText_eq_self hlen]

theorem boundKey_of_fits {req : Request} {es : List CallEnv} (hfits : (EntityCall.request req es).Fits)
    : req.boundKey = req.identity :=
  boundKey_eq_identity hfits.1 hfits.2.1 hfits.2.2.1 hfits.2.2.2

theorem getD_inj {p p' : Option Bytes} (h : p ≠ none) (h' : p' ≠ none)
    : p.getD [] = p'.getD [] ↔ p = p' := by
  cases p with
  | none => exact absurd rfl h
  | some bytes =>
    cases p' with
    | none => exact absurd rfl h'
    | some bytes' => simp

theorem identity_eq_iff {req req' : Request} (hurl : req.url ≠ none) (hurl' : req'.url ≠ none)
    (hbody : req.body ≠ none) (hbody' : req'.body ≠ none)
    : req.identity = req'.identity ↔
        req.collectionId = req'.collectionId ∧
        req.method = req'.method ∧
        req.url = req'.url ∧
        req.body = req'.body := by
  unfold Request.identity
  simp only [List.cons.injEq, Value.integer.injEq, Value.text.injEq, Value.blob.injEq, and_true,
    getD_inj hurl hurl', getD_inj hbody hbody']
  constructor
  . intro heq
    exact ⟨heq.1, Method.toInt_injective heq.2.1, heq.2.2⟩
  . intro heq
    refine ⟨heq.1, ?_, heq.2.2⟩
    rw [heq.2.1]

theorem nameRows_eq {coll : Collection} {row : Nat × CollectionRow}
    (hunique : db.collections.Unique CollectionRow.key)
    (hlookup : db.collections.lookup CollectionRow.key [.text (coll.name.getD [])] = some row)
    : nameRows db coll = [row] := by
  rw [← hunique.filter_eq hlookup]
  unfold nameRows
  apply List.filter_congr
  intro row _
  rw [Bool.eq_iff_iff, decide_eq_true_iff, allSame_iff]
  constructor
  . intro hname
    simp [CollectionRow.key, hname]
  . intro hsame
    simpa [CollectionRow.key] using hsame.1

theorem SaveHistory.Found.identified (hfound : h.Found) (hvalid : h.conn.db.Valid Request.WellFormed)
    (hids : IdsFit h.conn.db) : Identified h where
  collections_iff := by
    intro e he e' he'
    rcases hfound.collection e he with ⟨hfits, hname, row, hlookup, hid⟩
    rcases hfound.collection e' he' with ⟨hfits', hname', row', hlookup', hid'⟩
    rw [hid, hid', Lib.toInt_ofNat (hids.1 row (Table.mem_of_lookup hlookup)),
      Lib.toInt_ofNat (hids.1 row' (Table.mem_of_lookup hlookup')), Nat.cast_inj,
      Table.lookup_id_eq_iff hlookup hlookup', textValue_of_fits hfits hname,
      textValue_of_fits hfits' hname']
    simp [getD_inj hname hname']
  requests_iff := by
    intro e he e' he'
    rcases hfound.request e he with ⟨hfits, hbody, row, hlookup, hid⟩
    rcases hfound.request e' he' with ⟨hfits', hbody', row', hlookup', hid'⟩
    rw [hid, hid', Lib.toInt_ofNat (hids.2 row (Table.mem_of_lookup hlookup)),
      Lib.toInt_ofNat (hids.2 row' (Table.mem_of_lookup hlookup')), Nat.cast_inj,
      Table.lookup_id_eq_iff hlookup hlookup', boundKey_of_fits hfits, boundKey_of_fits hfits',
      identity_eq_iff hfits.2.1 hfits'.2.1 hbody hbody']
  collection_row := by
    intro e he
    rcases hfound.collection e he with ⟨hfits, hname, row, hlookup, hid⟩
    rw [textValue_of_fits hfits hname] at hlookup
    refine ⟨row, nameRows_eq hvalid.collections hlookup, ?_⟩
    rw [hid, Lib.toInt_ofNat (hids.1 row (Table.mem_of_lookup hlookup))]
  request_row := by
    intro e he
    rcases hfound.request e he with ⟨hfits, _, row, hlookup, hid⟩
    refine ⟨row, identityRows_eq hvalid (boundKey_of_fits hfits) hfits.2.1 hlookup, ?_⟩
    rw [hid, Lib.toInt_ofNat (hids.2 row (Table.mem_of_lookup hlookup))]

/--
After any saves, with failing calls among them: while the lengths and the ids fit into an `int`, equal
ids were written for equal entities only, and the rows are still found under the ids that were written.
-/
theorem dbSave_identified {s : Conn} (hreach : s.Reachable Request.WellFormed)
    (calls : List EntityCall) (hfits : ∀ call ∈ calls, call.Fits)
    (hids : IdsFit ((SaveHistory.start s).exec calls).conn.db)
    : Identified ((SaveHistory.start s).exec calls) := by
  have hfound : (SaveHistory.start s).Found := ⟨by simp [SaveHistory.start], by simp [SaveHistory.start]⟩
  apply (hfound.exec hfits).identified _ hids
  exact (reachable_exec (h := SaveHistory.start s) hreach hfits).valid.1

end Identified

section Examples

-- One collection, two requests, and both saved again.
def saveTwice : List EntityCall :=
  [.collection { id := 0, name := some [99], nameLen := 1 } [], .request postRequest [],
    .request otherRequest [], .collection { id := 0, name := some [99], nameLen := 1 } [],
    .request postRequest []]

theorem saveTwice_fits : ∀ call ∈ saveTwice, call.Fits := by
  intro call hcall
  simp only [saveTwice, List.mem_cons, List.not_mem_nil, or_false] at hcall
  rcases hcall with rfl | rfl | rfl | rfl | rfl
  . simp [EntityCall.Fits]
  . exact ⟨postRequest_wellFormed, by decide, by decide, by decide⟩
  . exact ⟨otherRequest_wellFormed, by decide, by decide, by decide⟩
  . simp [EntityCall.Fits]
  . exact ⟨postRequest_wellFormed, by decide, by decide, by decide⟩

theorem dbSave_identified_saveTwice
    : let h := (SaveHistory.start (Conn.open .empty)).exec saveTwice
      h.collections.map Prod.snd = [1, 1] ∧ h.requests.map Prod.snd = [1, 2, 1] ∧ Identified h := by
  refine ⟨by decide +kernel, by decide +kernel, ?_⟩
  apply dbSave_identified .first saveTwice saveTwice_fits
  constructor
  . decide +kernel
  . decide +kernel

-- A request was saved so often that the next row gets an id that `int` takes for its own.
def wrapped : Conn := onePending.skips (2 ^ 32 - 1)

theorem wrapped_reachable : wrapped.Reachable Request.WellFormed :=
  onePending_reachable.skips postRequest_wellFormed (by decide) (by decide) (by decide +kernel) (by decide +kernel)
    (show _ = some (1, requestRow postRequest default) by decide +kernel) _

def urlWithTail (n : Nat) (c : UInt8) : Bytes := 117 :: 0 :: List.replicate n c

theorem length_urlWithTail (n : Nat) (c : UInt8) : (urlWithTail n c).length = n + 2 := by
  simp [urlWithTail]

theorem urlWithTail_inj {n : Nat} (hn : n ≠ 0) {c c' : UInt8}
    : urlWithTail n c = urlWithTail n c' ↔ c = c' := by
  simp [urlWithTail, List.replicate_right_inj hn]

theorem boundText_urlWithTail (n : Nat) (c : UInt8) {len : Nat} (h : Lib.toInt len < 0)
    : boundText (urlWithTail n c) len = [117] := by
  simp [boundText, h, urlWithTail]

-- The length of the URL is a negative `int`, under which SQLite takes the bytes up to the first NUL.
def longRequest (c : UInt8) : Request :=
  { postRequest with url := some (urlWithTail (2 ^ 31 - 2) c), urlLen := 2 ^ 31 }

theorem longRequest_wellFormed (c : UInt8) : (longRequest c).WellFormed where
  collectionId_ge := postRequest_wellFormed.collectionId_ge
  collectionId_lt := postRequest_wellFormed.collectionId_lt
  url := length_urlWithTail _ c
  headers := rfl
  body := rfl

theorem textValue_longRequest (c : UInt8)
    : textValue (longRequest c).url (longRequest c).urlLen = .text [117] :=
  congrArg Value.text (boundText_urlWithTail _ c
    (show Lib.toInt ((2 ^ 31 : Nat) : Int) < 0 by decide))

theorem longRequest_bound (c : UInt8) : none ∉ insertRequestParams (longRequest c) := by
  have hurl : bindText (longRequest c).url (longRequest c).urlLen ≠ none := by
    unfold bindText
    rw [textValue_longRequest]
    decide
  simp only [insertRequestParams, List.mem_cons, List.not_mem_nil, or_false, not_or]
  refine ⟨by simp [bindInt], by simp [bindInt], hurl.symm, by simp [bindInt], ?_, by simp [bindInt], ?_,
    by simp [bindInt]⟩
  . intro h
    simp [bindText, longRequest, postRequest, getRequest, textValue, Value.size] at h
  . intro h
    have hbody : none = bindBlob postRequest.body postRequest.bodyLen := h
    exact absurd hbody (by decide +kernel)

theorem boundKey_longRequest (c : UInt8)
    : (longRequest c).boundKey = [.integer 1, .integer 1, .text [117], .blob [98]] := by
  have hbody : blobValue (some ((longRequest c).body.getD [])) (longRequest c).bodyLen = .blob [98] :=
    (show blobValue (some [98]) 1 = .blob [98] by decide +kernel)
  unfold Request.boundKey requestRow encodeRequest RequestRow.key
  dsimp only
  rw [textValue_longRequest, hbody]
  rfl

theorem dbSaveRequest_longRequest {s : Conn} (hcoll : ∃ row ∈ s.db.collections.rows, (1 : Int) = row.1)
    (c : UInt8)
    : (dbSaveRequest (some (longRequest c))).run answer [] s =
        ((sqliteOk, some { longRequest c with
            id := Lib.toInt (savedRow default s.db (longRequest c)).1 }),
          insertedRequest default s (longRequest c)) := by
  have hstep := @stepInsertRequest_run (longRequest c) s (by simp [longRequest]) hcoll default
  exact dbSaveRequest_found rfl (longRequest_bound c) hstep (by simp [longRequest])
    (by simp [longRequest, postRequest]) rfl

-- The first save of a long URL adds a row, and the second one finds it.
theorem requests_saveLong
    : ((SaveHistory.start oneCollection).exec
          [.request (longRequest 1) [], .request (longRequest 2) []]).requests =
        [(longRequest 1, 1), (longRequest 2, 1)] := by
  have hcoll : ∃ row ∈ oneCollection.db.collections.rows, (1 : Int) = row.1 := by decide
  have hfirst : savedRow default oneCollection.db (longRequest 1) =
      (1, requestRow (longRequest 1) default) := by
    have hnone : oneCollection.db.requests.lookup RequestRow.key (longRequest 1).boundKey = none := rfl
    unfold savedRow
    rw [hnone]
    rfl
  have hkey : (longRequest 1).boundKey = (longRequest 2).boundKey := by
    rw [boundKey_longRequest, boundKey_longRequest]
  have hlookup := @lookup_insertedRequest (longRequest 1) oneCollection (by simp [longRequest]) default
  have hsecond : savedRow default (insertedRequest default oneCollection (longRequest 1)).db
      (longRequest 2) = (1, requestRow (longRequest 1) default) := by
    unfold savedRow
    rw [← hkey, hlookup, hfirst, Option.getD_some]
  have hone : Lib.toInt ((1 : Nat) : Int) = 1 := by decide
  simp only [SaveHistory.exec, SaveHistory.start, SaveHistory.step, List.foldl_cons, List.foldl_nil]
  rw [dbSaveRequest_longRequest hcoll, hfirst]
  dsimp only
  rw [dbSaveRequest_longRequest (s := insertedRequest default oneCollection (longRequest 1)) hcoll,
    hsecond]
  simp only [writtenId, if_true, Option.map_some, Option.toList_some, List.nil_append, hone]
  rfl

theorem not_identified_of_mem {h : SaveHistory} {req req' : Request} {id : Int}
    (hmem : (req, id) ∈ h.requests) (hmem' : (req', id) ∈ h.requests) (hurl : req.url ≠ req'.url)
    : ¬ Identified h := by
  intro hidentified
  have hsame := (hidentified.requests_iff _ hmem _ hmem').mp rfl
  exact hurl hsame.2.2.1

/--
Two different requests are saved successfully and get one id: where the ids of the rows are beyond the
range of an `int`, and where the lengths of the URLs are.
-/
theorem dbSave_not_identified
    : (wrapped.Reachable Request.WellFormed ∧
          (∀ call ∈ [EntityCall.request otherRequest [], .request postRequest []], call.Fits) ∧
          (let h := (SaveHistory.start wrapped).exec [.request otherRequest [], .request postRequest []]
          h.requests = [(otherRequest, 1), (postRequest, 1)] ∧ ¬ Identified h)) ∧
        (oneCollection.Reachable Request.WellFormed ∧
          (longRequest 1).WellFormed ∧
          (longRequest 2).WellFormed ∧
          (let h := (SaveHistory.start oneCollection).exec
            [.request (longRequest 1) [], .request (longRequest 2) []]
          h.requests = [(longRequest 1, 1), (longRequest 2, 1)] ∧ ¬ Identified h)) := by
  constructor
  . have hrequests : ((SaveHistory.start wrapped).exec
        [.request otherRequest [], .request postRequest []]).requests =
          [(otherRequest, 1), (postRequest, 1)] := by
      decide +kernel
    refine ⟨wrapped_reachable, ?_, hrequests, ?_⟩
    . rw [List.forall_mem_cons, List.forall_mem_singleton]
      exact ⟨⟨otherRequest_wellFormed, by decide, by decide, by decide⟩,
        postRequest_wellFormed, by decide, by decide, by decide⟩
    . apply @not_identified_of_mem _ otherRequest postRequest 1
      . simp [hrequests]
      . simp [hrequests]
      . decide
  . refine ⟨oneCollection_reachable, longRequest_wellFormed 1, longRequest_wellFormed 2,
      requests_saveLong, ?_⟩
    apply @not_identified_of_mem _ (longRequest 1) (longRequest 2) 1
    . rw [requests_saveLong]
      exact List.mem_cons_self ..
    . rw [requests_saveLong]
      exact List.mem_cons_of_mem _ (List.mem_singleton_self _)
    . intro hurl
      rw [longRequest, longRequest, Option.some.injEq, urlWithTail_inj (by decide)] at hurl
      exact absurd hurl (by decide)

end Examples

end HttpRuntime
