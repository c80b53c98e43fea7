import HttpRuntime.Core.Sqlite.Lemmas

/-!
This module contains the functions of `db_manager.c` as programs over single SQLite calls and
allocations. What is written to stderr is left out.
-/

open Lib Lib.Sql

namespace HttpRuntime

variable {α : Type}

-- The binds of one statement. The first that fails is a `goto failure`.
def bindAll (params : List (Option Value)) (failure : DbProg α) (k : List Value → DbProg α)
    : DbProg α :=
  match params with
  | [] => k []
  | param :: params =>
    .call (.bind param) fun r =>
      match r, param with
      | .ok, some v => bindAll params failure (fun vs => k (v :: vs))
      | _, _ => failure

-- Prepares a statement, binds its parameters and steps it once.
def statement (sql : Sql) (params : List (Option Value)) (failure : DbProg α)
    (k : Reply → DbProg α) : DbProg α :=
  .call (.prepare sql) fun r =>
    match r with
    | .ok => bindAll params failure (fun vs => .call (.step sql vs) k)
    | _ => failure

def dbSaveCollection (coll : Option Collection) : DbProg (Int × Option Collection) :=
  match coll with
  | none => .ret (sqliteError, none)
  | some coll =>
    let failure := .ret (sqliteError, some coll)
    let name := bindText coll.name coll.nameLen
    statement .insertCollection [name, bindInt (Lib.toInt coll.nameLen)] failure fun r =>
      match r with
      | .done =>
        statement .selectCollectionId [name] failure fun r =>
          match r with
          | .row cols => .ret (sqliteOk, some { coll with id := columnInt (cols.headD .null) })
          | _ => failure
      | _ => failure

def responseParams (resp : Response) : List (Option Value) :=
  [bindInt resp.requestId,
    bindInt resp.statusCode,
    bindInt resp.result.toInt,
    bindDouble resp.duration,
    bindText resp.headers ((resp.headers.map strlen).getD 0),
    bindText resp.contentType ((resp.contentType.map strlen).getD 0),
    if resp.body ≠ none ∧ resp.bodyLen > 0 then bindBlob resp.body resp.bodyLen else some .null,
    bindInt resp.bodyLen]

def dbSaveResponse (resp : Option Response) : DbProg (Int × Option Response) :=
  match resp with
  | none => .ret (sqliteError, none)
  | some resp =>
    let failure := .ret (sqliteError, some resp)
    statement .insertResponse (responseParams resp) failure fun r =>
      match r with
      | .done =>
        .call .lastInsertRowid fun r =>
          match r with
          | .rowid n => .ret (sqliteOk, some { resp with id := Lib.toInt n })
          | _ => .ret (sqliteOk, some { resp with id := 0 })
      | _ => failure

def insertRequestParams (req : Request) : List (Option Value) :=
  let bodyData := req.body.getD []
  let bodyLen := if req.body ≠ none then req.bodyLen else 0
  [bindInt req.collectionId,
    bindInt req.method.toInt,
    bindText req.url req.urlLen,
    bindInt req.urlLen,
    bindText req.headers req.headersLen,
    bindInt req.headersLen,
    bindBlob (some bodyData) req.bodyLen,
    bindInt bodyLen]

def selectRequestParams (req : Request) : List (Option Value) :=
  [bindInt req.collectionId,
    bindInt req.method.toInt,
    bindText req.url req.urlLen,
    bindBlob req.body req.bodyLen]

def dbSaveRequest (req : Option Request) : DbProg (Int × Option Request) :=
  match req with
  | none => .ret (sqliteError, none)
  | some req =>
    let failure := .ret (sqliteError, some req)
    statement .insertRequest (insertRequestParams req) failure fun r =>
      match r with
      | .done =>
        statement .selectRequestId (selectRequestParams req) failure fun r =>
          match r with
          | .row cols => .ret (sqliteOk, some { req with id := columnInt (cols.headD .null) })
          | _ => failure
      | _ => failure

def readable (src : Option Bytes) : Nat := (src.map List.length).getD 0

-- `safe_copy_string` and `safe_copy_blob`, which differ only in the terminator. `src` are the bytes
-- that can be read. A copy of more than these is a crash.
def safeCopy (src : Option Bytes) (len : Nat) (crash : DbProg α) (k : Option Bytes → DbProg α)
    : DbProg α :=
  match safeCopyBlob src len with
  | none => k none
  | some copy =>
    .call .malloc fun r =>
      match r with
      | .ok => if readable src < len then crash else k (some copy)
      | _ => k none

-- `cols` are the columns of `selectPendingRequest`.
def mapRowToRequest (cols : List Value) (crash : DbProg α) (k : Option Request → DbProg α)
    : DbProg α :=
  let col (i : Nat) : Value := cols.getD i .null
  let urlLen := columnLen (col 4)
  let headersLen := columnLen (col 6)
  let bodyLen := columnLen (col 8)
  .call .malloc fun r =>
    match r with
    | .ok =>
      safeCopy (columnString (col 3)) urlLen crash fun url =>
      safeCopy (columnString (col 5)) headersLen crash fun headers =>
      safeCopy (columnBlob (col 7)) bodyLen crash fun body =>
        if url = none ∨ urlLen = 0 then k none
        else if headersLen > 0 ∧ headers = none then k none
        else if bodyLen > 0 ∧ body = none then k none
        else
          k (some {
            id := columnInt (col 0)
            collectionId := columnInt (col 1)
            method := Method.ofInt (columnInt (col 2))
            url := url
            urlLen := urlLen
            headers := headers
            headersLen := headersLen
            body := body
            bodyLen := bodyLen
            status := columnInt (col 9)
          })
    | _ => k none

-- `cols` are the columns of `selectLatestResponse`. The lengths are those of the columns themselves, so
-- that no copy can be a crash.
def mapRowToResponse (cols : List Value) (k : Option Response → DbProg α) : DbProg α :=
  let col (i : Nat) : Value := cols.getD i .null
  let headersLen := columnBytes (col 3)
  let contentTypeLen := columnBytes (col 4)
  let bodyLen := columnBytes (col 5)
  .call .malloc fun r =>
    match r with
    | .ok =>
      safeCopy (columnText (col 4)) contentTypeLen (k none) fun contentType =>
      safeCopy (columnText (col 3)) headersLen (k none) fun headers =>
      safeCopy (columnBlob (col 5)) bodyLen (k none) fun body =>
        if contentTypeLen > 0 ∧ contentType = none then k none
        else if headersLen > 0 ∧ headers = none then k none
        else if bodyLen > 0 ∧ body = none then k none
        else
          k (some {
            id := columnInt (col 0)
            requestId := columnInt (col 1)
            statusCode := columnInt (col 2)
            headers := headers
            headersLen := 0
            headersCapacity := 0
            contentType := contentType
            body := body
            bodyLen := bodyLen
            bodyCapacity := 0
            duration := columnDouble (col 7)
            result := ResponseResults.ofInt (columnInt (col 8))
          })
    | _ => k none

-- The transaction of a program that crashes is rolled back.
def dbGetNextPendingRequest : DbProg (Outcome (Option Request)) :=
  let rollback := .call (.exec .rollback) fun _ => .ret (.returned none)
  let crash := .call (.exec .rollback) fun _ => .ret .crashed
  .call (.exec .beginImmediate) fun r =>
    match r with
    | .ok =>
      statement .selectPendingRequest [] rollback fun r =>
        match r with
        | .row cols =>
          mapRowToRequest cols crash fun req =>
            match req with
            | none => rollback
            | some req =>
              statement .updateRequestClaimed [bindInt req.id] rollback fun r =>
                match r with
                -- the result of COMMIT is not looked at
                | .done => .call (.exec .commit) fun _ => .ret (.returned (some req))
                | _ => rollback
        | _ => rollback
    | _ => .ret (.returned none)

def dbUpdateRequestStatus (id status : Int) : DbProg Int :=
  let failure := .ret sqliteError
  statement .updateRequestStatus [bindInt status, bindInt id] failure fun r =>
    match r with
    | .done => .ret sqliteOk
    | _ => failure

def dbGetLatestResponseByRequestId (requestId : Int) : DbProg (Option Response) :=
  statement .selectLatestResponse [bindInt requestId] (.ret none) fun r =>
    match r with
    | .row cols => mapRowToResponse cols .ret
    | _ => .ret none

def dbCountResponsesByRequestId (requestId : Int) : DbProg Int :=
  let failure := .ret sqliteError
  statement .countResponses [bindInt requestId] failure fun r =>
    match r with
    | .row cols => .ret (columnInt (cols.headD .null))
    | _ => failure

def dbClearAll : DbProg Int :=
  .call (.exec .deleteResponses) fun _ =>
  .call (.exec .deleteRequests) fun _ =>
  .call (.exec .deleteCollections) fun _ =>
    .ret sqliteOk

end HttpRuntime
