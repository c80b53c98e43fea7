import HttpRuntime.Core.Models
import HttpRuntime.Lib.Prog
import HttpRuntime.Lib.Sql

/-!
This module contains what `db_manager.c` uses of SQLite: the schema of `db_init`, the statements it
prepares, and one connection that answers one call at a time.

Preparing, binding and finalizing touch only the statement of the calling thread. Reading a column
and finalizing cannot fail and are not calls of their own here.
-/

open Lib Lib.Sql

namespace HttpRuntime

def sqliteOk : Int := 0
def sqliteError : Int := 1

structure CollectionRow where
  name : Value
  nameLen : Value
  deriving DecidableEq

structure RequestRow where
  collectionId : Value
  method : Value
  url : Value
  urlLen : Value
  headers : Value
  headersLen : Value
  body : Value
  bodyLen : Value
  status : Value
  createdAt : Nat
  deriving DecidableEq

structure ResponseRow where
  requestId : Value
  statusCode : Value
  result : Value
  duration : Value
  headers : Value
  body : Value
  bodyLen : Value
  contentType : Value
  createdAt : Nat
  deriving DecidableEq

/-- `UNIQUE(name)` -/
def CollectionRow.key (r : CollectionRow) : List Value := [r.name]

/-- `uq_request_identity` -/
def RequestRow.key (r : RequestRow) : List Value := [r.collectionId, r.method, r.url, r.body]

@[ext]
structure Database where
  collections : Table CollectionRow
  requests : Table RequestRow
  responses : Table ResponseRow

def Database.empty : Database where
  collections := .empty
  requests := .empty
  responses := .empty

/--
One connection. While a transaction is open, `saved` is the content to roll back to.
-/
@[ext]
structure Conn where
  db : Database
  saved : Option Database
  lastRowid : Nat

def Conn.open (db : Database) : Conn := { db := db, saved := none, lastRowid := 0 }

def Conn.inTransaction (s : Conn) : Bool := s.saved.isSome

-- `SQLITE_LIMIT_LENGTH`
def sqliteMaxLength : Nat := 1000000000

-- The bytes of `s` that `sqlite3_bind_text` takes. The length is an int there, and a negative one
-- means up to the terminator.
def boundText (s : Bytes) (len : Nat) : Bytes :=
  let n := Lib.toInt len
  if n < 0 then s.takeWhile (fun c => c != 0) else s.take n.toNat

def boundBlob (s : Bytes) (len : Nat) : Bytes :=
  s.take (Lib.toInt len).toNat

-- The pairs of bytes up to the first that is zero, where a text of UTF-16 ends.
def untilZeroPair (s : Bytes) : Bytes :=
  match s with
  | a :: b :: s => if a = 0 ∧ b = 0 then [] else a :: b :: untilZeroPair s
  | s => s

def textValue (p : Option Bytes) (len : Nat) : Value :=
  match p with
  | none => .null
  | some s => .text (boundText s len)

-- The length is an int for `sqlite3_bind_blob` as well. A negative one makes it take a text, up to a
-- pair of zeros, since no encoding tells it how the text ends.
@[irreducible]
def blobValue (p : Option Bytes) (len : Nat) : Value :=
  match p with
  | none => .null
  | some s => if Lib.toInt len < 0 then .text (untilZeroPair s) else .blob (boundBlob s len)

-- `none` stands for a bind that is refused with `SQLITE_TOOBIG`.
def bindText (p : Option Bytes) (len : Nat) : Option Value :=
  if (textValue p len).size > sqliteMaxLength then none else some (textValue p len)

def bindBlob (p : Option Bytes) (len : Nat) : Option Value :=
  if (blobValue p len).size > sqliteMaxLength then none else some (blobValue p len)

-- A NaN is stored as NULL, and a negative zero as zero.
def bindDouble (bits : UInt64) : Option Value :=
  if (bits >>> 52) &&& 0x7ff = 0x7ff ∧ bits &&& 0xfffffffffffff ≠ 0 then
    some .null
  else if bits = 0x8000000000000000 then
    some (.real 0)
  else
    some (.real bits)

def bindInt (n : Int) : Option Value := some (.integer n)

def columnInt (v : Value) : Int :=
  match v with
  | .integer n => Lib.toInt n
  | _ => 0

-- A length column, read into a `size_t`.
def columnLen (v : Value) : Nat :=
  match v with
  | .integer n => n.toNat
  | _ => 0

def columnDouble (v : Value) : UInt64 :=
  match v with
  | .real bits => bits
  | _ => 0

def columnText (v : Value) : Option Bytes :=
  match v with
  | .text s => some s
  | .blob s => some s
  | _ => none

-- What can be read at the pointer of `sqlite3_column_text`, which has a terminator behind the text.
def columnString (v : Value) : Option Bytes := (columnText v).map (fun s => s ++ [0])

-- A blob of length zero is read back as a null pointer.
def columnBlob (v : Value) : Option Bytes :=
  match v with
  | .text s => if s = [] then none else some s
  | .blob s => if s = [] then none else some s
  | _ => none

def columnBytes (v : Value) : Nat :=
  match v with
  | .text s => s.length
  | .blob s => s.length
  | _ => 0

/-- The texts given to `sqlite3_exec`. -/
inductive Command where
  | beginImmediate
  | commit
  | rollback
  | deleteResponses
  | deleteRequests
  | deleteCollections
  deriving DecidableEq

/-- The statements of `db_manager.c`. -/
inductive Sql where
  | insertCollection
  | selectCollectionId
  | insertResponse
  | insertRequest
  | selectRequestId
  | selectPendingRequest
  | updateRequestClaimed
  | updateRequestStatus
  | selectLatestResponse
  | countResponses
  deriving DecidableEq

inductive Call where
  | exec (cmd : Command)
  | prepare (sql : Sql)
  | bind (param : Option Value)
  | step (sql : Sql) (params : List Value)
  | lastInsertRowid
  | malloc
  deriving DecidableEq

inductive Reply where
  | ok
  | error
  | done
  | row (cols : List Value)
  | rowid (n : Nat)
  deriving DecidableEq

-- `now` is what CURRENT_TIMESTAMP reads, `pick` chooses among rows that ORDER BY does not order.
structure CallEnv where
  fault : Bool := false
  now : Nat := 0
  pick : Nat := 0
  deriving DecidableEq, Inhabited

abbrev DbProg (α : Type) := Prog Call Reply α

section Statements

variable (env : CallEnv) (s : Conn)

def stepInsertCollection (params : List Value) : Reply × Conn :=
  match params with
  | [name, nameLen] =>
    -- NOT NULL under OR IGNORE
    if name = .null then
      (.done, { s with db := { s.db with collections := s.db.collections.skip } })
    else
      let res := s.db.collections.insertOrIgnore CollectionRow.key ⟨name, nameLen⟩
      let db := { s.db with collections := res.1 }
      (.done, { s with db := db, lastRowid := if res.2 then res.1.seq else s.lastRowid })
  | _ => (.error, s)

def stepSelectCollectionId (params : List Value) : Reply :=
  match s.db.collections.lookup CollectionRow.key params with
  | some row => .row [.integer row.1]
  | none => .done

-- OR IGNORE covers NOT NULL and UNIQUE, but not the foreign key.
def stepInsertRequest (params : List Value) : Reply × Conn :=
  match params with
  | [collectionId, method, url, urlLen, headers, headersLen, body, bodyLen] =>
    if url = .null then
      (.done, { s with db := { s.db with requests := s.db.requests.skip } })
    else
      let row : RequestRow := {
        collectionId := collectionId
        method := method
        url := url
        urlLen := urlLen
        headers := headers
        headersLen := headersLen
        body := body
        bodyLen := bodyLen
        status := .integer 0
        createdAt := env.now
      }
      let res := s.db.requests.insertOrIgnore RequestRow.key row
      let db := { s.db with requests := res.1 }
      if res.2 = false then
        (.done, { s with db := db })
      else if collectionId = .null ∨ s.db.collections.rows.any (fun r => collectionId = .integer r.1) then
        (.done, { s with db := db, lastRowid := res.1.seq })
      else
        (.error, s)
  | _ => (.error, s)

def stepSelectRequestId (params : List Value) : Reply :=
  match s.db.requests.lookup RequestRow.key params with
  | some row => .row [.integer row.1]
  | none => .done

def stepInsertResponse (params : List Value) : Reply × Conn :=
  match params with
  | [requestId, statusCode, result, duration, headers, contentType, body, bodyLen] =>
    if requestId = .null ∨ s.db.requests.rows.any (fun r => requestId = .integer r.1) then
      let responses := s.db.responses.insert {
        requestId := requestId
        statusCode := statusCode
        result := result
        duration := duration
        headers := headers
        body := body
        bodyLen := bodyLen
        contentType := contentType
        createdAt := env.now
      }
      (.done, { s with db := { s.db with responses := responses }, lastRowid := responses.seq })
    else
      (.error, s)
  | _ => (.error, s)

def pendingRequests (db : Database) : List (Nat × RequestRow) :=
  db.requests.rows.filter (fun r => r.2.status.same (.integer 0))

-- The pending rows that `ORDER BY created_at ASC` may put first.
def oldestPending (db : Database) : List (Nat × RequestRow) :=
  (pendingRequests db).filter fun r =>
    (pendingRequests db).all (fun r' => r.2.createdAt ≤ r'.2.createdAt)

def requestColumns (row : Nat × RequestRow) : List Value :=
  [.integer row.1, row.2.collectionId, row.2.method, row.2.url, row.2.urlLen, row.2.headers,
    row.2.headersLen, row.2.body, row.2.bodyLen, row.2.status]

def stepSelectPendingRequest : Reply :=
  let oldest := oldestPending s.db
  match oldest[env.pick % oldest.length]? with
  | some row => .row (requestColumns row)
  | none => .done

def setStatus (status id : Value) : Conn :=
  let requests := s.db.requests.update (fun r => id.same (.integer r.1))
    (fun r => { r with status := status })
  { s with db := { s.db with requests := requests } }

def responseColumns (row : Nat × ResponseRow) : List Value :=
  [.integer row.1, row.2.requestId, row.2.statusCode, row.2.headers, row.2.contentType, row.2.body,
    row.2.bodyLen, row.2.duration, row.2.result]

def responsesOf (db : Database) (requestId : Value) : List (Nat × ResponseRow) :=
  db.responses.rows.filter (fun r => r.2.requestId.same requestId)

-- The rows stand in the order of their ids, so the last one is the first of `ORDER BY id DESC`.
def stepSelectLatestResponse (params : List Value) : Reply :=
  match params with
  | [requestId] =>
    match (responsesOf s.db requestId).getLast? with
    | some row => .row (responseColumns row)
    | none => .done
  | _ => .error

def stepStatement (sql : Sql) (params : List Value) : Reply × Conn :=
  match sql with
  | .insertCollection => stepInsertCollection s params
  | .selectCollectionId => (stepSelectCollectionId s params, s)
  | .insertResponse => stepInsertResponse env s params
  | .insertRequest => stepInsertRequest env s params
  | .selectRequestId => (stepSelectRequestId s params, s)
  | .selectPendingRequest => (stepSelectPendingRequest env s, s)
  | .updateRequestClaimed =>
    match params with
    | [id] => (.done, setStatus s (.integer 1) id)
    | _ => (.error, s)
  | .updateRequestStatus =>
    match params with
    | [status, id] => (.done, setStatus s status id)
    | _ => (.error, s)
  | .selectLatestResponse => (stepSelectLatestResponse s params, s)
  | .countResponses =>
    match params with
    | [requestId] => (.row [.integer (responsesOf s.db requestId).length], s)
    | _ => (.error, s)

def execCommand (cmd : Command) : Reply × Conn :=
  match cmd, s.saved with
  | .beginImmediate, none => (.ok, { s with saved := some s.db })
  | .commit, some _ => (.ok, { s with saved := none })
  | .rollback, some db => (.ok, { s with db := db, saved := none })
  -- a transaction within a transaction, or the end of none
  | .beginImmediate, some _ => (.error, s)
  | .commit, none => (.error, s)
  | .rollback, none => (.error, s)
  | .deleteResponses, _ =>
    (.ok, { s with db := { s.db with responses := s.db.responses.clear } })
  -- the foreign keys of the rows that stay must still lead somewhere
  | .deleteRequests, _ =>
    if s.db.responses.rows.all (fun r => r.2.requestId = .null) then
      (.ok, { s with db := { s.db with requests := s.db.requests.clear } })
    else
      (.error, s)
  | .deleteCollections, _ =>
    if s.db.requests.rows.all (fun r => r.2.collectionId = .null) then
      (.ok, { s with db := { s.db with collections := s.db.collections.clear } })
    else
      (.error, s)

end Statements

/--
One SQLite call. A call that fails for reasons of its own changes nothing, and reading
`sqlite3_last_insert_rowid` never fails.
-/
def answer : Server Call Reply CallEnv Conn := fun c env s =>
  match c with
  | .lastInsertRowid => (.rowid s.lastRowid, s)
  | .exec cmd => if env.fault then (.error, s) else execCommand s cmd
  | .prepare _ => if env.fault then (.error, s) else (.ok, s)
  | .bind none => (.error, s)
  | .bind (some _) => if env.fault then (.error, s) else (.ok, s)
  | .step sql params => if env.fault then (.error, s) else stepStatement env s sql params
  | .malloc => if env.fault then (.error, s) else (.ok, s)

end HttpRuntime
