import HttpRuntime.Lib.CInt
import Mathlib.Data.List.Basic
import Mathlib.Data.List.TakeWhile

/-!
This module contains the records of `models.h` and their constructors.

A pointer to bytes is an `Option Bytes`: `none` is the null pointer, and the list is what the
pointer leads to. For a C string these are the bytes before the terminator.
-/

namespace HttpRuntime

abbrev Bytes := List UInt8

inductive Method where
  | get
  | post
  | put
  | delete
  | patch
  | head
  | options
  deriving DecidableEq, Repr

namespace Method

def toInt (m : Method) : Int :=
  match m with
  | .get => 0
  | .post => 1
  | .put => 2
  | .delete => 3
  | .patch => 4
  | .head => 5
  | .options => 6

-- The enumerator with this number. The program only stores numbers of enumerators.
def ofInt (n : Int) : Method :=
  if n = 0 then .get
  else if n = 1 then .post
  else if n = 2 then .put
  else if n = 3 then .delete
  else if n = 4 then .patch
  else if n = 5 then .head
  else .options

theorem ofInt_toInt (m : Method) : ofInt m.toInt = m := by
  cases m <;> rfl

theorem toInt_injective {m m' : Method} (h : m.toInt = m'.toInt) : m = m' := by
  rw [← ofInt_toInt m, h, ofInt_toInt]

end Method

structure Request where
  id : Int
  collectionId : Int
  method : Method
  url : Option Bytes
  urlLen : Nat
  headers : Option Bytes
  headersLen : Nat
  body : Option Bytes
  bodyLen : Nat
  status : Int
  deriving DecidableEq, Repr

structure Collection where
  id : Int
  name : Option Bytes
  nameLen : Nat
  deriving DecidableEq, Repr

inductive ResponseResults where
  | ok
  | curlError
  | internalError
  | cancelled
  deriving DecidableEq, Repr

namespace ResponseResults

def toInt (r : ResponseResults) : Int :=
  match r with
  | .ok => 0
  | .curlError => 1
  | .internalError => 2
  | .cancelled => 3

-- Every number but that of `RESPONSE_OK` is read as a failure.
def ofInt (n : Int) : ResponseResults :=
  if n = 0 then .ok
  else if n = 1 then .curlError
  else if n = 2 then .internalError
  else .cancelled

theorem ofInt_toInt (r : ResponseResults) : ofInt r.toInt = r := by
  cases r <;> rfl

end ResponseResults

-- `duration` is the bit pattern of the double.
structure Response where
  id : Int
  requestId : Int
  statusCode : Int
  headers : Option Bytes
  headersLen : Nat
  headersCapacity : Nat
  contentType : Option Bytes
  body : Option Bytes
  bodyLen : Nat
  bodyCapacity : Nat
  duration : UInt64
  result : ResponseResults
  deriving DecidableEq, Repr

def Response.zero : Response where
  id := 0
  requestId := 0
  statusCode := 0
  headers := none
  headersLen := 0
  headersCapacity := 0
  contentType := none
  body := none
  bodyLen := 0
  bodyCapacity := 0
  duration := 0
  result := .ok

def strlen (s : Bytes) : Nat :=
  (s.takeWhile (fun c => c != 0)).length

theorem strlen_of_not_mem {s : Bytes} (h : 0 ∉ s) : strlen s = s.length := by
  unfold strlen
  rw [List.takeWhile_eq_self_iff.mpr]
  intro c hc
  have hne : c ≠ 0 := fun heq => h (heq ▸ hc)
  simp [hne]

-- The copies of `models.c`. Their callers promise `len` bytes behind `src`, so that `take` drops nothing
-- that is read. Where a row of the database promises nothing, `safeCopy` counts what can be read.
def safeCopyString (src : Option Bytes) (len : Nat) : Option Bytes :=
  if len = 0 then none else src.map (fun s => s.take len)

def safeCopyBlob (src : Option Bytes) (len : Nat) : Option Bytes :=
  if len = 0 then none else src.map (fun s => s.take len)

theorem len_pos_of_safeCopyBlob {src : Option Bytes} {len : Nat} {copy : Bytes}
    (h : safeCopyBlob src len = some copy) : len > 0 := by
  unfold safeCopyBlob at h
  split at h
  . cases h
  . omega

-- `alloc` tells whether the allocations of the call succeed.
def createRequest (method : Method) (collectionId : Int) (url headers body : Option Bytes)
    (bodyLen : Nat) (alloc : Bool) : Option Request :=
  if !alloc then
    none
  else
    let urlLen := (url.map strlen).getD 0
    let headersLen := (headers.map strlen).getD 0
    let req : Request := {
      id := 0
      collectionId := collectionId
      method := method
      url := safeCopyString url urlLen
      urlLen := urlLen
      headers := safeCopyString headers headersLen
      headersLen := headersLen
      body := safeCopyBlob body bodyLen
      bodyLen := bodyLen
      status := 0
    }
    if req.urlLen > 0 ∧ req.url = none then none
    else if req.headersLen > 0 ∧ req.headers = none then none
    else if req.bodyLen > 0 ∧ req.body = none then none
    else some req

def createCollection (name : Option Bytes) (alloc : Bool) : Option Collection :=
  match name with
  | none => none
  | some name =>
    if name.head?.getD 0 = 0 then
      none
    else if !alloc then
      none
    else
      let nameLen := strlen name
      some { id := 0, name := safeCopyString (some name) nameLen, nameLen := nameLen }

end HttpRuntime
