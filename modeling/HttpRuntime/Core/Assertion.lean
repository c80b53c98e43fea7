import HttpRuntime.Core.Models

/-!
This module contains the assertions of a plan and their evaluation on a response, `assertion.c`.
-/

namespace HttpRuntime

structure HeaderExpect where
  name : Option Bytes
  value : Option Bytes
  deriving DecidableEq, Repr

/-- The tagged union `Value`. -/
inductive AssertionValue where
  | none
  | int (n : Int)
  | string (s : Option Bytes)
  | bool (n : Int)
  | double (bits : UInt64)
  | bytes (data : Option Bytes) (len : Nat)
  | header (h : HeaderExpect)
  deriving DecidableEq, Repr

inductive AssertionType where
  | statusEq
  | bodyContains
  | headerContains
  deriving DecidableEq, Repr

structure Assertion where
  type : AssertionType
  expected : AssertionValue
  deriving DecidableEq, Repr

structure AssertionResult where
  type : AssertionType
  passed : Bool
  expected : AssertionValue
  actual : AssertionValue
  message : Option String
  deriving DecidableEq, Repr

-- The bytes of a C string, up to the terminator.
def cstring (s : Bytes) : Bytes := s.takeWhile (fun c => c != 0)

-- `==` of two doubles: a NaN equals nothing, and the two zeros are equal.
def doubleEq (a b : UInt64) : Bool :=
  let isNan (x : UInt64) : Bool :=
    (x >>> 52) &&& 0x7ff == 0x7ff && x &&& 0xfffffffffffff != 0
  !isNan a && !isNan b && (a == b || (a <<< 1 == 0 && b <<< 1 == 0))

def checkEqual (val1 val2 : AssertionValue) : Bool :=
  match val1, val2 with
  | .int n1, .int n2 => n1 == n2
  | .bool n1, .bool n2 => n1 == n2
  | .double bits1, .double bits2 => doubleEq bits1 bits2
  | .string (some s1), .string (some s2) => cstring s1 == cstring s2
  | _, _ => false

def bytesContains (haystack needle : AssertionValue) : Bool :=
  match haystack, needle with
  | .bytes (some haystack) haystackLen, .bytes (some needle) needleLen =>
    if needleLen = 0 then
      true
    else if haystackLen < needleLen then
      false
    else
      (List.range (haystackLen - needleLen + 1)).any fun i =>
        (haystack.drop i).take needleLen == needle.take needleLen
  | _, _ => false

def tolower (c : UInt8) : UInt8 :=
  if 65 ≤ c ∧ c ≤ 90 then c + 32 else c

-- The difference of the first two characters that differ. A byte past the end is the terminator.
def strncasecmpSimple (a b : Bytes) (n : Nat) : Int :=
  match n with
  | 0 => 0
  | n + 1 =>
    let ca := tolower (a.headD 0)
    let cb := tolower (b.headD 0)
    if ca ≠ cb then (ca.toNat : Int) - cb.toNat
    else if ca = 0 then 0
    else strncasecmpSimple a.tail b.tail n

def skipSpaces (p : Bytes) : Bytes :=
  p.dropWhile (fun c => c == 32 || c == 9)

def rtrimEnd (s : Bytes) : Bytes :=
  (s.reverse.dropWhile (fun c => c == 32 || c == 9 || c == 13)).reverse

-- One line of `header_contains`.
def headerLineMatches (line name value : Bytes) : Bool :=
  if 58 ∈ line then
    let beforeColon := line.takeWhile (fun c => c != 58)
    let afterColon := (line.dropWhile (fun c => c != 58)).drop 1
    let lineName := rtrimEnd beforeColon
    let lineValue := rtrimEnd (skipSpaces afterColon)
    lineName.length == name.length && strncasecmpSimple lineName name lineName.length == 0 &&
      (lineValue.length == value.length && lineValue == value)
  else
    false

def headerLinesContain (text name value : Bytes) : Bool :=
  match text with
  | [] => false
  | c :: rest =>
    let line := (c :: rest).takeWhile (fun c => c != 10)
    if headerLineMatches line name value then
      true
    else
      headerLinesContain ((c :: rest).drop (line.length + 1)) name value
termination_by text.length

def headerContains (headers : Option Bytes) (expected : HeaderExpect) : Bool :=
  match headers, expected.name, expected.value with
  | some headers, some name, some value =>
    headerLinesContain (cstring headers) (cstring name) (cstring value)
  | _, _, _ => false

def evalAssertion (resp : Option Response) (as : Option Assertion) : AssertionResult :=
  match resp, as with
  | some resp, some as =>
    let result (passed : Bool) (actual : AssertionValue) (message : String) : AssertionResult :=
      {
        type := as.type
        passed := passed
        expected := as.expected
        actual := actual
        message := some message
      }
    match as.type with
    | .statusEq =>
      match as.expected with
      | .int _ =>
        let actual := AssertionValue.int resp.statusCode
        let passed := checkEqual actual as.expected
        result passed actual (if passed then "Status assertion passed" else "Status assertion failed")
      | _ => result false .none "ASSERT_STATUS_EQ expects VALUE_INT"
    | .bodyContains =>
      match as.expected with
      | .bytes _ _ =>
        if resp.body = none ∨ resp.bodyLen = 0 then
          result false .none "Body assertion failed: empty body"
        else
          let actual := AssertionValue.bytes resp.body resp.bodyLen
          let passed := bytesContains actual as.expected
          result passed actual (if passed then "Body assertion passed" else "Body assertion failed")
      | _ => result false .none "ASSERT_BODY_CONTAINS expects VALUE_BYTES"
    | .headerContains =>
      match as.expected with
      | .header expected =>
        if resp.headers = none ∨ (resp.headers.map strlen).getD 0 = 0 then
          result false .none "Header assertion failed: empty header"
        else
          let passed := headerContains resp.headers expected
          result passed (.string resp.headers)
            (if passed then "Header assertion passed" else "Header assertion failed")
      | _ => result false .none "ASSERT_HEADER_CONTAINS expects VALUE_HEADER"
  | _, _ =>
    {
      type := .statusEq
      passed := false
      expected := .none
      actual := .none
      message := some "Invalid assertion input"
    }

end HttpRuntime
