import HttpRuntime.Cli.Hex
import HttpRuntime.Core.Engine.Basic

/-!
This module contains what the command line prints about a run: `cli_output.c`, and `print_run_result` of
`commands.c`. The output is the list of what the calls of `printf`, `fwrite` and `putchar` write, and it is
`none` where a call would read behind a block or in another member of the union.
-/

open Lib

namespace HttpRuntime

/-- Text of the program, bytes that were given to it, and numbers. -/
inductive Piece where
  | text (s : String)
  | data (bytes : Bytes)
  | int (n : Int)
  | size (n : Nat)
  -- `%.3f`
  | seconds (bits : UInt64)
  deriving DecidableEq, Repr

def headerPreviewLimit : Nat := 1200
def bodyPreviewLimit : Nat := 800

def responseResultToChar (rr : ResponseResults) : String :=
  match rr with
  | .ok => "OK"
  | .curlError => "CURL_ERROR"
  | _ => "UNKNOWN"

def strstr (s needle : Bytes) : Bool := s.tails.any (fun rest => needle.isPrefixOf rest)

def isTextContentType (contentType : Option Bytes) : Bool :=
  match contentType with
  | none => false
  | some contentType =>
    let contentType := cstring contentType
    (ascii "text/").isPrefixOf contentType || strstr contentType (ascii "application/json") ||
      strstr contentType (ascii "application/xml") ||
      strstr contentType (ascii "application/javascript") ||
      strstr contentType (ascii "application/x-www-form-urlencoded")

def printPreview (title : String) (data : Option Bytes) (len limit : Nat) : Option (List Piece) :=
  match data with
  | none => some [.text title, .text ": -\n"]
  | some data =>
    if len = 0 then
      some [.text title, .text ": -\n"]
    else
      let previewLen := if len < limit then len else limit
      if previewLen > data.length then
        none
      else
        let truncated : List Piece :=
          if previewLen < len then
            [.text "\n... [truncated, ", .size (len - previewLen), .text " bytes remaining]"]
          else []
        some ([.text "--- ", .text title, .text " Preview (", .size previewLen, .text "/", .size len,
          .text " bytes) ---\n", .data (data.take previewLen)] ++ truncated ++ [.text "\n---\n"])

-- `print_byte_value` with the length that it is given.
def printBytes (data : Option Bytes) (len : Nat) : Option Piece :=
  match data with
  | none => some (.data (printByteValue none))
  | some data => if len > data.length then none else some (.data (printByteValue (some (data.take len))))

-- The loop that prints every line of the headers behind six spaces.
def printHeaderLines (p : Bytes) : List Piece :=
  match p with
  | [] => []
  | c :: cs =>
    let line := (c :: cs).takeWhile (fun c => c != 10)
    [.text "      ", .data line, .text "\n"] ++ printHeaderLines ((c :: cs).drop (line.length + 1))
termination_by p.length

def printStatus (result : AssertionResult) : Option (List Piece) :=
  match result.expected with
  | .int expected =>
    if result.passed then
      some [.text "  ✓ status == ", .int expected, .text "\n"]
    else
      match result.actual with
      | .int actual =>
        some [.text "  ✗ status == ", .int expected, .text "\n", .text "    expected: ", .int expected,
          .text "\n", .text "    actual:   ", .int actual, .text "\n"]
      | _ => none
  | _ => none

def printBodyContains (result : AssertionResult) : Option (List Piece) :=
  match result.expected with
  | .bytes expected expectedLen => do
    let value ← printBytes expected expectedLen
    if result.passed then
      some [.text "  ✓ body contains ", value, .text "\n"]
    else
      let actualLen ←
        match result.actual with
        | .bytes _ len => some len
        -- the result of an empty body is filled with zeros
        | .none => some 0
        | _ => none
      some [.text "  ✗ body contains ", value, .text "\n", .text "    expected: ", value, .text "\n",
        .text "    expected bytes: ", .size expectedLen, .text "\n", .text "    actual bytes:   ",
        .size actualLen, .text "\n"]
  | _ => none

def printHeaderContains (result : AssertionResult) : Option (List Piece) :=
  match result.expected with
  | .header expected =>
    let name : Piece := .data (cstring (expected.name.getD (ascii "(null)")))
    let value : Piece := .data (cstring (expected.value.getD (ascii "(null)")))
    if result.passed then
      some [.text "  ✓ header contains ", name, .text ": ", value, .text "\n"]
    else
      let headers : List Piece :=
        match result.actual with
        | .string (some actual) => [.text "    actual headers:\n"] ++ printHeaderLines (cstring actual)
        | _ => [.text "    actual headers: (none)\n"]
      let message : List Piece :=
        match result.message with
        | some message => [.text "    message: ", .text message, .text "\n"]
        | none => []
      some ([.text "  ✗ header contains ", name, .text ": ", value, .text "\n",
        .text "    expected header: ", name, .text ": ", value, .text "\n"] ++ headers ++ message)
  | _ => none

def printAssertionResult (result : AssertionResult) : Option (List Piece) :=
  match result.type with
  | .statusEq => printStatus result
  | .bodyContains => printBodyContains result
  | .headerContains => printHeaderContains result

-- What `print_response_summary` takes for the length of the headers.
def headersLength (rep : Response) : Nat :=
  if rep.headersLen > 0 then rep.headersLen
  else
    match rep.headers with
    | some headers => strlen headers
    | none => 0

def printHeadersPart (rep : Response) : Option (List Piece) :=
  if rep.headers ≠ none ∧ headersLength rep > 0 then do
    let preview ← printPreview "Headers" rep.headers (headersLength rep) headerPreviewLimit
    some ([.text "Headers: ", .size (headersLength rep), .text " bytes\n", .text "\n"] ++ preview)
  else
    some [.text "Headers: -\n"]

def printBodyPart (rep : Response) : Option (List Piece) :=
  if rep.body = none ∨ rep.bodyLen = 0 then
    some []
  else if !isTextContentType rep.contentType then
    some [.text "Body preview skipped: binary or unknown content type.\n"]
  else
    printPreview "Body" rep.body rep.bodyLen bodyPreviewLimit

def printResponseSummary (rep : Response) : Option (List Piece) := do
  let headers ← printHeadersPart rep
  let body ← printBodyPart rep
  some ([
    .text "Response ID: ", .int rep.id, .text "\n",
    .text "Request ID: ", .int rep.requestId, .text "\n",
    .text "Result: ", .text (responseResultToChar rep.result), .text "\n",
    .text "Status: ", .int rep.statusCode, .text "\n",
    .text "Duration: ", .seconds rep.duration, .text " sec\n",
    .text "Content-Type: ", .data (cstring (rep.contentType.getD (ascii "-"))), .text "\n",
    .text "Body: ", .size rep.bodyLen, .text " bytes\n"] ++ headers ++ body)

-- One round of the loop over the cases.
def printCaseResult (i : Nat) (caseResult : RequestCaseResult) : Option (List Piece) :=
  match caseResult.response with
  | none => some [.text "Request ", .size (i + 1), .text " failed or timed out.\n"]
  | some response => do
    let summary ← printResponseSummary response
    if caseResult.assertionResults.length > 0 then
      let assertions ← caseResult.assertionResults.mapM printAssertionResult
      some (summary ++ [.text "\nAssertions:\n"] ++ assertions.flatten ++
        [.text "\nAssertion Result: ", .text (if caseResult.assertionsOk then "PASS" else "FAIL"),
          .text "\n"])
    else
      some summary

def printRunResult (result : RunResult) : Option (List Piece) := do
  let cases ← (List.range result.caseResultCount).mapM (fun i => printCaseResult i (result.caseResults i))
  some cases.flatten

end HttpRuntime
