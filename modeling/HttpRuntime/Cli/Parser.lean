import HttpRuntime.Core.Assertion
import HttpRuntime.Lib.CType

/-!
This module contains the parser of the command line, `cli_parser.c`. An argument is the list of its
bytes before the terminator. What is printed is left out.
-/

open Lib

namespace HttpRuntime

def maxAssertion : Nat := 16

def hexDigitValue (c : UInt8) : Int :=
  if 48 ≤ c ∧ c ≤ 57 then (c.toNat : Int) - 48
  else if 97 ≤ c ∧ c ≤ 102 then 10 + ((c.toNat : Int) - 97)
  else if 65 ≤ c ∧ c ≤ 70 then 10 + ((c.toNat : Int) - 65)
  else -1

-- The loop over the pairs of digits.
def parseHexDigits (hex : Bytes) : Option Bytes :=
  match hex with
  | hi :: lo :: hex =>
    if hexDigitValue hi < 0 ∨ hexDigitValue lo < 0 then
      none
    else
      let byte := ((hexDigitValue hi).toNat <<< 4) ||| (hexDigitValue lo).toNat
      (parseHexDigits hex).map (fun bytes => byte.toUInt8 :: bytes)
  | _ => some []

-- `alloc` tells whether the allocation succeeds.
def parseHexBytes (hex : Option Bytes) (alloc : Bool) : Option Bytes :=
  match hex with
  | none => none
  | some hex =>
    if strlen hex = 0 ∨ strlen hex % 2 ≠ 0 then none
    else if !alloc then none
    else parseHexDigits (cstring hex)

structure CliOptions where
  command : Option Bytes
  url : Option Bytes
  assertions : List Assertion
  ownedExpectedBody : List Bytes
  deriving DecidableEq, Repr

namespace CliOptions

def zero : CliOptions where
  command := none
  url := none
  assertions := []
  ownedExpectedBody := []

-- The next free entry of `assertions`, filled.
def addAssertion (options : CliOptions) (as : Assertion) : CliOptions :=
  { options with assertions := options.assertions ++ [as] }

def addStatus (options : CliOptions) (value : Bytes) : Int × CliOptions :=
  if options.assertions.length ≥ maxAssertion then (-1, options)
  else (0, options.addAssertion ⟨.statusEq, .int (atoi value)⟩)

def addBody (options : CliOptions) (value : Bytes) (alloc : Bool) : Int × CliOptions :=
  if options.assertions.length ≥ maxAssertion then
    (-1, options)
  else if value.take 4 = ascii "hex:" then
    match parseHexBytes (some (value.drop 4)) alloc with
    | none => (-1, options.addAssertion ⟨.bodyContains, .bytes none 0⟩)
    | some bytes =>
      if options.ownedExpectedBody.length ≥ maxAssertion then
        (-1, options.addAssertion ⟨.bodyContains, .bytes none 0⟩)
      else
        let owned := options.ownedExpectedBody ++ [bytes]
        let options := options.addAssertion ⟨.bodyContains, .bytes (some bytes) bytes.length⟩
        (0, { options with ownedExpectedBody := owned })
  else
    (0, options.addAssertion ⟨.bodyContains, .bytes (some value) (strlen value)⟩)

def addHeader (options : CliOptions) (name value : Bytes) : Int × CliOptions :=
  if options.assertions.length ≥ maxAssertion then (-1, options)
  else (0, options.addAssertion ⟨.headerContains, .header ⟨some name, some value⟩⟩)

end CliOptions

-- The loop over the arguments. `allocs` tells for each body whether its allocation succeeds.
def parseOptions (args : List Bytes) (options : CliOptions) (allocs : List Bool) : Int × CliOptions :=
  match args with
  | [] => (0, options)
  | option :: args =>
    if option = ascii "--expect-status" then
      match args with
      | [] => (-1, options)
      | value :: args =>
        let res := options.addStatus value
        if res.1 ≠ 0 then res else parseOptions args res.2 allocs
    else if option = ascii "--expect-body" then
      match args with
      | [] => (-1, options)
      | value :: args =>
        let res := options.addBody value (allocs.headD true)
        if res.1 ≠ 0 then res else parseOptions args res.2 allocs.tail
    else if option = ascii "--expect-header" then
      match args with
      | name :: value :: args =>
        let res := options.addHeader name value
        if res.1 ≠ 0 then res else parseOptions args res.2 allocs
      | _ => (-1, options)
    else
      (-1, options)
termination_by args.length

def parseCliOptions (argv : List Bytes) (options : CliOptions) (allocs : List Bool)
    : Int × CliOptions :=
  match argv with
  | _ :: command :: url :: args =>
    parseOptions args { options with command := some command, url := some url } allocs
  | _ => (-1, options)

end HttpRuntime
