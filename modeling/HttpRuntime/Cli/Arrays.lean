import HttpRuntime.Cli.Options
import Mathlib.Data.List.Forall2

/-!
This module contains the parser of the command line with the accesses to its arrays: `argv` up to
`argc`, and the sixteen entries each for the assertions and for the patterns that the options own.
-/

open Lib

namespace HttpRuntime

/-- `CliOptions` in memory. The entries up to the counters are in use. -/
structure CliArrays where
  command : Option Bytes
  url : Option Bytes
  assertions : Vector Assertion maxAssertion
  assertionCount : Nat
  ownedExpectedBody : Vector (Option Bytes) maxAssertion
  ownedBodyCount : Nat

namespace CliArrays

def zero : CliArrays where
  command := none
  url := none
  assertions := .replicate _ ⟨.statusEq, .none⟩
  assertionCount := 0
  ownedExpectedBody := .replicate _ none
  ownedBodyCount := 0

-- A write outside of the array has no result.
def writeAssertion (arrays : CliArrays) (as : Assertion) : Option CliArrays :=
  if h : arrays.assertionCount < maxAssertion then
    some { arrays with
      assertions := arrays.assertions.set arrays.assertionCount as h
      assertionCount := arrays.assertionCount + 1
    }
  else
    none

def writeOwnedBody (arrays : CliArrays) (bytes : Bytes) : Option CliArrays :=
  if h : arrays.ownedBodyCount < maxAssertion then
    some { arrays with
      ownedExpectedBody := arrays.ownedExpectedBody.set arrays.ownedBodyCount (some bytes) h
      ownedBodyCount := arrays.ownedBodyCount + 1
    }
  else
    none

def addStatus (arrays : CliArrays) (value : Bytes) : Option (Int × CliArrays) :=
  if arrays.assertionCount ≥ maxAssertion then some (-1, arrays)
  else (arrays.writeAssertion ⟨.statusEq, .int (atoi value)⟩).map (fun arrays => (0, arrays))

def addBody (arrays : CliArrays) (value : Bytes) (alloc : Bool) : Option (Int × CliArrays) :=
  if arrays.assertionCount ≥ maxAssertion then
    some (-1, arrays)
  else if value.take 4 = ascii "hex:" then
    match parseHexBytes (some (value.drop 4)) alloc with
    | none => (arrays.writeAssertion ⟨.bodyContains, .bytes none 0⟩).map (fun arrays => (-1, arrays))
    | some bytes =>
      if arrays.ownedBodyCount ≥ maxAssertion then
        (arrays.writeAssertion ⟨.bodyContains, .bytes none 0⟩).map (fun arrays => (-1, arrays))
      else do
        let arrays ← arrays.writeAssertion ⟨.bodyContains, .bytes (some bytes) bytes.length⟩
        let arrays ← arrays.writeOwnedBody bytes
        some (0, arrays)
  else
    (arrays.writeAssertion ⟨.bodyContains, .bytes (some value) (strlen value)⟩).map
      (fun arrays => (0, arrays))

def addHeader (arrays : CliArrays) (name value : Bytes) : Option (Int × CliArrays) :=
  if arrays.assertionCount ≥ maxAssertion then some (-1, arrays)
  else
    (arrays.writeAssertion ⟨.headerContains, .header ⟨some name, some value⟩⟩).map
      (fun arrays => (0, arrays))

end CliArrays

-- The loop from the index `i` on. A read outside of `argv` has no result either.
def parseFrom (argv : List Bytes) (i : Nat) (arrays : CliArrays) (allocs : List Bool)
    : Option (Int × CliArrays) :=
  if _h : i < argv.length then do
    let option ← argv[i]?
    if option = ascii "--expect-status" then
      if i + 1 ≥ argv.length then
        some (-1, arrays)
      else
        let value ← argv[i + 1]?
        let res ← arrays.addStatus value
        if res.1 ≠ 0 then some res else parseFrom argv (i + 2) res.2 allocs
    else if option = ascii "--expect-body" then
      if i + 1 ≥ argv.length then
        some (-1, arrays)
      else
        let value ← argv[i + 1]?
        let res ← arrays.addBody value (allocs.headD true)
        if res.1 ≠ 0 then some res else parseFrom argv (i + 2) res.2 allocs.tail
    else if option = ascii "--expect-header" then
      if i + 2 ≥ argv.length then
        some (-1, arrays)
      else
        let name ← argv[i + 1]?
        let value ← argv[i + 2]?
        let res ← arrays.addHeader name value
        if res.1 ≠ 0 then some res else parseFrom argv (i + 3) res.2 allocs
    else
      some (-1, arrays)
  else
    some (0, arrays)
termination_by argv.length - i

def parseCliArguments (argv : List Bytes) (arrays : CliArrays) (allocs : List Bool)
    : Option (Int × CliArrays) :=
  if argv.length < 3 then
    some (-1, arrays)
  else do
    let command ← argv[1]?
    let url ← argv[2]?
    parseFrom argv 3 { arrays with command := some command, url := some url } allocs

section Simulation

/-- The entries in use are those of the options. -/
structure Represents (arrays : CliArrays) (options : CliOptions) : Prop where
  command : arrays.command = options.command
  url : arrays.url = options.url
  assertionCount : arrays.assertionCount = options.assertions.length
  assertions : arrays.assertions.toList.take arrays.assertionCount = options.assertions
  ownedBodyCount : arrays.ownedBodyCount = options.ownedExpectedBody.length
  ownedExpectedBody :
    arrays.ownedExpectedBody.toList.take arrays.ownedBodyCount = options.ownedExpectedBody.map some

/-- Every access was inside, and the result is the same. -/
def Simulates (res : Option (Int × CliArrays)) (res' : Int × CliOptions) : Prop :=
  ∃ arrays, res = some (res'.1, arrays) ∧ Represents arrays res'.2

variable {arrays : CliArrays} {options : CliOptions}

theorem represents_zero : Represents .zero .zero where
  command := rfl
  url := rfl
  assertionCount := rfl
  assertions := rfl
  ownedBodyCount := rfl
  ownedExpectedBody := rfl

theorem take_set {α : Type} {n : Nat} (v : Vector α n) {i : Nat} (h : i < n) (x : α)
    : (v.set i x h).toList.take (i + 1) = v.toList.take i ++ [x] := by
  have hlength : i < (v.toList.set i x).length := by
    rw [List.length_set, Vector.length_toList]
    exact h
  rw [Vector.toList_set, List.take_succ_eq_append_getElem hlength, List.getElem_set_self,
    List.take_set_of_le (Nat.le_refl i)]

theorem Represents.writeAssertion (h : Represents arrays options)
    (hroom : ¬ options.assertions.length ≥ maxAssertion) (as : Assertion)
    : ∃ arrays', arrays.writeAssertion as = some arrays' ∧ Represents arrays' (options.addAssertion as) := by
  have hcount := h.assertionCount
  have hroom' : arrays.assertionCount < maxAssertion := by omega
  have hlength : (options.addAssertion as).assertions.length = options.assertions.length + 1 :=
    List.length_append
  unfold CliArrays.writeAssertion
  rw [dif_pos hroom']
  refine ⟨_, rfl, h.command, h.url, ?_, ?_, h.ownedBodyCount, h.ownedExpectedBody⟩
  . rw [hlength]
    exact congrArg Nat.succ hcount
  . exact (take_set _ hroom' as).trans (congrArg (fun l => l ++ [as]) h.assertions)

theorem Represents.writeOwnedBody (h : Represents arrays options)
    (hroom : ¬ options.ownedExpectedBody.length ≥ maxAssertion) (bytes : Bytes)
    : ∃ arrays', arrays.writeOwnedBody bytes = some arrays' ∧
        Represents arrays' { options with ownedExpectedBody := options.ownedExpectedBody ++ [bytes] } := by
  have hcount := h.ownedBodyCount
  have hroom' : arrays.ownedBodyCount < maxAssertion := by omega
  unfold CliArrays.writeOwnedBody
  rw [dif_pos hroom']
  refine ⟨_, rfl, h.command, h.url, h.assertionCount, h.assertions, ?_, ?_⟩
  . dsimp only
    rw [List.length_append, hcount]
    rfl
  . dsimp only
    rw [take_set, h.ownedExpectedBody, List.map_append]
    rfl

theorem Represents.addStatus (h : Represents arrays options) (value : Bytes)
    : Simulates (arrays.addStatus value) (options.addStatus value) := by
  unfold CliArrays.addStatus CliOptions.addStatus
  rw [h.assertionCount]
  split
  . exact ⟨arrays, rfl, h⟩
  . next hroom =>
    obtain ⟨arrays', hwrite, hafter⟩ := h.writeAssertion hroom ⟨.statusEq, .int (atoi value)⟩
    rw [hwrite]
    exact ⟨arrays', rfl, hafter⟩

theorem Represents.addHeader (h : Represents arrays options) (name value : Bytes)
    : Simulates (arrays.addHeader name value) (options.addHeader name value) := by
  unfold CliArrays.addHeader CliOptions.addHeader
  rw [h.assertionCount]
  split
  . exact ⟨arrays, rfl, h⟩
  . next hroom =>
    obtain ⟨arrays', hwrite, hafter⟩ :=
      h.writeAssertion hroom ⟨.headerContains, .header ⟨some name, some value⟩⟩
    rw [hwrite]
    exact ⟨arrays', rfl, hafter⟩

theorem Represents.addBody (h : Represents arrays options) (value : Bytes) (alloc : Bool)
    : Simulates (arrays.addBody value alloc) (options.addBody value alloc) := by
  unfold CliArrays.addBody CliOptions.addBody
  rw [h.assertionCount, h.ownedBodyCount]
  split
  . exact ⟨arrays, rfl, h⟩
  . next hroom =>
    split
    . cases parseHexBytes (some (value.drop 4)) alloc with
      | none =>
        obtain ⟨arrays', hwrite, hafter⟩ := h.writeAssertion hroom ⟨.bodyContains, .bytes none 0⟩
        dsimp only
        rw [hwrite]
        exact ⟨arrays', rfl, hafter⟩
      | some bytes =>
        dsimp only
        split
        . obtain ⟨arrays', hwrite, hafter⟩ := h.writeAssertion hroom ⟨.bodyContains, .bytes none 0⟩
          rw [hwrite]
          exact ⟨arrays', rfl, hafter⟩
        . next howned =>
          obtain ⟨arrays₁, hwrite, hafter⟩ :=
            h.writeAssertion hroom ⟨.bodyContains, .bytes (some bytes) bytes.length⟩
          obtain ⟨arrays₂, hwrite', hafter'⟩ := hafter.writeOwnedBody howned bytes
          rw [hwrite, Option.bind_eq_bind, Option.bind_some, hwrite']
          exact ⟨arrays₂, rfl, hafter'⟩
    . obtain ⟨arrays', hwrite, hafter⟩ :=
        h.writeAssertion hroom ⟨.bodyContains, .bytes (some value) (strlen value)⟩
      rw [hwrite]
      exact ⟨arrays', rfl, hafter⟩

-- The rest of the arguments from an index on.
theorem drop_eq_cons {argv : List Bytes} {i : Nat} (h : i < argv.length)
    : argv[i]? = some argv[i] ∧ argv.drop i = argv[i] :: argv.drop (i + 1) :=
  ⟨List.getElem?_eq_getElem h, List.drop_eq_getElem_cons h⟩

/-- The loop never leaves `argv` and the arrays, and it does what it does on the list of the options. -/
theorem parseFrom_simulates {argv : List Bytes} {i : Nat} {allocs : List Bool}
    (h : Represents arrays options)
    : Simulates (parseFrom argv i arrays allocs) (parseOptions (argv.drop i) options allocs) := by
  induction hn : argv.length - i using Nat.strongRecOn generalizing i arrays options allocs with
  | ind n ih =>
    -- One option, and the rest of the loop behind it.
    have hnext {k : Nat} (hk : 0 < k) (hi : i < argv.length) {res : Option (Int × CliArrays)}
        {res' : Int × CliOptions} {allocs' : List Bool} (hres : Simulates res res')
        : Simulates
            (res.bind fun res => if res.1 ≠ 0 then some res else parseFrom argv (i + k) res.2 allocs')
            (if res'.1 ≠ 0 then res' else parseOptions (argv.drop (i + k)) res'.2 allocs') := by
      obtain ⟨arrays', hres, hafter⟩ := hres
      rw [hres, Option.bind_some]
      dsimp only
      split
      . exact ⟨arrays', rfl, hafter⟩
      . exact ih _ (by omega) hafter rfl
    unfold parseFrom
    by_cases hi : i < argv.length
    . obtain ⟨hread, hdrop⟩ := drop_eq_cons hi
      rw [dif_pos hi, hread, hdrop, parseOptions.eq_def]
      dsimp only [Option.bind_eq_bind, Option.bind_some]
      split
      . by_cases hend : i + 1 ≥ argv.length
        . rw [if_pos hend, List.drop_eq_nil_of_le hend]
          exact ⟨arrays, rfl, h⟩
        . obtain ⟨hread, hdrop⟩ := drop_eq_cons (Nat.not_le.mp hend)
          rw [if_neg hend, hread, hdrop]
          exact hnext (by decide) hi (h.addStatus _)
      . split
        . by_cases hend : i + 1 ≥ argv.length
          . rw [if_pos hend, List.drop_eq_nil_of_le hend]
            exact ⟨arrays, rfl, h⟩
          . obtain ⟨hread, hdrop⟩ := drop_eq_cons (Nat.not_le.mp hend)
            rw [if_neg hend, hread, hdrop]
            exact hnext (by decide) hi (h.addBody _ _)
        . split
          . by_cases hend : i + 2 ≥ argv.length
            . rw [if_pos hend]
              by_cases hone : i + 1 ≥ argv.length
              . rw [List.drop_eq_nil_of_le hone]
                exact ⟨arrays, rfl, h⟩
              . rw [(drop_eq_cons (Nat.not_le.mp hone)).2, List.drop_eq_nil_of_le hend]
                exact ⟨arrays, rfl, h⟩
            . obtain ⟨hread, hdrop⟩ := @drop_eq_cons argv (i + 1) (by omega)
              obtain ⟨hread', hdrop'⟩ := drop_eq_cons (Nat.not_le.mp hend)
              rw [if_neg hend, hread, hread', hdrop, hdrop']
              exact hnext (by decide) hi (h.addHeader _ _)
          . exact ⟨arrays, rfl, h⟩
    . rw [dif_neg hi, List.drop_eq_nil_of_le (by omega), parseOptions_nil]
      exact ⟨arrays, rfl, h⟩

theorem parseCliArguments_simulates (h : Represents arrays options) (argv : List Bytes) (allocs : List Bool)
    : Simulates (parseCliArguments argv arrays allocs) (parseCliOptions argv options allocs) := by
  unfold parseCliArguments parseCliOptions
  match argv with
  | [] => exact ⟨arrays, rfl, h⟩
  | [program] => exact ⟨arrays, rfl, h⟩
  | [program, command] => exact ⟨arrays, rfl, h⟩
  | program :: command :: url :: args =>
    have hstart : Represents { arrays with command := some command, url := some url }
        { options with command := some command, url := some url } :=
      ⟨rfl, rfl, h.assertionCount, h.assertions, h.ownedBodyCount, h.ownedExpectedBody⟩
    have hlength : ¬ (program :: command :: url :: args).length < 3 := by simp
    rw [if_neg hlength]
    exact parseFrom_simulates hstart

end Simulation

section Groups

/-- The arguments are at most sixteen groups, and what follows `hex:` in a pattern are pairs of digits. -/
structure GroupList (args : List Bytes) (opts : List CliOption) : Prop where
  args : args = opts.flatMap CliOption.args
  room : opts.length ≤ maxAssertion
  hex : ∀ digits, .expectBody (ascii "hex:" ++ digits) ∈ opts →
    digits ≠ [] ∧ digits.length % 2 = 0 ∧ ∀ c ∈ digits, isxdigit c = true

/-- The assertion of a group, and the pattern that is decoded for it. -/
inductive CliOption.Makes : CliOption → Assertion → Option Bytes → Prop where
  | status {value : Bytes} : Makes (.expectStatus value) ⟨.statusEq, .int (atoi value)⟩ none
  | header {name value : Bytes}
    : Makes (.expectHeader name value) ⟨.headerContains, .header ⟨some name, some value⟩⟩ none
  | text {value : Bytes} (h : ¬ ascii "hex:" <+: value)
    : Makes (.expectBody value) ⟨.bodyContains, .bytes (some value) value.length⟩ none
  | hex {digits bytes : Bytes} (h : HexOf digits bytes)
    : Makes (.expectBody (ascii "hex:" ++ digits)) ⟨.bodyContains, .bytes (some bytes) bytes.length⟩
        (some bytes)

variable {opt : CliOption} {args argv : List Bytes} {opts : List CliOption}

theorem take_hex_iff {value : Bytes} : value.take 4 = ascii "hex:" ↔ ascii "hex:" <+: value := by
  rw [List.prefix_iff_eq_take]
  exact eq_comm

theorem hexPattern_iff_isxdigit {hex : Bytes}
    : HexPattern hex ↔ hex ≠ [] ∧ hex.length % 2 = 0 ∧ ∀ c ∈ hex, isxdigit c = true := by
  simp only [← hexDigitValue_nonneg_iff]
  exact ⟨fun h => ⟨h.ne_nil, h.even, h.digits⟩, fun h => ⟨h.1, h.2.1, h.2.2⟩⟩

theorem valid_iff (hargs : ∀ arg ∈ opt.args, 0 ∉ arg)
    : opt.Valid ↔ ∀ digits, opt = .expectBody (ascii "hex:" ++ digits) →
        digits ≠ [] ∧ digits.length % 2 = 0 ∧ ∀ c ∈ digits, isxdigit c = true := by
  cases opt with
  | expectStatus value => simp [CliOption.Valid]
  | expectHeader name value => simp [CliOption.Valid]
  | expectBody value =>
    have hvalue : 0 ∉ value := hargs value (by simp [CliOption.args])
    have hdrop : cstring (value.drop 4) = value.drop 4 :=
      cstring_eq_self (fun c hc heq => hvalue (heq ▸ List.mem_of_mem_drop hc))
    unfold CliOption.Valid
    dsimp only
    rw [hdrop, hexPattern_iff_isxdigit]
    constructor
    . rintro h digits hdigits
      obtain rfl := CliOption.expectBody.inj hdigits
      exact h rfl
    . intro h htake
      apply h
      rw [← htake, List.take_append_drop]

theorem groupList_iff (hargs : ∀ arg ∈ args, 0 ∉ arg)
    : GroupList args opts ↔ OptionList args .zero opts := by
  have hvalid (h : args = opts.flatMap CliOption.args) : ∀ opt ∈ opts, _ :=
    fun opt hopt => @valid_iff opt (fun arg harg => hargs arg (h ▸ List.mem_flatMap.mpr ⟨opt, hopt, harg⟩))
  constructor
  . intro h
    refine ⟨h.args, ?_, ?_⟩
    . intro opt hopt
      rw [hvalid h.args opt hopt]
      rintro digits rfl
      exact h.hex digits hopt
    . rw [CliOptions.zero, List.length_nil, Nat.zero_add]
      exact h.room
  . intro h
    have hroom := h.room
    rw [CliOptions.zero, List.length_nil, Nat.zero_add] at hroom
    exact ⟨h.args, hroom, fun digits hopt => (hvalid h.args _ hopt).mp (h.valid _ hopt) digits rfl⟩

theorem CliOption.Valid.makes (h : opt.Valid) (hargs : ∀ arg ∈ opt.args, 0 ∉ arg)
    : opt.Makes opt.assertion opt.ownedBody := by
  cases opt with
  | expectStatus value => exact .status
  | expectHeader name value => exact .header
  | expectBody value =>
    have hvalue : 0 ∉ value := hargs value (by simp [CliOption.args])
    unfold CliOption.assertion CliOption.ownedBody
    dsimp only
    by_cases htake : value.take 4 = ascii "hex:"
    . have hdrop : cstring (value.drop 4) = value.drop 4 :=
        cstring_eq_self (fun c hc heq => hvalue (heq ▸ List.mem_of_mem_drop hc))
      obtain ⟨bytes, hbytes⟩ := parseHexBytes_eq_some.mpr (h htake)
      have hspelled := (parseHexBytes_iff.mp hbytes).2
      rw [hdrop] at hspelled
      rw [if_pos htake, if_pos htake, hbytes]
      have hmakes := Makes.hex hspelled
      rw [← htake, List.take_append_drop] at hmakes
      exact hmakes
    . rw [if_neg htake, if_neg htake, strlen_of_not_mem hvalue]
      exact .text (fun hprefix' => htake (take_hex_iff.mpr hprefix'))

/-- A group makes one assertion only. -/
theorem CliOption.Makes.unique {as as' : Assertion} {owned owned' : Option Bytes} (h : opt.Makes as owned)
    (h' : opt.Makes as' owned') : as = as' ∧ owned = owned' := by
  cases h with
  | status =>
    cases h'
    exact ⟨rfl, rfl⟩
  | header =>
    cases h'
    exact ⟨rfl, rfl⟩
  | text hprefix =>
    cases h' with
    | text _ => exact ⟨rfl, rfl⟩
    | hex hspelled => exact absurd (List.prefix_append _ _) hprefix
  | hex hspelled =>
    rename_i digits bytes
    generalize hvalue : ascii "hex:" ++ digits = value at h'
    cases h' with
    | text hprefix =>
      rw [← hvalue] at hprefix
      exact absurd (List.prefix_append _ _) hprefix
    | hex hspelled' =>
      rw [List.append_cancel_left hvalue] at hspelled
      rw [hspelled.unique hspelled']
      exact ⟨rfl, rfl⟩

theorem exists_made (hvalid : ∀ opt ∈ opts, opt.Valid) (hargs : ∀ opt ∈ opts, ∀ arg ∈ opt.args, 0 ∉ arg)
    : ∃ made : List (Assertion × Option Bytes), List.Forall₂ (fun opt m => opt.Makes m.1 m.2) opts made ∧
        opts.map CliOption.assertion = made.map Prod.fst ∧
        opts.filterMap CliOption.ownedBody = made.filterMap Prod.snd := by
  refine ⟨opts.map (fun opt => (opt.assertion, opt.ownedBody)), ?_, ?_, ?_⟩
  . rw [List.forall₂_map_right_iff, List.forall₂_same]
    intro opt hopt
    exact (hvalid opt hopt).makes (hargs opt hopt)
  . rw [List.map_map]
    rfl
  . rw [List.filterMap_map]
    rfl

/--
`parse_cli_options` never leaves its arrays. It accepts the lists of groups, and each of them makes its
assertion, in their order.
-/
theorem parseCliArguments_grammar (hargc : 3 ≤ argv.length) (hargv : ∀ arg ∈ argv, 0 ∉ arg)
    : ∃ r arrays, parseCliArguments argv .zero [] = some (r, arrays) ∧
        (r = 0 ↔ ∃ opts, GroupList (argv.drop 3) opts) ∧
        ∀ opts, GroupList (argv.drop 3) opts → ∃ made : List (Assertion × Option Bytes),
          List.Forall₂ (fun opt m => opt.Makes m.1 m.2) opts made ∧
          arrays.assertionCount = made.length ∧
          arrays.assertions.toList.take arrays.assertionCount = made.map Prod.fst ∧
          arrays.ownedBodyCount = (made.filterMap Prod.snd).length ∧
          arrays.ownedExpectedBody.toList.take arrays.ownedBodyCount =
            (made.filterMap Prod.snd).map some := by
  obtain ⟨arrays, hrun, hafter⟩ := parseCliArguments_simulates represents_zero argv []
  have hdrop : ∀ arg ∈ argv.drop 3, 0 ∉ arg := fun arg harg => hargv arg (List.mem_of_mem_drop harg)
  refine ⟨_, arrays, hrun, ?_, ?_⟩
  . simp only [groupList_iff hdrop]
    constructor
    . intro hzero
      obtain ⟨opts, hopts, _⟩ := parseCliOptions_ok hargc hzero
      exact ⟨opts, hopts⟩
    . rintro ⟨opts, hopts⟩
      rw [parseCliOptions_of_optionList hargc hopts]
  . intro opts hgroups
    have hopts := (groupList_iff hdrop).mp hgroups
    have hargs : ∀ opt ∈ opts, ∀ arg ∈ opt.args, 0 ∉ arg := by
      intro opt hopt arg harg
      apply hdrop arg
      rw [hopts.args]
      exact List.mem_flatMap.mpr ⟨opt, hopt, harg⟩
    obtain ⟨made, hmade, hassertions, howned⟩ := exists_made hopts.valid hargs
    rw [parseCliOptions_of_optionList hargc hopts] at hafter
    refine ⟨made, hmade, ?_, ?_, ?_, ?_⟩
    . rw [hafter.assertionCount, ← hmade.length_eq]
      exact List.length_map _
    . rw [hafter.assertions, ← hassertions]
      rfl
    . rw [hafter.ownedBodyCount, ← howned]
      rfl
    . rw [hafter.ownedExpectedBody, ← howned]
      rfl

def hexArgs : List Bytes :=
  ["fman", "get", "u", "--expect-body", "hex:00fF", "--expect-status", "200"].map ascii

theorem groupList_hexArgs
    : GroupList (hexArgs.drop 3) [.expectBody (ascii "hex:00fF"), .expectStatus (ascii "200")] where
  args := by decide +kernel
  room := by decide
  hex := by
    intro digits hmem
    have hdigits : digits = ascii "00fF" := by simpa [ascii] using hmem
    rw [hdigits]
    decide +kernel

theorem parseCliArguments_grammar_hex
    : ∃ arrays,
        parseCliArguments hexArgs .zero [] = some (0, arrays) ∧
        arrays.assertionCount = 2 ∧
        arrays.assertions.toList.take 2 =
          [⟨.bodyContains, .bytes (some [0, 255]) 2⟩, ⟨.statusEq, .int 200⟩] ∧
        arrays.ownedBodyCount = 1 ∧
        arrays.ownedExpectedBody.toList.take 1 = [some [0, 255]] := by
  obtain ⟨r, arrays, hrun, hzero, hmade⟩ :=
    @parseCliArguments_grammar hexArgs (by decide) (by decide +kernel)
  obtain ⟨made, hall, hcount, hassertions, howned, hpatterns⟩ := hmade _ groupList_hexArgs
  have hbody : (CliOption.expectBody (ascii "hex:" ++ ascii "00fF")).Makes
      ⟨.bodyContains, .bytes (some [0, 255]) 2⟩ (some [0, 255]) :=
    .hex (.cons (by decide) (by decide) (.cons (by decide) (by decide) .nil))
  have hatoi : atoi (ascii "200") = 200 := by decide +kernel
  have hstatus : (CliOption.expectStatus (ascii "200")).Makes ⟨.statusEq, .int 200⟩ none := by
    rw [← hatoi]
    exact .status
  have heq : made = [(⟨.bodyContains, .bytes (some [0, 255]) 2⟩, some [0, 255]),
      (⟨.statusEq, .int 200⟩, none)] := by
    cases hall with
    | cons hfirst hall =>
      cases hall with
      | cons hsecond hall =>
        cases hall
        obtain ⟨has, howned⟩ := hbody.unique hfirst
        obtain ⟨has', howned'⟩ := hstatus.unique hsecond
        rw [has, howned, has', howned']
  rw [heq] at hcount hassertions howned hpatterns
  rw [hcount] at hassertions
  rw [howned] at hpatterns
  rw [hzero.mpr ⟨_, groupList_hexArgs⟩] at hrun
  exact ⟨arrays, hrun, hcount, hassertions, howned, hpatterns⟩

end Groups

end HttpRuntime
