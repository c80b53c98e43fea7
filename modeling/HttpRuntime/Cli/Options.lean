import HttpRuntime.Cli.Hex

/-!
This module contains the options of the command line, that `parse_cli_options` accepts just the lists
of at most sixteen of them, and what it makes of them: one assertion for each, in their order.
-/

open Lib

namespace HttpRuntime

inductive CliOption where
  | expectStatus (value : Bytes)
  | expectBody (value : Bytes)
  | expectHeader (name value : Bytes)

namespace CliOption

def args (opt : CliOption) : List Bytes :=
  match opt with
  | .expectStatus value => [ascii "--expect-status", value]
  | .expectBody value => [ascii "--expect-body", value]
  | .expectHeader name value => [ascii "--expect-header", name, value]

def Valid (opt : CliOption) : Prop :=
  match opt with
  | .expectBody value => value.take 4 = ascii "hex:" → HexPattern (cstring (value.drop 4))
  | _ => True

-- What an option adds to the options before it.
def add (opt : CliOption) (options : CliOptions) (alloc : Bool) : Int × CliOptions :=
  match opt with
  | .expectStatus value => options.addStatus value
  | .expectBody value => options.addBody value alloc
  | .expectHeader name value => options.addHeader name value

-- The allocations that are left after an option.
def restAllocs (opt : CliOption) (allocs : List Bool) : List Bool :=
  match opt with
  | .expectBody _ => allocs.tail
  | _ => allocs

variable {options : CliOptions} {alloc : Bool}

def assertion (opt : CliOption) : Assertion :=
  match opt with
  | .expectStatus value => ⟨.statusEq, .int (atoi value)⟩
  | .expectBody value =>
    if value.take 4 = ascii "hex:" then
      let bytes := parseHexBytes (some (value.drop 4)) true
      ⟨.bodyContains, .bytes bytes ((bytes.map List.length).getD 0)⟩
    else
      ⟨.bodyContains, .bytes (some value) (strlen value)⟩
  | .expectHeader name value => ⟨.headerContains, .header ⟨some name, some value⟩⟩

-- The decoded pattern, which the options own.
def ownedBody (opt : CliOption) : Option Bytes :=
  match opt with
  | .expectBody value =>
    if value.take 4 = ascii "hex:" then parseHexBytes (some (value.drop 4)) true else none
  | _ => none

-- The options with one more.
def extend (options : CliOptions) (opt : CliOption) : CliOptions :=
  { options with
    assertions := options.assertions ++ [opt.assertion]
    ownedExpectedBody := options.ownedExpectedBody ++ opt.ownedBody.toList
  }

theorem extend_eq_addAssertion {opt : CliOption} (h : opt.ownedBody = none)
    : extend options opt = options.addAssertion opt.assertion := by
  unfold extend
  rw [h, Option.toList_none, List.append_nil]
  rfl

/-- An option that is accepted is valid, there was room for it, and it extends the options. -/
theorem add_eq_zero (opt : CliOption) (h : (opt.add options alloc).1 = 0)
    : opt.Valid ∧ options.assertions.length < maxAssertion ∧
        (opt.add options alloc).2 = extend options opt := by
  cases opt with
  | expectStatus value =>
    simp only [add, CliOptions.addStatus] at h ⊢
    split at h
    . cases h
    . next hroom =>
      rw [if_neg hroom, extend_eq_addAssertion rfl]
      exact ⟨trivial, Nat.not_le.mp hroom, rfl⟩
  | expectHeader name value =>
    simp only [add, CliOptions.addHeader] at h ⊢
    split at h
    . cases h
    . next hroom =>
      rw [if_neg hroom, extend_eq_addAssertion rfl]
      exact ⟨trivial, Nat.not_le.mp hroom, rfl⟩
  | expectBody value =>
    simp only [add, CliOptions.addBody] at h ⊢
    split at h
    . cases h
    . next hroom =>
      rw [if_neg hroom]
      split at h
      . next hhex =>
        rw [if_pos hhex]
        cases hbytes : parseHexBytes (some (value.drop 4)) alloc with
        | none =>
          rw [hbytes] at h
          cases h
        | some bytes =>
          rw [hbytes] at h
          dsimp only at h ⊢
          split at h
          . cases h
          . next howned =>
            rw [if_neg howned]
            rw [alloc_of_parseHexBytes hbytes] at hbytes
            refine ⟨fun _ => parseHexBytes_eq_some.mp ⟨bytes, hbytes⟩, Nat.not_le.mp hroom, ?_⟩
            simp only [extend, assertion, ownedBody, if_pos hhex, hbytes]
            rfl
      . next hhex =>
        have hassertion : (expectBody value).assertion =
            ⟨.bodyContains, .bytes (some value) (strlen value)⟩ :=
          if_neg hhex
        have howned : (expectBody value).ownedBody = none := if_neg hhex
        rw [if_neg hhex, extend_eq_addAssertion howned, hassertion]
        exact ⟨fun heq => absurd heq hhex, Nat.not_le.mp hroom, rfl⟩

theorem length_extend (options : CliOptions) (opt : CliOption)
    : (extend options opt).assertions.length = options.assertions.length + 1 :=
  List.length_append

theorem length_owned_extend (options : CliOptions) (opt : CliOption)
    : (extend options opt).ownedExpectedBody.length ≤ options.ownedExpectedBody.length + 1 := by
  unfold extend
  rw [List.length_append]
  cases opt.ownedBody with
  | none => exact Nat.le_succ _
  | some bytes => exact Nat.le_refl _

theorem add_cases (opt : CliOption) (options : CliOptions) (alloc : Bool)
    : (opt.add options alloc).1 = 0 ∨ (opt.add options alloc).1 = -1 := by
  cases opt with
  | expectStatus value =>
    simp only [add, CliOptions.addStatus]
    split
    . exact Or.inr rfl
    . exact Or.inl rfl
  | expectHeader name value =>
    simp only [add, CliOptions.addHeader]
    split
    . exact Or.inr rfl
    . exact Or.inl rfl
  | expectBody value =>
    simp only [add, CliOptions.addBody]
    grind

theorem add_of_valid {opt : CliOption} (hvalid : opt.Valid)
    (hroom : options.assertions.length < maxAssertion)
    (howned : options.ownedExpectedBody.length ≤ options.assertions.length)
    : (opt.add options true).1 = 0 := by
  have hroom' : ¬ options.assertions.length ≥ maxAssertion := Nat.not_le.mpr hroom
  cases opt with
  | expectStatus value => simp only [add, CliOptions.addStatus, if_neg hroom']
  | expectHeader name value => simp only [add, CliOptions.addHeader, if_neg hroom']
  | expectBody value =>
    simp only [add, CliOptions.addBody, if_neg hroom']
    split
    . next hhex =>
      rcases parseHexBytes_eq_some.mpr (hvalid hhex) with ⟨bytes, hbytes⟩
      have howned' : ¬ options.ownedExpectedBody.length ≥ maxAssertion := by omega
      rw [hbytes]
      simp only [if_neg howned']
    . rfl

end CliOption

section Parse

open CliOption

variable {args argv : List Bytes} {options : CliOptions} {allocs : List Bool} {opts : List CliOption}

theorem parseOptions_nil (options : CliOptions) (allocs : List Bool)
    : parseOptions [] options allocs = (0, options) := by
  rw [parseOptions]

theorem parseOptions_cons (opt : CliOption) (args : List Bytes) (options : CliOptions)
    (allocs : List Bool)
    : parseOptions (opt.args ++ args) options allocs =
        let res := opt.add options (allocs.headD true)
        if res.1 ≠ 0 then res else parseOptions args res.2 (opt.restAllocs allocs) := by
  have hbody : ascii "--expect-body" ≠ ascii "--expect-status" := by decide
  have hheader : ascii "--expect-header" ≠ ascii "--expect-status" := by decide
  have hheader' : ascii "--expect-header" ≠ ascii "--expect-body" := by decide
  cases opt with
  | expectStatus value =>
    simp only [CliOption.args, List.cons_append, List.nil_append]
    rw [parseOptions.eq_def]
    dsimp only
    rw [if_pos rfl]
    rfl
  | expectBody value =>
    simp only [CliOption.args, List.cons_append, List.nil_append]
    rw [parseOptions.eq_def]
    dsimp only
    rw [if_neg hbody, if_pos rfl]
    rfl
  | expectHeader name value =>
    simp only [CliOption.args, List.cons_append, List.nil_append]
    rw [parseOptions.eq_def]
    dsimp only
    rw [if_neg hheader, if_neg hheader', if_pos rfl]
    rfl

theorem exists_option (h : (parseOptions args options allocs).1 = 0) (hne : args ≠ [])
    : ∃ (opt : CliOption) (rest : List Bytes), args = opt.args ++ rest := by
  cases args with
  | nil => exact absurd rfl hne
  | cons option args =>
    unfold parseOptions at h
    dsimp only at h
    by_cases hstatus : option = ascii "--expect-status"
    . rw [if_pos hstatus] at h
      cases args with
      | nil => cases h
      | cons value args => exact ⟨.expectStatus value, args, by rw [hstatus]; rfl⟩
    . rw [if_neg hstatus] at h
      by_cases hbody : option = ascii "--expect-body"
      . rw [if_pos hbody] at h
        cases args with
        | nil => cases h
        | cons value args => exact ⟨.expectBody value, args, by rw [hbody]; rfl⟩
      . rw [if_neg hbody] at h
        by_cases hheader : option = ascii "--expect-header"
        . rw [if_pos hheader] at h
          match args, h with
          | name :: value :: args, _ => exact ⟨.expectHeader name value, args, by rw [hheader]; rfl⟩
        . rw [if_neg hheader] at h
          cases h

theorem parseOptions_cases (args : List Bytes) (options : CliOptions) (allocs : List Bool)
    : (parseOptions args options allocs).1 = 0 ∨ (parseOptions args options allocs).1 = -1 := by
  fun_induction parseOptions args options allocs with
  | case1 => exact Or.inl rfl
  | case3 options allocs value => exact (CliOption.expectStatus value).add_cases options true
  | case6 options allocs value =>
    exact (CliOption.expectBody value).add_cases options (allocs.headD true)
  | case8 options allocs name value =>
    exact (CliOption.expectHeader name value).add_cases options true
  | case4 options allocs value args res hok ih => exact ih
  | case7 options allocs value args res hok _ ih => exact ih
  | case9 options allocs name value args res hok _ _ ih => exact ih
  | case2 => exact Or.inr rfl
  | case5 => exact Or.inr rfl
  | case10 => exact Or.inr rfl
  | case11 => exact Or.inr rfl

-- A list of valid options for which there is room.
structure OptionList (args : List Bytes) (options : CliOptions) (opts : List CliOption) : Prop where
  args : args = opts.flatMap CliOption.args
  valid : ∀ opt ∈ opts, opt.Valid
  room : options.assertions.length + opts.length ≤ maxAssertion

theorem parseOptions_accepts (hroom : options.assertions.length ≤ maxAssertion)
    (h : (parseOptions args options allocs).1 = 0)
    : ∃ opts, OptionList args options opts ∧
        (parseOptions args options allocs).2 = opts.foldl extend options := by
  induction hn : args.length using Nat.strongRecOn generalizing args options allocs with
  | ind n ih =>
    by_cases hnil : args = []
    . rw [hnil, parseOptions_nil]
      exact ⟨[], ⟨rfl, by simp, hroom⟩, rfl⟩
    . rcases exists_option h hnil with ⟨opt, rest, hargs⟩
      have hlt : rest.length < n := by
        rw [← hn, hargs, List.length_append]
        have : 0 < opt.args.length := by cases opt <;> exact Nat.succ_pos _
        omega
      rw [hargs, parseOptions_cons] at h ⊢
      dsimp only at h ⊢
      by_cases hadd : (opt.add options (allocs.headD true)).1 = 0
      . rw [if_neg (not_not.mpr hadd)] at h ⊢
        have ⟨hvalid, hlength, hextend⟩ := add_eq_zero opt hadd
        have hroom' := length_extend options opt
        rw [hextend] at h ⊢
        rcases ih rest.length hlt (by omega) h rfl with ⟨opts, hopts, hfold⟩
        have hroom'' := hopts.room
        refine ⟨opt :: opts, ⟨?_, ?_, ?_⟩, hfold⟩
        . rw [hopts.args, List.flatMap_cons]
        . rw [List.forall_mem_cons]
          exact ⟨hvalid, hopts.valid⟩
        . rw [List.length_cons]
          omega
      . rw [if_pos hadd] at h
        exact absurd h hadd

theorem parseOptions_of_optionList (h : OptionList args options opts)
    (howned : options.ownedExpectedBody.length ≤ options.assertions.length)
    : parseOptions args options [] = (0, opts.foldl extend options) := by
  induction opts generalizing args options with
  | nil =>
    rw [h.args, List.flatMap_nil, parseOptions_nil]
    rfl
  | cons opt opts ih =>
    have hroom := h.room
    rw [List.length_cons] at hroom
    have hvalid := List.forall_mem_cons.mp h.valid
    have hadd : (opt.add options true).1 = 0 := add_of_valid hvalid.1 (by omega) howned
    have hassertions := length_extend options opt
    have howned' := length_owned_extend options opt
    have hrest : opt.restAllocs [] = [] := by cases opt <;> rfl
    rw [h.args, List.flatMap_cons, parseOptions_cons, List.headD_nil, hrest]
    dsimp only
    rw [if_neg (not_not.mpr hadd), (add_eq_zero opt hadd).2.2]
    apply ih _ (by omega)
    exact ⟨rfl, hvalid.2, by omega⟩

theorem parseOptions_flatMap (opts : List CliOption)
    (h : (parseOptions (opts.flatMap CliOption.args) options allocs).1 = 0)
    : (parseOptions (opts.flatMap CliOption.args) options allocs).2 = opts.foldl extend options := by
  induction opts generalizing options allocs with
  | nil =>
    rw [List.flatMap_nil, parseOptions_nil]
    rfl
  | cons opt opts ih =>
    rw [List.flatMap_cons, parseOptions_cons] at h ⊢
    dsimp only at h ⊢
    by_cases hadd : (opt.add options (allocs.headD true)).1 = 0
    . rw [if_neg (not_not.mpr hadd), (add_eq_zero opt hadd).2.2] at h ⊢
      exact ih h
    . rw [if_pos hadd] at h
      exact absurd h hadd

theorem foldl_extend (opts : List CliOption) (options : CliOptions)
    : opts.foldl extend options =
        { options with
          assertions := options.assertions ++ opts.map CliOption.assertion
          ownedExpectedBody := options.ownedExpectedBody ++ opts.filterMap CliOption.ownedBody
        } := by
  induction opts generalizing options with
  | nil => simp
  | cons opt opts ih =>
    rw [List.foldl_cons, ih]
    unfold extend
    simp only [List.map_cons, List.append_assoc, List.singleton_append]
    cases howned : opt.ownedBody with
    | none => rw [List.filterMap_cons_none howned]; rfl
    | some bytes => rw [List.filterMap_cons_some howned]; rfl

-- The options that the list makes.
def optionsOf (argv : List Bytes) (opts : List CliOption) : CliOptions where
  command := argv[1]?
  url := argv[2]?
  assertions := opts.map CliOption.assertion
  ownedExpectedBody := opts.filterMap CliOption.ownedBody

theorem parseCliOptions_ok (hlength : 3 ≤ argv.length) (h : (parseCliOptions argv .zero allocs).1 = 0)
    : ∃ opts, OptionList (argv.drop 3) .zero opts ∧
        (parseCliOptions argv .zero allocs).2 = optionsOf argv opts := by
  match argv, hlength with
  | program :: command :: url :: args, _ =>
    obtain ⟨opts, hopts, hfold⟩ := @parseOptions_accepts args
      { CliOptions.zero with command := some command, url := some url } _ (Nat.zero_le _) h
    rw [foldl_extend] at hfold
    exact ⟨opts, ⟨hopts.args, hopts.valid, hopts.room⟩, hfold⟩

theorem parseCliOptions_of_optionList (hlength : 3 ≤ argv.length)
    (h : OptionList (argv.drop 3) .zero opts) : parseCliOptions argv .zero [] = (0, optionsOf argv opts) := by
  match argv, hlength, h with
  | program :: command :: url :: args, _, h =>
    have hopts : OptionList args { CliOptions.zero with command := some command, url := some url } opts :=
      ⟨h.args, h.valid, h.room⟩
    have hparse := parseOptions_of_optionList hopts (Nat.le_refl _)
    rw [foldl_extend] at hparse
    exact hparse

theorem parseCliOptions_cases (argv : List Bytes) (options : CliOptions) (allocs : List Bool)
    : (parseCliOptions argv options allocs).1 = 0 ∨ (parseCliOptions argv options allocs).1 = -1 := by
  unfold parseCliOptions
  split
  . exact parseOptions_cases _ _ allocs
  . exact Or.inr rfl

end Parse

end HttpRuntime
