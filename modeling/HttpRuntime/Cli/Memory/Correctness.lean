import HttpRuntime.Cli.Memory.Commands
import HttpRuntime.Dsl.Memory.Correctness
import Mathlib.Tactic.Abel

/-!
This module contains that the command line gives every block back, whatever allocations are refused, and
that it does what `main` of `Cli.Commands` does when it is told of the same refusals.
-/

open Lib

namespace HttpRuntime
namespace OnHeap

def Pattern.val (data : Pattern) : Option Bytes :=
  match data with
  | .null => none
  | .arg value => some value
  | .owned bytes => some bytes.val

def CliAssertion.blocks (as : CliAssertion) : Multiset Nat :=
  match as with
  | .bodyContains (.owned bytes) _ => {bytes.block}
  | _ => 0

def CliAssertion.erase (as : CliAssertion) : HttpRuntime.Assertion :=
  match as with
  | .statusEq n => ⟨.statusEq, .int n⟩
  | .bodyContains data len => ⟨.bodyContains, .bytes data.val len⟩
  | .headerContains name value => ⟨.headerContains, .header ⟨some name, some value⟩⟩

namespace CliOptions

def blocks (options : CliOptions) : Multiset Nat :=
  (options.ownedExpectedBody.map (fun bytes => ({bytes.block} : Multiset Nat))).sum

def erase (options : CliOptions) : HttpRuntime.CliOptions where
  command := options.command
  url := options.url
  assertions := options.assertions.map CliAssertion.erase
  ownedExpectedBody := options.ownedExpectedBody.map Boxed.val

-- A pattern outside of the arguments lies in one of the blocks that the options own.
def Owns (options : CliOptions) : Prop := ∀ as ∈ options.assertions, as.blocks ≤ options.blocks

variable {options : CliOptions}

theorem Owns.addAssertion (h : options.Owns) {as : CliAssertion} (hblocks : as.blocks = 0)
    : (options.addAssertion as).Owns := by
  intro as' has'
  unfold CliOptions.addAssertion at has' ⊢
  rw [List.mem_append, List.mem_singleton] at has'
  cases has' with
  | inl hold => exact h as' hold
  | inr hnew =>
    rw [hnew, hblocks]
    exact Multiset.zero_le _

theorem erase_addAssertion (options : CliOptions) (as : CliAssertion)
    : (options.addAssertion as).erase = options.erase.addAssertion as.erase := by
  unfold erase CliOptions.addAssertion HttpRuntime.CliOptions.addAssertion
  rw [List.map_append]
  rfl

theorem Owns.addOwned (h : options.Owns) (bytes : Boxed Bytes) (len : Nat)
    : { options.addAssertion (.bodyContains (.owned bytes) len) with
        ownedExpectedBody := options.ownedExpectedBody ++ [bytes]
      }.Owns := by
  intro as has
  unfold CliOptions.addAssertion at has
  have hblocks : ({ options.addAssertion (.bodyContains (.owned bytes) len) with
      ownedExpectedBody := options.ownedExpectedBody ++ [bytes] } : CliOptions).blocks =
        options.blocks + {bytes.block} := by
    unfold blocks
    rw [List.map_append, List.sum_append]
    simp
  rw [hblocks]
  rw [List.mem_append, List.mem_singleton] at has
  cases has with
  | inl hold => exact le_trans (h as hold) (Multiset.le_add_right _ _)
  | inr hnew =>
    rw [hnew]
    exact Multiset.le_add_left _ _

end CliOptions

/-- Answers of the allocator, all of them good ones if it refuses nothing. -/
def Granted (refuses : Nat → Bool) (allocs : List Bool) : Prop :=
  (∀ alloc ∈ allocs, alloc = true) ∨ ∃ k, refuses k = true

section Granted

variable {refuses : Nat → Bool}

theorem granted_nil : Granted refuses [] := Or.inl (by simp)

theorem granted_true : Granted refuses [true] := Or.inl (by simp)

theorem granted_of_refused (allocs : List Bool) (h : ∃ k, refuses k = true) : Granted refuses allocs := Or.inr h

theorem Granted.append {allocs allocs' : List Bool} (h : Granted refuses allocs) (h' : Granted refuses allocs')
    : Granted refuses (allocs ++ allocs') := by
  cases h with
  | inl hall =>
    cases h' with
    | inl hall' => exact Or.inl (List.forall_mem_append.mpr ⟨hall, hall'⟩)
    | inr hrefused => exact Or.inr hrefused
  | inr hrefused => exact Or.inr hrefused

end Granted

section Parser

variable {refuses : Nat → Bool} {bs : Multiset Nat}

theorem triple_parseHexBytes (hex : Bytes) (bs : Multiset Nat)
    : Heap.Triple refuses bs (parseHexBytes hex) fun p bs' =>
        bs' = p.blocks + bs ∧
          ∃ alloc, Granted refuses [alloc] ∧ HttpRuntime.parseHexBytes (some hex) alloc = p.val := by
  unfold parseHexBytes HttpRuntime.parseHexBytes
  dsimp only
  split
  . apply Heap.Triple.pure
    exact ⟨(zero_add _).symm, true, granted_true, rfl⟩
  . apply (Heap.triple_alloc bs).bind
    rintro p bs' (⟨rfl, rfl, hrefused⟩ | ⟨b, rfl, rfl⟩)
    . apply Heap.Triple.pure
      exact ⟨(zero_add _).symm, false, granted_of_refused _ hrefused, rfl⟩
    . dsimp only
      cases hdigits : parseHexDigits (cstring hex) with
      | none =>
        apply (Heap.triple_free b bs).bind
        rintro _ _ rfl
        apply Heap.Triple.pure
        exact ⟨(zero_add _).symm, true, granted_true, by simp⟩
      | some bytes =>
        apply Heap.Triple.pure
        exact ⟨rfl, true, granted_true, by simp⟩

/-- What a step of `parse_cli_options` comes to, where the other parser came to `res`. -/
structure Tracked (bs : Multiset Nat) (res : Int × CliOptions) (bs' : Multiset Nat)
    (res' : Int × HttpRuntime.CliOptions) : Prop where
  live : bs' = res.2.blocks + bs
  owns : res.2.Owns
  same : res' = (res.1, res.2.erase)

theorem length_erase (options : CliOptions)
    : options.erase.assertions.length = options.assertions.length ∧
        options.erase.ownedExpectedBody.length = options.ownedExpectedBody.length :=
  ⟨List.length_map _, List.length_map _⟩

variable {options : CliOptions}

theorem tracked_addAssertion (h : options.Owns) {as : CliAssertion} (hblocks : as.blocks = 0) (rc : Int)
    : Tracked bs (rc, options.addAssertion as) (options.blocks + bs)
        (rc, options.erase.addAssertion as.erase) where
  live := rfl
  owns := h.addAssertion hblocks
  same := by rw [CliOptions.erase_addAssertion]

theorem tracked_addStatus (h : options.Owns) (value : Bytes)
    : Tracked bs (options.addStatus value) (options.blocks + bs) (options.erase.addStatus value) := by
  unfold CliOptions.addStatus HttpRuntime.CliOptions.addStatus
  rw [(length_erase options).1]
  split
  . exact ⟨rfl, h, rfl⟩
  . exact tracked_addAssertion h rfl 0

theorem tracked_addHeader (h : options.Owns) (name value : Bytes)
    : Tracked bs (options.addHeader name value) (options.blocks + bs)
        (options.erase.addHeader name value) := by
  unfold CliOptions.addHeader HttpRuntime.CliOptions.addHeader
  rw [(length_erase options).1]
  split
  . exact ⟨rfl, h, rfl⟩
  . exact tracked_addAssertion h rfl 0

theorem triple_addBody (h : options.Owns) (value : Bytes) (bs : Multiset Nat)
    : Heap.Triple refuses (options.blocks + bs) (options.addBody value) fun res bs' =>
        ∃ alloc, Granted refuses [alloc] ∧ Tracked bs res bs' (options.erase.addBody value alloc) := by
  unfold CliOptions.addBody HttpRuntime.CliOptions.addBody
  rw [(length_erase options).1, (length_erase options).2]
  split
  . apply Heap.Triple.pure
    exact ⟨true, granted_true, rfl, h, rfl⟩
  . split
    . apply (triple_parseHexBytes (value.drop 4) _).bind
      rintro p _ ⟨rfl, alloc, hgranted, hparse⟩
      cases p with
      | none =>
        apply Heap.Triple.pure
        refine ⟨alloc, hgranted, ?_⟩
        rw [hparse, Ptr.blocks_none, zero_add]
        exact tracked_addAssertion h rfl (-1)
      | some bytes =>
        dsimp only
        split
        . apply (Heap.triple_free bytes.block _).bind
          rintro _ _ rfl
          apply Heap.Triple.pure
          refine ⟨alloc, hgranted, ?_⟩
          rw [hparse]
          exact tracked_addAssertion h rfl (-1)
        . apply Heap.Triple.pure
          refine ⟨alloc, hgranted, ?_, h.addOwned bytes _, ?_⟩
          . rw [Ptr.blocks_some, ← add_assoc]
            congr 1
            unfold CliOptions.blocks
            rw [List.map_append, List.sum_append, add_comm]
            simp
          . rw [hparse, CliOptions.erase]
            simp [CliOptions.addAssertion, HttpRuntime.CliOptions.addAssertion, CliOptions.erase,
              CliAssertion.erase, Pattern.val]
    . apply Heap.Triple.pure
      exact ⟨true, granted_true, tracked_addAssertion h rfl 0⟩

-- What is left to do after an option, where `args` are the arguments behind it.
theorem triple_afterOption {args : List Bytes} {res : Int × CliOptions} {bs' : Multiset Nat}
    {res' : Int × HttpRuntime.CliOptions} (hres : Tracked bs res bs' res')
    (hrest : ∀ options : CliOptions, options.Owns →
      Heap.Triple refuses (options.blocks + bs) (parseOptions args options) fun out bs'' =>
        ∃ allocs, Granted refuses allocs ∧
          Tracked bs out bs'' (HttpRuntime.parseOptions args options.erase allocs))
    : Heap.Triple refuses bs' (if res.1 ≠ 0 then pure res else parseOptions args res.2) fun out bs'' =>
        ∃ allocs, Granted refuses allocs ∧ Tracked bs out bs''
          (if res'.1 ≠ 0 then res' else HttpRuntime.parseOptions args res'.2 allocs) := by
  rw [hres.same]
  dsimp only
  split
  . apply Heap.Triple.pure
    exact ⟨[], granted_nil, hres.live, hres.owns, rfl⟩
  . rw [hres.live]
    exact hrest res.2 hres.owns

theorem triple_parseOptions (args : List Bytes) (options : CliOptions) (h : options.Owns) (bs : Multiset Nat)
    : Heap.Triple refuses (options.blocks + bs) (parseOptions args options) fun res bs' =>
        ∃ allocs, Granted refuses allocs ∧
          Tracked bs res bs' (HttpRuntime.parseOptions args options.erase allocs) := by
  have hfailed : Heap.Triple refuses (options.blocks + bs) (pure (-1, options)) fun res bs' =>
      ∃ allocs, Granted refuses allocs ∧ Tracked bs res bs' (-1, options.erase) :=
    Heap.Triple.pure ⟨[], granted_nil, rfl, h, rfl⟩
  rw [parseOptions.eq_def]
  simp only [HttpRuntime.parseOptions.eq_def args]
  cases args with
  | nil =>
    apply Heap.Triple.pure
    exact ⟨[], granted_nil, rfl, h, rfl⟩
  | cons option args =>
    dsimp only
    split
    . cases args with
      | nil => exact hfailed
      | cons value args =>
        exact triple_afterOption (tracked_addStatus h value)
          (fun options' h' => triple_parseOptions args options' h' bs)
    . split
      . cases args with
        | nil => exact hfailed
        | cons value args =>
          apply (triple_addBody h value bs).bind
          rintro res bs' ⟨alloc, hgranted, hres⟩
          apply (triple_afterOption hres
            (fun options' h' => triple_parseOptions args options' h' bs)).mono
          rintro out bs'' ⟨allocs, hrest, hout⟩
          exact ⟨alloc :: allocs, hgranted.append hrest, hout⟩
      . split
        . cases args with
          | nil => exact hfailed
          | cons name args =>
            cases args with
            | nil => exact hfailed
            | cons value args =>
              exact triple_afterOption (tracked_addHeader h name value)
                (fun options' h' => triple_parseOptions args options' h' bs)
        . exact hfailed
termination_by args.length

theorem triple_parseCliOptions (argv : List Bytes) (bs : Multiset Nat)
    : Heap.Triple refuses bs (parseCliOptions argv .zero) fun res bs' =>
        ∃ allocs, Granted refuses allocs ∧
          Tracked bs res bs' (HttpRuntime.parseCliOptions argv .zero allocs) := by
  have howns (command url : Option Bytes)
      : ({ CliOptions.zero with command := command, url := url } : CliOptions).Owns := by
    intro as has
    cases has
  have hblocks (command url : Option Bytes)
      : ({ CliOptions.zero with command := command, url := url } : CliOptions).blocks = 0 := rfl
  unfold parseCliOptions HttpRuntime.parseCliOptions
  match argv with
  | _ :: command :: url :: args =>
    have hparse := @triple_parseOptions refuses args _ (howns (some command) (some url)) bs
    rw [hblocks, zero_add] at hparse
    exact hparse
  | [] | [_] | [_, _] =>
    apply Heap.Triple.pure
    exact ⟨[], granted_nil, (zero_add bs).symm, howns none none, rfl⟩

theorem triple_freeBodies (owned : List (Boxed Bytes)) (bs : Multiset Nat)
    : Heap.Triple refuses ((owned.map (fun bytes => ({bytes.block} : Multiset Nat))).sum + bs)
        (freeBodies owned) fun _ bs' => bs' = bs := by
  induction owned with
  | nil =>
    apply Heap.Triple.pure
    exact zero_add bs
  | cons bytes owned ih =>
    rw [List.map_cons, List.sum_cons, add_assoc]
    apply (Heap.triple_free bytes.block _).bind
    rintro _ _ rfl
    exact ih

end Parser

section Plan

variable {refuses : Nat → Bool} {bs : Multiset Nat}

theorem triple_dupString (s : Bytes) (bs : Multiset Nat)
    : Heap.Triple refuses bs (dupString (some s)) fun p bs' =>
        bs' = p.blocks + bs ∧ Granted refuses [p.isSome] ∧
          ∀ allocs, HttpRuntime.dupString (some s) (p.isSome :: allocs) = (p.val, allocs) := by
  apply (Heap.triple_new (cstring s) bs).mono
  rintro p bs' ⟨hlive, hval | hnone⟩
  . cases p with
    | none => cases hval
    | some x =>
      refine ⟨hlive, granted_true, ?_⟩
      intro allocs
      rw [hval]
      rfl
  . rw [hnone.1] at hlive ⊢
    exact ⟨hlive, granted_of_refused _ hnone.2, fun _ => rfl⟩

theorem triple_copyPattern {data : Pattern} {len : Nat}
    (hlive : (CliAssertion.bodyContains data len).blocks ≤ bs)
    : Heap.Triple refuses bs (copyPattern data len) fun p bs' =>
        bs' = p.blocks + bs ∧
          (p = none ∧ (data.val = none ∨ ∃ k, refuses k = true) ∨ p.val = data.val.map (List.take len)) := by
  unfold copyPattern
  cases data with
  | null =>
    apply Heap.Triple.pure
    exact ⟨(zero_add _).symm, Or.inl ⟨rfl, Or.inl rfl⟩⟩
  | arg value =>
    apply (Heap.triple_new (value.take len) bs).mono
    rintro p bs' ⟨hbs, hval | hnone⟩
    . exact ⟨hbs, Or.inr hval⟩
    . exact ⟨hbs, Or.inl ⟨hnone.1, Or.inr hnone.2⟩⟩
  | owned bytes =>
    apply (Heap.triple_alloc bs).bind
    rintro copy bs' (⟨rfl, rfl, hrefused⟩ | ⟨b, rfl, rfl⟩)
    . apply Heap.Triple.pure
      exact ⟨(zero_add _).symm, Or.inl ⟨rfl, Or.inr hrefused⟩⟩
    . dsimp only
      have hstill : (Ptr.blocks (some bytes)) ≤ {b} + bs := le_trans hlive (Multiset.le_add_left _ _)
      apply (Heap.triple_read rfl hstill).bind
      rintro _ _ ⟨rfl, rfl⟩
      apply Heap.Triple.pure
      exact ⟨rfl, Or.inr rfl⟩

theorem triple_copyAssertion {as : CliAssertion} (hlive : as.blocks ≤ bs)
    : Heap.Triple refuses bs (copyAssertion as) fun copy bs' =>
        bs' = copy.blocks + bs ∧
          ∃ used, Granted refuses used ∧
            ∀ allocs, HttpRuntime.copyAssertion as.erase (used ++ allocs) = (copy.erase, allocs) := by
  unfold copyAssertion
  cases as with
  | statusEq n =>
    apply Heap.Triple.pure
    exact ⟨(zero_add _).symm, [], granted_nil, fun _ => rfl⟩
  | bodyContains data len =>
    apply (triple_copyPattern hlive).bind
    rintro p _ ⟨rfl, hval⟩
    apply Heap.Triple.pure
    refine ⟨rfl, ?_⟩
    unfold CliAssertion.erase Assertion.erase
    dsimp only
    cases hdata : data.val with
    | none =>
      have hnone : p.val = none := by
        cases hval with
        | inl hnone => rw [hnone.1, Ptr.val_none]
        | inr hcopy => rw [hcopy, hdata, Option.map_none]
      rw [hnone]
      exact ⟨[], granted_nil, fun _ => rfl⟩
    | some value =>
      rw [hdata] at hval
      cases hval with
      | inl hnone =>
        have hrefused : ∃ k, refuses k = true := hnone.2.resolve_left (by simp)
        rw [hnone.1]
        exact ⟨[false], granted_of_refused _ hrefused, fun _ => rfl⟩
      | inr hcopy =>
        rw [hcopy]
        exact ⟨[true], granted_true, fun _ => rfl⟩
  | headerContains name value =>
    apply (triple_dupString name bs).bind
    rintro n _ ⟨rfl, hgranted, hname⟩
    apply (triple_dupString value _).bind
    rintro v _ ⟨rfl, hgranted', hvalue⟩
    apply Heap.Triple.pure
    refine ⟨?_, [n.isSome, v.isSome], hgranted.append hgranted', ?_⟩
    . unfold Assertion.blocks
      dsimp only
      abel
    . intro allocs
      unfold HttpRuntime.copyAssertion CliAssertion.erase
      dsimp only
      rw [List.cons_append, List.cons_append, List.nil_append, hname]
      dsimp only
      rw [hvalue]
      rfl

theorem triple_copyAssertions {assertions : List CliAssertion} (hlive : ∀ as ∈ assertions, as.blocks ≤ bs)
    : Heap.Triple refuses bs (copyAssertions assertions) fun copies bs' =>
        bs' = (copies.map Assertion.blocks).sum + bs ∧
          ∃ allocs, Granted refuses allocs ∧
            HttpRuntime.copyAssertions (assertions.map CliAssertion.erase) allocs =
              copies.map Assertion.erase := by
  induction assertions generalizing bs with
  | nil =>
    apply Heap.Triple.pure
    exact ⟨(zero_add _).symm, [], granted_nil, rfl⟩
  | cons as assertions ih =>
    rw [List.forall_mem_cons] at hlive
    apply (triple_copyAssertion hlive.1).bind
    rintro copy _ ⟨rfl, used, hgranted, hcopy⟩
    have hrest : ∀ as ∈ assertions, as.blocks ≤ copy.blocks + bs :=
      fun as has => le_trans (hlive.2 as has) (Multiset.le_add_left _ _)
    apply (ih hrest).bind
    rintro copies _ ⟨rfl, allocs, hgranted', hcopies⟩
    apply Heap.Triple.pure
    refine ⟨?_, used ++ allocs, hgranted.append hgranted', ?_⟩
    . rw [List.map_cons, List.sum_cons]
      abel
    . rw [List.map_cons, List.map_cons, HttpRuntime.copyAssertions, hcopy, hcopies]

/-- The plan is the other plan, or it is given up and what is there of it is freed by its owner. -/
theorem triple_cliOptionsToRunPlan {options : CliOptions} (hlive : options.blocks ≤ bs) (howns : options.Owns)
    {plan : RunPlan} (hplan : plan.blocks = 0)
    : Heap.Triple refuses bs (cliOptionsToRunPlan options plan) fun res bs' =>
        bs' = res.2.blocks + bs ∧
          ∃ allocs, Granted refuses allocs ∧
            HttpRuntime.cliOptionsToRunPlan options.erase allocs =
              if res.1 ≠ 0 then none else some res.2.erase := by
  unfold cliOptionsToRunPlan HttpRuntime.cliOptionsToRunPlan
  rw [show options.erase.url = options.url from rfl, (length_erase options).1]
  cases options.url with
  | none =>
    apply Heap.Triple.pure
    exact ⟨by rw [hplan, zero_add], [], granted_nil, rfl⟩
  | some url =>
    dsimp only
    split
    . apply Heap.Triple.pure
      exact ⟨by rw [hplan, zero_add], [], granted_nil, rfl⟩
    . apply (triple_dupString (ascii "runner.db") bs).bind
      rintro dbPath _ ⟨rfl, hgranted, hdbPath⟩
      apply (triple_dupString (ascii "DEFAULT") _).bind
      rintro collectionName _ ⟨rfl, hgranted', hcollectionName⟩
      have hpathsGranted := hgranted.append hgranted'
      split
      . next hrefused =>
        apply Heap.Triple.pure
        refine ⟨?_, [dbPath.isSome, collectionName.isSome], hpathsGranted, ?_⟩
        . unfold RunPlan.blocks initRunPlan RunPlan.zero
          simp only [List.map_nil, List.sum_nil]
          abel
        . simp only [hdbPath, hcollectionName, if_pos hrefused]
          rfl
      . next hpaths =>
        apply (triple_dupString url _).bind
        rintro urlCopy _ ⟨rfl, hurlGranted, hurl⟩
        have hblocks (assertions : List Assertion)
            : (RunPlan.mk [⟨.get, urlCopy, none, none, 0, assertions, 5000⟩] 1 true dbPath collectionName
                5000).blocks + bs =
                (assertions.map Assertion.blocks).sum +
                  (urlCopy.blocks + (collectionName.blocks + (dbPath.blocks + bs))) := by
          unfold RunPlan.blocks RequestCase.blocks
          simp only [List.map_cons, List.map_nil, List.sum_cons, List.sum_nil, Ptr.blocks_none]
          abel
        split
        . next hrefused =>
          apply Heap.Triple.pure
          refine ⟨?_, [dbPath.isSome, collectionName.isSome, urlCopy.isSome],
            hpathsGranted.append hurlGranted, ?_⟩
          . exact ((hblocks []).trans (zero_add _)).symm
          . simp only [hdbPath, hcollectionName, if_neg hpaths, hurl, if_pos hrefused]
            rfl
        . next hcopied =>
          split
          . apply Heap.Triple.pure
            refine ⟨?_, [dbPath.isSome, collectionName.isSome, urlCopy.isSome],
            hpathsGranted.append hurlGranted, ?_⟩
            . exact ((hblocks []).trans (zero_add _)).symm
            . simp only [hdbPath, hcollectionName, if_neg hpaths, hurl, if_neg hcopied]
              rfl
          . have hstill : ∀ as ∈ options.assertions,
                as.blocks ≤ urlCopy.blocks + (collectionName.blocks + (dbPath.blocks + bs)) := by
              intro as has
              rw [← add_assoc, ← add_assoc]
              exact le_trans (le_trans (howns as has) hlive) (Multiset.le_add_left _ _)
            apply (triple_copyAssertions hstill).bind
            rintro copies _ ⟨rfl, allocs, hcopiesGranted, hcopies⟩
            apply Heap.Triple.pure
            refine ⟨(hblocks copies).symm,
              dbPath.isSome :: collectionName.isSome :: urlCopy.isSome :: allocs,
              (hpathsGranted.append hurlGranted).append hcopiesGranted, ?_⟩
            simp only [hdbPath, hcollectionName, if_neg hpaths, hurl, if_neg hcopied]
            rw [show options.erase.assertions = options.assertions.map CliAssertion.erase from rfl, hcopies]
            rfl

end Plan

section LoadPlan

variable {refuses : Nat → Bool} {bs : Multiset Nat}

theorem triple_load {p : Ptr Bytes} (hlive : p.blocks ≤ bs)
    : Heap.Triple refuses bs (load p) fun s bs' => s = p.val ∧ bs' = bs := by
  cases p with
  | none =>
    apply Heap.Triple.pure
    exact ⟨rfl, rfl⟩
  | some x =>
    apply (Heap.triple_read rfl hlive).bind
    rintro _ _ ⟨rfl, rfl⟩
    apply Heap.Triple.pure
    exact ⟨rfl, rfl⟩

theorem triple_loadAssertion {as : Assertion} (hlive : as.blocks ≤ bs)
    : Heap.Triple refuses bs (loadAssertion as) fun as' bs' => as' = as.erase ∧ bs' = bs := by
  unfold loadAssertion
  cases as with
  | statusEq n =>
    apply Heap.Triple.pure
    exact ⟨rfl, rfl⟩
  | bodyContains data len =>
    apply (triple_load hlive).bind
    rintro _ _ ⟨rfl, rfl⟩
    apply Heap.Triple.pure
    exact ⟨rfl, rfl⟩
  | headerContains name value =>
    apply (triple_load (le_trans (Multiset.le_add_right _ _) hlive)).bind
    rintro _ _ ⟨rfl, rfl⟩
    apply (triple_load (le_trans (Multiset.le_add_left _ _) hlive)).bind
    rintro _ _ ⟨rfl, rfl⟩
    apply Heap.Triple.pure
    exact ⟨rfl, rfl⟩

theorem le_sum_map {α : Type} (f : α → Multiset Nat) {xs : List α} {x : α} (h : x ∈ xs)
    : f x ≤ (xs.map f).sum := by
  induction xs with
  | nil => cases h
  | cons y xs ih =>
    rw [List.map_cons, List.sum_cons]
    cases List.mem_cons.mp h with
    | inl heq =>
      rw [heq]
      exact Multiset.le_add_right _ _
    | inr hmem => exact le_trans (ih hmem) (Multiset.le_add_left _ _)

theorem triple_loadCase {requestCase : RequestCase} (hlive : requestCase.blocks ≤ bs)
    : Heap.Triple refuses bs (loadCase requestCase) fun requestCase' bs' =>
        requestCase' = requestCase.erase ∧ bs' = bs := by
  unfold RequestCase.blocks at hlive
  have hstrings := le_trans (Multiset.le_add_right _ _) hlive
  have hrest := le_trans (Multiset.le_add_right _ _) hstrings
  have hassertions : ∀ as ∈ requestCase.assertions, as.blocks ≤ bs :=
    fun as has => le_trans (le_trans (le_sum_map _ has) (Multiset.le_add_left _ _)) hlive
  unfold loadCase
  apply (triple_load (le_trans (Multiset.le_add_right _ _) hrest)).bind
  rintro _ _ ⟨rfl, rfl⟩
  apply (triple_load (le_trans (Multiset.le_add_left _ _) hrest)).bind
  rintro _ _ ⟨rfl, rfl⟩
  apply (triple_load (le_trans (Multiset.le_add_left _ _) hstrings)).bind
  rintro _ _ ⟨rfl, rfl⟩
  apply (Heap.Triple.mapM (fun as has => triple_loadAssertion (hassertions as has))).bind
  rintro _ _ ⟨rfl, rfl⟩
  apply Heap.Triple.pure
  exact ⟨rfl, rfl⟩

theorem triple_loadPlan {plan : RunPlan} (hlive : plan.blocks ≤ bs)
    : Heap.Triple refuses bs (loadPlan plan) fun plan' bs' => plan' = plan.erase ∧ bs' = bs := by
  unfold RunPlan.blocks at hlive
  have hrest := le_trans (Multiset.le_add_right _ _) hlive
  have hcases : ∀ requestCase ∈ plan.cases, requestCase.blocks ≤ bs :=
    fun requestCase hmem =>
      le_trans (le_trans (le_sum_map _ hmem) (Multiset.le_add_right _ _)) hrest
  unfold loadPlan
  apply (Heap.Triple.mapM (fun requestCase hmem => triple_loadCase (hcases requestCase hmem))).bind
  rintro _ _ ⟨rfl, rfl⟩
  apply (triple_load (le_trans (Multiset.le_add_left _ _) hrest)).bind
  rintro _ _ ⟨rfl, rfl⟩
  apply (triple_load (le_trans (Multiset.le_add_left _ _) hlive)).bind
  rintro _ _ ⟨rfl, rfl⟩
  apply Heap.Triple.pure
  exact ⟨rfl, rfl⟩

end LoadPlan

section Main

variable {refuses : Nat → Bool} {bs : Multiset Nat}

theorem triple_runPlan {plan : RunPlan} (hlive : plan.blocks ≤ bs) (env : ProcessEnv)
    : Heap.Triple refuses bs (runPlan plan env) fun out bs' =>
        out = HttpRuntime.runPlan plan.erase env ∧ bs' = bs := by
  apply (triple_loadPlan hlive).bind
  rintro _ _ ⟨rfl, rfl⟩
  apply Heap.Triple.pure
  exact ⟨rfl, rfl⟩

-- The end of a command and of `main`.
theorem triple_cleanup {freed : Multiset Nat} {free : HeapProg Unit}
    (hfree : Heap.Triple refuses (freed + bs) free fun _ bs' => bs' = bs) (out : Option HttpRuntime.Outcome)
    : Heap.Triple refuses (freed + bs) (cleanup out free) fun out' bs' =>
        out' = out ∧ (out ≠ none → bs' = bs) := by
  unfold cleanup
  cases out with
  | none =>
    apply Heap.Triple.pure
    exact ⟨rfl, fun hne => absurd rfl hne⟩
  | some out =>
    apply hfree.bind
    rintro _ _ rfl
    apply Heap.Triple.pure
    exact ⟨rfl, fun _ => rfl⟩

theorem triple_freePlan (plan : RunPlan) (bs : Multiset Nat)
    : Heap.Triple refuses (plan.blocks + bs) (freePlan plan) fun _ bs' => bs' = bs := by
  apply (triple_freeRunPlan plan bs).bind
  rintro _ _ ⟨_, rfl⟩
  exact Heap.Triple.pure rfl

-- The rest of a command, once it has its plan or has failed to get one.
theorem triple_withPlan (rc code : Int) (plan : RunPlan) (env : ProcessEnv) (bs : Multiset Nat)
    : Heap.Triple refuses (plan.blocks + bs)
        (do
          let out ← if rc ≠ 0 then pure (some { exitCode := code, run := none }) else runPlan plan env
          cleanup out (freePlan plan))
        fun out bs' =>
          out = (if rc ≠ 0 then some { exitCode := code, run := none }
            else HttpRuntime.runPlan plan.erase env) ∧ (out ≠ none → bs' = bs) := by
  split
  . apply (Heap.Triple.pure (Q := fun out bs' =>
      out = some { exitCode := code, run := none } ∧ bs' = plan.blocks + bs) ⟨rfl, rfl⟩).bind
    rintro _ _ ⟨rfl, rfl⟩
    apply (triple_cleanup (triple_freePlan plan bs) _).mono
    rintro _ _ ⟨rfl, hfreed⟩
    exact ⟨rfl, hfreed⟩
  . apply (triple_runPlan (Multiset.le_add_right _ _) env).bind
    rintro _ _ ⟨rfl, rfl⟩
    apply (triple_cleanup (triple_freePlan plan bs) _).mono
    rintro _ _ ⟨rfl, hfreed⟩
    exact ⟨rfl, hfreed⟩

/-- What the other `main` is told: the refused allocations, and which files can be read. -/
def told (files : Bytes → FileRead) (env : ProcessEnv) (parserAllocs planAllocs : List Bool) (alloc : Bool)
    : ProcessEnv :=
  { env with
    parserAllocs := parserAllocs
    planAllocs := planAllocs
    file := fun path => HttpRuntime.readFile { files path with alloc := alloc }
  }

/-- The DSL parser ran out of memory, or the other program comes to the same outcome. -/
def Agrees (refuses : Nat → Bool) (out : Option HttpRuntime.Outcome)
    (other : ProcessEnv → Option HttpRuntime.Outcome) (files : Bytes → FileRead) (env : ProcessEnv) : Prop :=
  (out = some { exitCode := dslParseError, run := none } ∧ ∃ k, refuses k = true) ∨
    ∃ planAllocs alloc, Granted refuses (planAllocs ++ [alloc]) ∧
      ∀ parserAllocs, other (told files env parserAllocs planAllocs alloc) = out

theorem triple_runGetCommand {options : CliOptions} (howns : options.Owns) (files : Bytes → FileRead)
    (env : ProcessEnv)
    : Heap.Triple refuses (options.blocks + bs) (runGetCommand options env) fun out bs' =>
        (out ≠ none → bs' = options.blocks + bs) ∧
          Agrees refuses out (HttpRuntime.runGetCommand options.erase) files env := by
  apply (triple_cliOptionsToRunPlan (Multiset.le_add_right _ _) howns blocks_initRunPlan).bind
  rintro res _ ⟨rfl, allocs, hgranted, hplan⟩
  apply (triple_withPlan res.1 1 res.2 env _).mono
  rintro _ bs' ⟨rfl, hfreed⟩
  refine ⟨hfreed, Or.inr ⟨allocs, true, hgranted.append granted_true, ?_⟩⟩
  intro parserAllocs
  unfold HttpRuntime.runGetCommand
  rw [show (told files env parserAllocs allocs true).planAllocs = allocs from rfl, hplan]
  by_cases hfailed : res.1 ≠ 0
  . rw [if_pos hfailed, if_pos hfailed]
  . rw [if_neg hfailed, if_neg hfailed]
    rfl

theorem triple_readFile (file : FileRead) (bs : Multiset Nat)
    : Heap.Triple refuses bs (readFile file) fun text bs' =>
        bs' = text.blocks + bs ∧
          ∃ alloc, Granted refuses [alloc] ∧ HttpRuntime.readFile { file with alloc := alloc } = text.val := by
  unfold readFile HttpRuntime.readFile
  dsimp only
  split
  . apply Heap.Triple.pure
    exact ⟨(zero_add _).symm, true, granted_true, rfl⟩
  . split
    . apply Heap.Triple.pure
      exact ⟨(zero_add _).symm, true, granted_true, rfl⟩
    . apply (Heap.triple_new _ bs).mono
      rintro text bs' ⟨hbs, hval | hnone⟩
      . exact ⟨hbs, true, granted_true, hval.symm⟩
      . exact ⟨hbs, false, granted_of_refused _ hnone.2, by rw [hnone.1]; rfl⟩

theorem triple_dslParseRunPlanFile (file : FileRead) (bs : Multiset Nat)
    : Heap.Triple refuses bs (dslParseRunPlanFile file .zero) fun res bs' =>
        bs' = res.2.blocks + bs ∧
          (res.1 = dslParseError ∧ (∃ k, refuses k = true) ∨
            ∃ alloc, Granted refuses [alloc] ∧
              ∀ path env, env.file path = HttpRuntime.readFile { file with alloc := alloc } →
                HttpRuntime.dslParseRunPlanFile path env = some (res.1, res.2.erase)) := by
  unfold dslParseRunPlanFile HttpRuntime.dslParseRunPlanFile
  apply (triple_readFile file bs).bind
  rintro text _ ⟨rfl, alloc, hgranted, hread⟩
  cases text with
  | none =>
    apply Heap.Triple.pure
    refine ⟨rfl, Or.inr ⟨alloc, hgranted, ?_⟩⟩
    intro path env hfile
    rw [hfile, hread]
    rfl
  | some x =>
    dsimp only
    apply (Heap.triple_read rfl (Multiset.le_add_right _ _)).bind
    rintro source _ ⟨rfl, rfl⟩
    apply (triple_dslParseRunPlan x.val (some .zero) _).bind
    rintro ⟨result, plan, error'⟩ _ ⟨rfl, _, hparsed⟩
    have hfree := @Heap.triple_delete Bytes refuses (some x) (plan.blocks + bs)
    rw [add_left_comm] at hfree
    apply hfree.bind
    rintro _ _ rfl
    apply Heap.Triple.pure
    refine ⟨rfl, ?_⟩
    cases hparsed with
    | inl hfailed =>
      left
      dsimp only at hfailed
      rw [hfailed.1]
      exact ⟨rfl, hfailed.2⟩
    | inr hsame =>
      right
      obtain ⟨error'', hparse, _⟩ := hsame
      refine ⟨alloc, hgranted, ?_⟩
      intro path env hfile
      rw [hfile, hread]
      dsimp only [Ptr.val_some]
      rw [hparse]
      cases result <;> rfl

theorem triple_runRunCommand {options : CliOptions} (files : Bytes → FileRead) (env : ProcessEnv)
    : Heap.Triple refuses (options.blocks + bs) (runRunCommand options files env) fun out bs' =>
        (out ≠ none → bs' = options.blocks + bs) ∧
          Agrees refuses out (HttpRuntime.runRunCommand options.erase) files env := by
  apply (triple_dslParseRunPlanFile (files (options.url.getD [])) _).bind
  rintro res _ ⟨rfl, hres⟩
  apply (triple_withPlan res.1 res.1 res.2 env _).mono
  rintro _ bs' ⟨rfl, hfreed⟩
  refine ⟨hfreed, ?_⟩
  cases hres with
  | inl hfailed =>
    left
    rw [hfailed.1]
    exact ⟨rfl, hfailed.2⟩
  | inr hsame =>
    right
    obtain ⟨alloc, hgranted, hsame⟩ := hsame
    refine ⟨[], alloc, hgranted, ?_⟩
    intro parserAllocs
    unfold HttpRuntime.runRunCommand
    rw [hsame (options.erase.url.getD []) (told files env parserAllocs [] alloc) rfl]
    rfl

theorem triple_runCommand {options : CliOptions} (howns : options.Owns) (files : Bytes → FileRead)
    (env : ProcessEnv)
    : Heap.Triple refuses (options.blocks + bs) (runCommand options files env) fun out bs' =>
        (out ≠ none → bs' = options.blocks + bs) ∧
          Agrees refuses out (HttpRuntime.runCommand options.erase) files env := by
  have hsimple (out : Option HttpRuntime.Outcome)
      : Heap.Triple refuses (options.blocks + bs) (pure out) fun out' bs' =>
          (out' ≠ none → bs' = options.blocks + bs) ∧ Agrees refuses out' (fun _ => out) files env :=
    Heap.Triple.pure ⟨fun _ => rfl, Or.inr ⟨[], true, granted_true, fun _ => rfl⟩⟩
  unfold runCommand HttpRuntime.runCommand
  rw [show options.erase.command = options.command from rfl]
  cases options.command with
  | none => exact hsimple _
  | some command =>
    dsimp only
    split
    . exact triple_runGetCommand howns files env
    . split
      . exact hsimple _
      . split
        . exact triple_runRunCommand files env
        . exact hsimple _

theorem triple_main (argv : List Bytes) (files : Bytes → FileRead) (env : ProcessEnv) (bs : Multiset Nat)
    : Heap.Triple refuses bs (main argv files env) fun out bs' =>
        (out ≠ none → bs' = bs) ∧
          (out = some { exitCode := dslParseError, run := none } ∧ (∃ k, refuses k = true) ∨
            ∃ parserAllocs planAllocs alloc, Granted refuses (parserAllocs ++ (planAllocs ++ [alloc])) ∧
              HttpRuntime.main argv (told files env parserAllocs planAllocs alloc) = out) := by
  unfold main
  split
  . next hfew =>
    apply Heap.Triple.pure
    refine ⟨fun _ => rfl, Or.inr ⟨[], [], true, granted_true, ?_⟩⟩
    unfold HttpRuntime.main
    rw [if_pos hfew]
  . next henough =>
    apply (triple_parseCliOptions argv bs).bind
    rintro res _ ⟨parserAllocs, hgranted, rfl, howns, hparse⟩
    have hother (planAllocs : List Bool) (alloc : Bool)
        : HttpRuntime.main argv (told files env parserAllocs planAllocs alloc) =
            if res.1 = -1 then some { exitCode := -1, run := none }
            else HttpRuntime.runCommand res.2.erase (told files env parserAllocs planAllocs alloc) := by
      unfold HttpRuntime.main
      rw [if_neg henough, show (told files env parserAllocs planAllocs alloc).parserAllocs = parserAllocs from rfl,
        hparse]
    have hfree := @triple_freeBodies refuses res.2.ownedExpectedBody bs
    split
    . next hrejected =>
      apply (Heap.Triple.pure (Q := fun out bs' =>
        out = some { exitCode := -1, run := none } ∧ bs' = res.2.blocks + bs) ⟨rfl, rfl⟩).bind
      rintro _ _ ⟨rfl, rfl⟩
      apply (triple_cleanup hfree _).mono
      rintro _ bs' ⟨rfl, hfreed⟩
      refine ⟨hfreed, Or.inr ⟨parserAllocs, [], true, hgranted.append granted_true, ?_⟩⟩
      rw [hother, if_pos hrejected]
    . next haccepted =>
      apply (triple_runCommand howns files env).bind
      rintro out bs' ⟨hout, hagrees⟩
      have hsame : out = some { exitCode := dslParseError, run := none } ∧ (∃ k, refuses k = true) ∨
          ∃ parserAllocs planAllocs alloc, Granted refuses (parserAllocs ++ (planAllocs ++ [alloc])) ∧
            HttpRuntime.main argv (told files env parserAllocs planAllocs alloc) = out := by
        cases hagrees with
        | inl hfailed => exact Or.inl hfailed
        | inr hcommand =>
          obtain ⟨planAllocs, alloc, hgranted', hcommand⟩ := hcommand
          refine Or.inr ⟨parserAllocs, planAllocs, alloc, hgranted.append hgranted', ?_⟩
          rw [hother, if_neg haccepted, hcommand]
      cases out with
      | none =>
        apply Heap.Triple.pure
        exact ⟨fun hne => absurd rfl hne, hsame⟩
      | some out =>
        rw [hout (by simp)]
        apply (triple_cleanup hfree _).mono
        rintro _ bs' ⟨rfl, hfreed⟩
        exact ⟨hfreed, hsame⟩

/--
Whatever allocations are refused, `main` frees nothing twice and reads nothing that is freed, and when
it returns, every block it was given is given back. Its outcome is that of `main` of `Cli.Commands`
under some refusals, none if the heap refuses nothing, or the parser of the DSL ran out of memory and
no plan was run.
-/
theorem main_gives_back (argv : List Bytes) (files : Bytes → FileRead) (env : ProcessEnv) (h : Heap)
    : ∃ out h', main argv files env h = some (out, h') ∧
        (out ≠ none → h'.live = h.live) ∧
        (out = some { exitCode := dslParseError, run := none } ∧ (∃ k, h.refuses k = true) ∨
          ∃ parserAllocs planAllocs alloc, Granted h.refuses (parserAllocs ++ (planAllocs ++ [alloc])) ∧
            HttpRuntime.main argv (told files env parserAllocs planAllocs alloc) = out) := by
  obtain ⟨out, h', hrun, _, hpost⟩ := triple_main argv files env h.live h rfl rfl
  exact ⟨out, h', hrun, hpost⟩

end Main

end OnHeap
end HttpRuntime
