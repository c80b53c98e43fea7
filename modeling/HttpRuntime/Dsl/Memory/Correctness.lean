import HttpRuntime.Dsl.Memory.Statements

/-!
This module contains that `dsl_parse_run_plan` gives back whatever it allocates besides the plan, and that
no refused allocation makes it accept something else.
-/

open Lib

namespace HttpRuntime
namespace OnHeap

variable {refuses : Nat → Bool} {bs : Multiset Nat}

section Program

theorem parseProgram_eq (parser : HttpRuntime.DslParser) (plan : HttpRuntime.RunPlan)
    : HttpRuntime.parseProgram parser plan =
        if parser.check .eof then some (parser, plan, !parser.hadError)
        else if parser.hadError then some (parser, plan, false)
        else
          HttpRuntime.parseStatement parser plan >>= fun res =>
            if !res.2.2 then some (res.1, res.2.1, false) else HttpRuntime.parseProgram res.1 res.2.1 := by
  rw [HttpRuntime.parseProgram]
  split
  . rfl
  . split
    . rfl
    . split
      . next hnone =>
        rw [hnone]
        rfl
      . next hfailed =>
        rw [hfailed]
        rfl
      . next hgone =>
        rw [hgone]
        rfl

/-- A parser that is lost stops in its next round, and one that is not has the rounds of the other one. -/
def Enough (refuses : Nat → Bool) (fuel : Nat) (parser : DslParser) : Prop :=
  parser.Lost refuses ∧ 0 < fuel ∨ ∃ parser', parser.Follows refuses parser' ∧ parser'.fuel + 1 < fuel

theorem tracks_parseProgram {fuel : Nat} {parser : DslParser} {plan : RunPlan}
    (henough : Enough refuses fuel parser)
    : TracksStatement refuses parser plan.blocks (parseProgram fuel parser plan) fun parser' =>
        HttpRuntime.parseProgram parser' plan.erase := by
  induction fuel generalizing parser plan with
  | zero =>
    cases henough with
    | inl hlost => omega
    | inr hfollows =>
      obtain ⟨_, _, hfuel⟩ := hfollows
      omega
  | succ fuel ih =>
    refine Tracks.of_follows ?_ (fun parser' _ => parseProgram_eq parser' plan.erase)
    unfold parseProgram
    apply Tracks.of_cond (fun parser' h => h.check _)
    . intro _
      apply (Tracks.done _).of_follows
      intro parser' h
      rw [h.hadError]
    . intro _
      apply Tracks.of_cond (fun parser' h => h.hadError)
      . exact fun _ => Tracks.done _
      . intro hgood bs
        apply (tracks_parseStatement bs).bind
        rintro ⟨next, plan', ok⟩ _ ⟨rfl, hlost, hres⟩
        cases ok with
        | false =>
          apply Heap.Triple.pure
          refine ⟨rfl, hlost, ?_⟩
          intro parser' h
          cases hres parser' h with
          | inl hlostNext => exact Or.inl hlostNext
          | inr hfound =>
            obtain ⟨next', heq, hfollows⟩ := hfound
            dsimp only at heq ⊢
            rw [heq]
            exact Or.inr ⟨next', rfl, hfollows⟩
        | true =>
          have hnext : Enough refuses fuel next := by
            cases henough with
            | inl hlostBefore =>
              rw [hlostBefore.1.1] at hgood
              cases hgood
            | inr hfollowsBefore =>
              obtain ⟨parser', h, hfuel⟩ := hfollowsBefore
              cases hres parser' h with
              | inl hlostNext => exact Or.inl ⟨hlostNext, by omega⟩
              | inr hfound =>
                obtain ⟨next', heq, hfollows⟩ := hfound
                have hless := fuel_parseStatement heq
                exact Or.inr ⟨next', hfollows, by omega⟩
          apply (ih hnext bs).mono
          rintro res _ ⟨rfl, hlost', hres'⟩
          refine ⟨rfl, hlost' ∘ hlost, ?_⟩
          intro parser' h
          cases hres parser' h with
          | inl hlostNext => exact Or.inl (hlost' hlostNext)
          | inr hfound =>
            obtain ⟨next', heq, hfollows⟩ := hfound
            dsimp only at heq ⊢
            rw [heq]
            exact hres' next' hfollows

end Program

section Parse

variable {source : Bytes} {error : Option DslParseError}

theorem fuel_dslParserCreate_lt (source : Bytes) (error : Option DslParseError)
    : (HttpRuntime.dslParserCreate source error).fuel + 1 < parserFuel source := by
  have hstart : (HttpRuntime.dslCreateLexer source).fuel = 2 * strlen source := by
    unfold DslLexer.fuel HttpRuntime.dslCreateLexer
    simp
  unfold HttpRuntime.dslParserCreate parserFuel HttpRuntime.DslParser.fuel
  rw [HttpRuntime.DslParser.advance_current, HttpRuntime.DslParser.advance_lexer]
  dsimp only
  split
  . omega
  . next hfinal =>
    have hless := fuel_dslLexerNextToken_lt (by simpa using hfinal)
    omega

/-- What the creation of a parser comes to. -/
def Created (refuses : Nat → Bool) (bs : Multiset Nat) (parser' : HttpRuntime.DslParser)
    (parser : Option DslParser) (bs' : Multiset Nat) : Prop :=
  match parser with
  | none => bs' = bs ∧ ∃ k, refuses k = true
  | some parser =>
    bs' = parser.blocks + bs ∧ (parser.Lost refuses ∨ parser.Follows refuses parser')

theorem triple_dslParserCreate (source : Bytes) (error : Option DslParseError) (bs : Multiset Nat)
    : Heap.Triple refuses bs (dslParserCreate source error)
        (Created refuses bs (HttpRuntime.dslParserCreate source error)) := by
  unfold dslParserCreate
  apply (Heap.triple_alloc bs).bind
  intro block bs' hblock
  cases hblock with
  | inl hnone =>
    obtain ⟨rfl, rfl, hrefused⟩ := hnone
    apply Heap.Triple.pure
    exact ⟨rfl, hrefused⟩
  | inr hsome =>
    obtain ⟨b, rfl, rfl⟩ := hsome
    apply (Heap.triple_new _ _).bind
    rintro lexer _ ⟨rfl, hlexer⟩
    cases lexer with
    | none =>
      cases hlexer with
      | inl hval => cases hval
      | inr hrefused =>
        rw [Ptr.blocks_none, zero_add]
        apply (Heap.triple_free b bs).bind
        rintro _ _ rfl
        apply Heap.Triple.pure
        exact ⟨rfl, hrefused.2⟩
    | some lexer =>
      cases hlexer with
      | inr hrefused => cases hrefused.1
      | inl hval =>
        let parser : DslParser := {
          block := b
          lexer := lexer
          current := none
          previous := none
          error := error.map (fun _ => ⟨[], 0, 0⟩)
          hadError := false
        }
        have hblocks : Ptr.blocks (some lexer) + ({b} + bs) = parser.blocks + bs := by
          unfold DslParser.blocks DslParser.tokenBlocks
          rw [Ptr.blocks_some]
          abel
        rw [hblocks]
        apply (parser.triple_advance bs).bind
        rintro next _ ⟨rfl, _, _, hnext⟩
        apply Heap.Triple.pure
        refine ⟨rfl, hnext _ ?_⟩
        exact {
          lexer := Option.some.inj hval
          current := .none
          previous := .none
          error := Or.inl rfl
          hadError := rfl
        }

theorem triple_dslParserDestroy (parser : DslParser) (bs : Multiset Nat)
    : Heap.Triple refuses (parser.blocks + bs) (dslParserDestroy parser) fun _ bs' => bs' = bs := by
  unfold dslParserDestroy
  have hsplit : parser.blocks + bs = DslParser.tokenBlocks parser.current +
      (DslParser.tokenBlocks parser.previous + ({parser.lexer.block} + ({parser.block} + bs))) := by
    unfold DslParser.blocks
    abel
  rw [hsplit]
  apply (DslParser.triple_freeToken parser.current).bind
  rintro _ _ rfl
  apply (DslParser.triple_freeToken parser.previous).bind
  rintro _ _ rfl
  apply (Heap.triple_free parser.lexer.block _).bind
  rintro _ _ rfl
  exact Heap.triple_free parser.block bs

/-- What `dsl_parse_run_plan` comes to: the result of the other parser, or an error without a plan. -/
def Parsed (refuses : Nat → Bool) (source : Bytes) (error : Option DslParseError)
    (res : DslParseResult × RunPlan × Option DslParseError) : Prop :=
  (res.1 = .error → res.2.1.cases = [] ∧ res.2.1.blocks = 0) ∧
    (res.1 = .error ∧ (∃ k, refuses k = true) ∨
      ∃ error', HttpRuntime.dslParseRunPlan source error = some (res.1, res.2.1.erase, error') ∧
        (res.2.2 = error' ∨ ∃ k, refuses k = true))

theorem triple_dslParseRunPlan (source : Bytes) (error : Option DslParseError) (bs : Multiset Nat)
    : Heap.Triple refuses bs (dslParseRunPlan source error) fun res bs' =>
        bs' = res.2.1.blocks + bs ∧ Parsed refuses source error res := by
  unfold dslParseRunPlan
  apply (triple_dslParserCreate source error bs).bind
  intro parser bs' hcreated
  cases parser with
  | none =>
    obtain ⟨rfl, hrefused⟩ := hcreated
    apply Heap.Triple.pure
    refine ⟨(zero_add _).symm, fun _ => ⟨rfl, rfl⟩, Or.inl ⟨rfl, hrefused⟩⟩
  | some parser =>
    obtain ⟨rfl, hfollows⟩ := hcreated
    have henough : Enough refuses (parserFuel source) parser := by
      cases hfollows with
      | inl hlost => exact Or.inl ⟨hlost, by unfold parserFuel; omega⟩
      | inr hfollows => exact Or.inr ⟨_, hfollows, fuel_dslParserCreate_lt source error⟩
    have hprogram := @tracks_parseProgram _ _ _ initRunPlan henough bs
    rw [blocks_initRunPlan, add_zero] at hprogram
    apply hprogram.bind
    rintro ⟨next, plan, ok⟩ _ ⟨rfl, hlost, hres⟩
    have houtcome : Outcome refuses RunPlan.erase (next, plan, ok)
        (HttpRuntime.parseProgram (HttpRuntime.dslParserCreate source error) HttpRuntime.initRunPlan) := by
      cases hfollows with
      | inl hlostBefore => exact Or.inl (hlost hlostBefore)
      | inr hfollows => exact hres _ hfollows
    have hsame (hfollows : ¬ next.Lost refuses)
        : ∃ error', HttpRuntime.dslParseRunPlan source error =
            some (if (!ok || next.hadError) = true then (.error, .zero, error')
              else (.ok, plan.erase, error')) ∧
              (next.error = error' ∨ ∃ k, refuses k = true) := by
      cases houtcome with
      | inl hlostAfter => exact absurd hlostAfter hfollows
      | inr hfound =>
        obtain ⟨next', heq, hfollows⟩ := hfound
        refine ⟨next'.error, ?_, hfollows.error⟩
        unfold HttpRuntime.dslParseRunPlan
        rw [heq]
        dsimp only
        rw [← hfollows.hadError]
        split <;> rfl
    dsimp only at hsame ⊢
    rw [add_assoc]
    split
    . next hfailed =>
      apply (triple_dslParserDestroy next _).bind
      rintro _ _ rfl
      apply (triple_freeRunPlan plan bs).bind
      rintro _ _ ⟨rfl, rfl⟩
      apply Heap.Triple.pure
      refine ⟨(zero_add _).symm, fun _ => ⟨rfl, rfl⟩, ?_⟩
      by_cases hlostAfter : next.Lost refuses
      . exact Or.inl ⟨rfl, hlostAfter.2⟩
      . right
        obtain ⟨error', heq, herror⟩ := hsame hlostAfter
        rw [if_pos hfailed] at heq
        exact ⟨error', heq, herror⟩
    . next hgood =>
      have hnotLost : ¬ next.Lost refuses := by
        intro hlostAfter
        rw [hlostAfter.1, Bool.or_true] at hgood
        exact hgood rfl
      apply (triple_dslParserDestroy next _).bind
      rintro _ _ rfl
      apply Heap.Triple.pure
      refine ⟨rfl, nofun, Or.inr ?_⟩
      obtain ⟨error', heq, herror⟩ := hsame hnotLost
      rw [if_neg hgood] at heq
      exact ⟨error', heq, herror⟩

end Parse

section Main

variable (source : Bytes) (error : Option DslParseError) (h : Heap)

/--
Whatever allocations are refused, `dsl_parse_run_plan` frees nothing twice and reads nothing that is
freed. When it fails, the heap is as it was before, and the plan is empty. Otherwise the blocks that are
new are those of the plan, and `free_run_plan` gives them back.
-/
theorem dslParseRunPlan_gives_back
    : ∃ result plan error' h',
        dslParseRunPlan source error h = some ((result, plan, error'), h') ∧
          h'.live = plan.blocks + h.live ∧
          (result = .error → plan.cases = [] ∧ plan.blocks = 0) ∧
          ∃ h'', freeRunPlan plan h' = some (.zero, h'') ∧ h''.live = h.live := by
  obtain ⟨⟨result, plan, error'⟩, h', hrun, hrefuses, hlive, herror, _⟩ :=
    triple_dslParseRunPlan source error h.live h rfl rfl
  obtain ⟨zero, h'', hfree, _, rfl, hlive'⟩ := triple_freeRunPlan plan h.live h' hrefuses hlive
  exact ⟨result, plan, error', h', hrun, hlive, herror, h'', hfree, hlive'⟩

/--
A source that is accepted although allocations were refused is accepted with the same plan when none
is, and if none is refused, the parser on the heap is the parser of `Dsl.Parser`.
-/
theorem dslParseRunPlan_agrees
    : ∃ result plan error' h',
        dslParseRunPlan source error h = some ((result, plan, error'), h') ∧
          (result = .ok →
            ∃ error'', HttpRuntime.dslParseRunPlan source error = some (.ok, plan.erase, error'')) ∧
          ((∀ n, h.refuses n = false) →
            HttpRuntime.dslParseRunPlan source error = some (result, plan.erase, error')) := by
  obtain ⟨⟨result, plan, error'⟩, h', hrun, _, _, _, hparsed⟩ :=
    triple_dslParseRunPlan source error h.live h rfl rfl
  refine ⟨result, plan, error', h', hrun, ?_, ?_⟩
  . intro hok
    dsimp only at hparsed
    cases hparsed with
    | inl hfailed =>
      rw [hok] at hfailed
      cases hfailed.1
    | inr hsame =>
      obtain ⟨error'', heq, _⟩ := hsame
      rw [hok] at heq
      exact ⟨error'', heq⟩
  . intro hnever
    have hnone : ¬ ∃ k, h.refuses k = true := by
      rintro ⟨k, hk⟩
      rw [hnever k] at hk
      cases hk
    cases hparsed with
    | inl hfailed => exact absurd hfailed.2 hnone
    | inr hsame =>
      obtain ⟨error'', heq, herror⟩ := hsame
      cases herror with
      | inl herror =>
        rw [heq, ← herror]
      | inr hrefused => exact absurd hrefused hnone

end Main

end OnHeap
end HttpRuntime
