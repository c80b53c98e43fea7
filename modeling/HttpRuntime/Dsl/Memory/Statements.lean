import HttpRuntime.Dsl.Memory.Tracks

/-!
This module contains that every statement parser on a heap does what the one of `Dsl.Parser.Basic` does.
-/

open Lib

namespace HttpRuntime
namespace OnHeap

variable {refuses : Nat → Bool} {parser : DslParser} {requestCase : RequestCase} {plan : RunPlan}

section Contents

theorem RequestCase.blocks_addAssertion (requestCase : RequestCase) (as : Assertion)
    : { requestCase with assertions := requestCase.assertions ++ [as] : RequestCase }.blocks =
        as.blocks + requestCase.blocks := by
  unfold RequestCase.blocks
  dsimp only
  rw [List.map_append, List.sum_append, List.map_singleton, List.sum_singleton]
  abel

theorem RequestCase.erase_addAssertion (requestCase : RequestCase) (as : Assertion)
    : { requestCase with assertions := requestCase.assertions ++ [as] : RequestCase }.erase =
        { requestCase.erase with assertions := requestCase.erase.assertions ++ [as.erase] } := by
  unfold RequestCase.erase
  dsimp only
  rw [List.map_append, List.map_singleton]

theorem RunPlan.exists_concat {plan : RunPlan} {requestCase : RequestCase}
    (h : plan.cases.getLast? = some requestCase) : plan.cases = plan.cases.dropLast ++ [requestCase] :=
  (List.dropLast_append_getLast? requestCase h).symm

theorem RunPlan.blocks_of_last {plan : RunPlan} {requestCase : RequestCase}
    (h : plan.cases.getLast? = some requestCase)
    : plan.blocks = requestCase.blocks + ((plan.cases.dropLast.map RequestCase.blocks).sum +
        plan.dbPath.blocks + plan.collectionName.blocks) := by
  unfold RunPlan.blocks
  rw [RunPlan.exists_concat h, List.dropLast_concat, List.map_append, List.sum_append,
    List.map_singleton, List.sum_singleton]
  abel

theorem RunPlan.blocks_setLastCase (plan : RunPlan) (requestCase : RequestCase)
    : (plan.setLastCase requestCase).blocks =
        requestCase.blocks + ((plan.cases.dropLast.map RequestCase.blocks).sum +
          plan.dbPath.blocks + plan.collectionName.blocks) := by
  unfold RunPlan.setLastCase RunPlan.blocks
  dsimp only
  rw [List.map_append, List.sum_append, List.map_singleton, List.sum_singleton]
  abel

theorem RunPlan.erase_setLastCase (plan : RunPlan) (requestCase : RequestCase)
    : (plan.setLastCase requestCase).erase = plan.erase.setLastCase requestCase.erase := by
  unfold RunPlan.setLastCase RunPlan.erase HttpRuntime.RunPlan.setLastCase
  dsimp only
  rw [List.map_append, List.map_singleton, List.map_dropLast]

theorem RunPlan.getLast_erase (plan : RunPlan)
    : plan.erase.cases.getLast? = plan.cases.getLast?.map RequestCase.erase := by
  unfold RunPlan.erase
  dsimp only
  rw [List.getLast?_map]

end Contents

section Assertions

/-- An assertion parser does what the other one does. -/
abbrev TracksAssertion (refuses : Nat → Bool) (parser : DslParser) (own : Multiset Nat)
    (m : AssertionParse) (m' : HttpRuntime.DslParser → HttpRuntime.AssertionParse) : Prop :=
  Tracks refuses RequestCase.blocks RequestCase.erase parser own m m'

theorem Tracks.addAssertion {own : Multiset Nat} {as : Assertion} {k : RequestCase → AssertionParse}
    {k' : HttpRuntime.RequestCase → HttpRuntime.DslParser → HttpRuntime.AssertionParse}
    (hroom : ¬ requestCase.assertions.length ≥ maxCaseAssertions)
    (hk : TracksAssertion refuses parser own
      (k { requestCase with assertions := requestCase.assertions ++ [as] })
      (k' { requestCase with assertions := requestCase.assertions ++ [as] : RequestCase }.erase))
    : TracksAssertion refuses parser own (requestCase.addAssertion as >>= k) fun parser' =>
        requestCase.erase.addAssertion as.erase >>= fun requestCase' => k' requestCase' parser' := by
  have hroom' : requestCase.assertions.length < maxCaseAssertions := by omega
  have hroom'' : requestCase.erase.assertions.length < maxCaseAssertions := by
    unfold RequestCase.erase
    rwa [List.length_map]
  unfold RequestCase.addAssertion HttpRuntime.RequestCase.addAssertion
  rw [if_pos hroom', if_pos hroom'', pure_bind]
  rw [RequestCase.erase_addAssertion] at hk
  exact hk

theorem parseStatusAssertion_eq (parser : HttpRuntime.DslParser) (requestCase : HttpRuntime.RequestCase)
    : HttpRuntime.parseStatusAssertion parser requestCase =
        if requestCase.assertions.length ≥ maxCaseAssertions then
          some (parser.parserError "too many assertions for request case", requestCase, false)
        else
          consumeThen parser .status "expected 'status'" requestCase fun parser =>
            consumeThen parser .int "expected status code after 'status'" requestCase fun parser =>
              parser.previousStr >>= fun str =>
                requestCase.addAssertion ⟨.statusEq, .int (atoi str)⟩ >>= fun requestCase =>
                  some (parser, requestCase, true) := rfl

theorem tracks_parseStatusAssertion
    : TracksAssertion refuses parser requestCase.blocks (parseStatusAssertion parser requestCase)
        fun parser' => HttpRuntime.parseStatusAssertion parser' requestCase.erase := by
  have hlength : requestCase.erase.assertions.length = requestCase.assertions.length := List.length_map _
  simp only [parseStatusAssertion_eq, hlength]
  unfold parseStatusAssertion
  split
  . exact Tracks.fail _
  . next hroom =>
    apply Tracks.consume (by decide)
    intro next _ _
    apply Tracks.consume (by decide)
    intro next s hs
    apply Tracks.read hs
    apply Tracks.of_previous hs
    apply Tracks.addAssertion hroom
    apply Tracks.of_own (Tracks.done _)
    rw [RequestCase.blocks_addAssertion]
    exact (zero_add _).symm

theorem parseBodyAssertion_eq (parser : HttpRuntime.DslParser) (requestCase : HttpRuntime.RequestCase)
    : HttpRuntime.parseBodyAssertion parser requestCase =
        if requestCase.assertions.length ≥ maxCaseAssertions then
          some (parser.parserError "too many assertions for request case", requestCase, false)
        else
          consumeThen parser .body "expected 'body'" requestCase fun parser =>
            consumeThen parser .contains "expected 'contains' after 'body'" requestCase fun parser =>
              consumeThen parser .string "expected string after 'body contains'" requestCase fun parser =>
                parser.previousStr >>= fun str =>
                  requestCase.addAssertion ⟨.bodyContains, .bytes (some str) (strlen str)⟩ >>=
                    fun requestCase => some (parser, requestCase, true) := rfl

theorem tracks_parseBodyAssertion
    : TracksAssertion refuses parser requestCase.blocks (parseBodyAssertion parser requestCase)
        fun parser' => HttpRuntime.parseBodyAssertion parser' requestCase.erase := by
  have hlength : requestCase.erase.assertions.length = requestCase.assertions.length := List.length_map _
  simp only [parseBodyAssertion_eq, hlength]
  unfold parseBodyAssertion
  split
  . exact Tracks.fail _
  . next hroom =>
    apply Tracks.consume (by decide)
    intro next _ _
    apply Tracks.consume (by decide)
    intro next _ _
    apply Tracks.consume (by decide)
    intro next s hs
    apply Tracks.of_previous hs
    apply Tracks.strdup hs
    . intro hrefused
      apply Tracks.read hs
      rw [RequestCase.addAssertion, if_pos (by omega), pure_bind]
      apply Tracks.of_own (Tracks.lost hrefused _)
      rw [RequestCase.blocks_addAssertion]
      exact (zero_add _).symm
    . intro b
      apply Tracks.read hs
      apply Tracks.addAssertion hroom
      apply Tracks.of_own (Tracks.done _)
      rw [RequestCase.blocks_addAssertion]
      rfl

theorem exists_valueStr {next : DslParser}
    (h : (!(parser.check .ident || parser.check .string || parser.check .int)) = false)
    (hprevious : next.previous = parser.current) : ∃ s, next.previousStr.val = some s := by
  rw [Bool.not_eq_false', Bool.or_eq_true, Bool.or_eq_true] at h
  obtain ⟨type, htype, hcheck⟩ : ∃ type, Texted type ∧ parser.check type = true := by
    obtain (hident | hstring) | hint := h
    . exact ⟨_, by decide, hident⟩
    . exact ⟨_, by decide, hstring⟩
    . exact ⟨_, by decide, hint⟩
  obtain ⟨token, hcurrent, heq⟩ := DslParser.exists_current hcheck
  rw [hcurrent] at hprevious
  exact DslParser.exists_previousStr htype hprevious heq

theorem parseHeaderAssertion_eq (parser : HttpRuntime.DslParser) (requestCase : HttpRuntime.RequestCase)
    : HttpRuntime.parseHeaderAssertion parser requestCase =
        if requestCase.assertions.length ≥ maxCaseAssertions then
          some (parser.parserError "too many assertions for request case", requestCase, false)
        else
          consumeThen parser .header "expected 'header'" requestCase fun parser =>
            consumeThen parser .ident "expected header name after 'header'" requestCase fun parser =>
              parser.previousStr >>= fun name =>
                if !(parser.check .ident || parser.check .string || parser.check .int) then
                  some (parser.parserError "expected header value after header name", requestCase, false)
                else
                  advanceThen parser fun parser =>
                    parser.previousStr >>= fun value =>
                      requestCase.addAssertion ⟨.headerContains, .header ⟨some name, some value⟩⟩ >>=
                        fun requestCase => some (parser, requestCase, true) := rfl

theorem tracks_parseHeaderAssertion
    : TracksAssertion refuses parser requestCase.blocks (parseHeaderAssertion parser requestCase)
        fun parser' => HttpRuntime.parseHeaderAssertion parser' requestCase.erase := by
  have hlength : requestCase.erase.assertions.length = requestCase.assertions.length := List.length_map _
  simp only [parseHeaderAssertion_eq, hlength]
  unfold parseHeaderAssertion
  split
  . exact Tracks.fail _
  . next hroom =>
    apply Tracks.consume (by decide)
    intro next _ _
    apply Tracks.consume (by decide)
    intro next name hname
    apply Tracks.of_previous hname
    apply Tracks.strdup hname
    . intro hrefused
      exact Tracks.lost hrefused _
    . intro b
      apply Tracks.of_cond
      . intro parser' h
        rw [h.check, h.check, h.check]
      . intro _
        apply Tracks.delete (p := some ⟨b, name⟩)
        exact Tracks.fail _
      . intro hvalue
        apply Tracks.advance
        intro next hprevious
        obtain ⟨value, hvalue⟩ := exists_valueStr hvalue hprevious
        apply Tracks.of_previous hvalue
        apply Tracks.strdup hvalue
        . intro hrefused
          apply Tracks.delete (p := some ⟨b, name⟩)
          exact Tracks.lost hrefused _
        . intro b'
          apply Tracks.addAssertion hroom
          apply Tracks.of_own (Tracks.done _)
          rw [RequestCase.blocks_addAssertion, Assertion.blocks, Ptr.blocks_some, Ptr.blocks_some]
          abel

theorem parseAssertion_eq (parser : HttpRuntime.DslParser) (requestCase : HttpRuntime.RequestCase)
    : HttpRuntime.parseAssertion parser requestCase =
        if parser.check .status then HttpRuntime.parseStatusAssertion parser requestCase
        else if parser.check .body then HttpRuntime.parseBodyAssertion parser requestCase
        else if parser.check .header then HttpRuntime.parseHeaderAssertion parser requestCase
        else
          some (parser.parserError "expected assertion type: status, body, or header", requestCase,
            false) := rfl

theorem tracks_parseAssertion
    : TracksAssertion refuses parser requestCase.blocks (parseAssertion parser requestCase)
        fun parser' => HttpRuntime.parseAssertion parser' requestCase.erase := by
  simp only [parseAssertion_eq]
  unfold parseAssertion
  apply Tracks.of_cond (fun parser' h => h.check _)
  . exact fun _ => tracks_parseStatusAssertion
  . intro _
    apply Tracks.of_cond (fun parser' h => h.check _)
    . exact fun _ => tracks_parseBodyAssertion
    . intro _
      apply Tracks.of_cond (fun parser' h => h.check _)
      . exact fun _ => tracks_parseHeaderAssertion
      . exact fun _ => Tracks.fail _

end Assertions

section Statements

/-- A statement parser does what the other one does. -/
abbrev TracksStatement (refuses : Nat → Bool) (parser : DslParser) (own : Multiset Nat)
    (m : StatementParse) (m' : HttpRuntime.DslParser → HttpRuntime.StatementParse) : Prop :=
  Tracks refuses RunPlan.blocks RunPlan.erase parser own m m'

theorem finishStatement_eq (parser : HttpRuntime.DslParser) (plan : HttpRuntime.RunPlan) (message : String)
    : HttpRuntime.finishStatement parser plan message =
        if parser.check .newline then advanceThen parser fun parser => some (parser, plan, true)
        else if parser.check .eof then some (parser, plan, true)
        else some (parser.parserError message, plan, false) := rfl

theorem tracks_finishStatement (message : String)
    : TracksStatement refuses parser plan.blocks (finishStatement parser plan message) fun parser' =>
        HttpRuntime.finishStatement parser' plan.erase message := by
  simp only [finishStatement_eq]
  unfold finishStatement
  apply Tracks.of_cond (fun parser' h => h.check _)
  . intro _
    apply Tracks.advance
    intro next _
    exact Tracks.done _
  . intro _
    apply Tracks.of_cond (fun parser' h => h.check _)
    . exact fun _ => Tracks.done _
    . exact fun _ => Tracks.fail _

theorem parseBodyStmt_eq (parser : HttpRuntime.DslParser) (plan : HttpRuntime.RunPlan)
    : HttpRuntime.parseBodyStmt parser plan =
        match plan.cases.getLast? with
        | none => some (parser.parserError "BODY must appear after a request statement", plan, false)
        | some requestCase =>
          consumeThen parser .bodyStmt "expected BODY" plan fun parser =>
            consumeThen parser .bodyRaw "expected body value after BODY" plan fun parser =>
              parser.previousStr >>= fun str =>
                HttpRuntime.finishStatement parser
                  (plan.setLastCase { requestCase with body := some str, bodyLen := strlen str })
                  "expected newline after BODY statement" := rfl

theorem tracks_parseBodyStmt
    : TracksStatement refuses parser plan.blocks (parseBodyStmt parser plan) fun parser' =>
        HttpRuntime.parseBodyStmt parser' plan.erase := by
  simp only [parseBodyStmt_eq, RunPlan.getLast_erase]
  unfold parseBodyStmt
  cases hlast : plan.cases.getLast? with
  | none => exact Tracks.fail _
  | some requestCase =>
    apply Tracks.consume (by decide)
    intro next _ _
    apply Tracks.consume (by decide)
    intro next s hs
    apply Tracks.of_previous hs
    have hown : plan.blocks = requestCase.body.blocks +
        (plan.setLastCase { requestCase with body := none }).blocks := by
      rw [RunPlan.blocks_setLastCase, RunPlan.blocks_of_last hlast]
      unfold RequestCase.blocks
      rw [Ptr.blocks_none]
      abel
    apply Tracks.of_own _ hown
    apply Tracks.delete
    apply Tracks.strdup hs
    . intro hrefused
      exact Tracks.lost hrefused _
    . intro b
      have herase : plan.erase.setLastCase
          { requestCase.erase with body := some s, bodyLen := strlen s } =
            (plan.setLastCase { requestCase with body := some ⟨b, s⟩, bodyLen := strlen s }).erase := by
        rw [RunPlan.erase_setLastCase]
        rfl
      rw [herase]
      apply Tracks.of_own (tracks_finishStatement _)
      rw [RunPlan.blocks_setLastCase, RunPlan.blocks_setLastCase]
      unfold RequestCase.blocks
      rw [Ptr.blocks_none, Ptr.blocks_some]
      abel

theorem RunPlan.blocks_addCase (plan : RunPlan) (requestCase : RequestCase)
    : { plan with cases := plan.cases ++ [requestCase] : RunPlan }.blocks =
        requestCase.blocks + plan.blocks := by
  unfold RunPlan.blocks
  dsimp only
  rw [List.map_append, List.sum_append, List.map_singleton, List.sum_singleton]
  abel

theorem RunPlan.erase_addCase (plan : RunPlan) (requestCase : RequestCase)
    : { plan with cases := plan.cases ++ [requestCase] : RunPlan }.erase =
        { plan.erase with cases := plan.erase.cases ++ [requestCase.erase] } := by
  unfold RunPlan.erase
  dsimp only
  rw [List.map_append, List.map_singleton]

theorem Tracks.addCase {own : Multiset Nat} {requestCase : RequestCase} {k : RunPlan → StatementParse}
    {k' : HttpRuntime.RunPlan → HttpRuntime.DslParser → HttpRuntime.StatementParse}
    (hroom : ¬ plan.cases.length ≥ maxRequestCases)
    (hk : TracksStatement refuses parser own (k { plan with cases := plan.cases ++ [requestCase] })
      (k' { plan with cases := plan.cases ++ [requestCase] : RunPlan }.erase))
    : TracksStatement refuses parser own (plan.addCase requestCase >>= k) fun parser' =>
        plan.erase.addCase requestCase.erase >>= fun plan' => k' plan' parser' := by
  have hroom' : plan.cases.length < maxRequestCases := by omega
  have hroom'' : plan.erase.cases.length < maxRequestCases := by
    unfold RunPlan.erase
    rwa [List.length_map]
  unfold RunPlan.addCase HttpRuntime.RunPlan.addCase
  rw [if_pos hroom', if_pos hroom'', pure_bind]
  rw [RunPlan.erase_addCase] at hk
  exact hk

theorem parseRequestStmt_eq (parser : HttpRuntime.DslParser) (plan : HttpRuntime.RunPlan)
    : HttpRuntime.parseRequestStmt parser plan =
        if plan.cases.length ≥ maxRequestCases then
          some (parser.parserError "too many request cases", plan, false)
        else
          typeThen parser fun type parser =>
            match type with
            | none => some (parser.parserError "expected HTTP method", plan, false)
            | some methodToken =>
              if !isMethodToken methodToken then
                some (parser.parserError "expected HTTP method", plan, false)
              else
                advanceThen parser fun parser =>
                  consumeThen parser .ident "expected URL after HTTP method" plan fun parser =>
                    parser.previousStr >>= fun str =>
                      plan.addCase {
                        method := methodFromToken methodToken
                        url := some str
                        headers := none
                        body := none
                        bodyLen := 0
                        assertions := []
                        timeoutMs := if plan.defaultTimeoutMs > 0 then plan.defaultTimeoutMs else 5000
                      } >>= fun plan =>
                        HttpRuntime.finishStatement parser plan
                          "expected newline after request statement" := rfl

theorem tracks_parseRequestStmt
    : TracksStatement refuses parser plan.blocks (parseRequestStmt parser plan) fun parser' =>
        HttpRuntime.parseRequestStmt parser' plan.erase := by
  have hlength : plan.erase.cases.length = plan.cases.length := List.length_map _
  simp only [parseRequestStmt_eq, hlength]
  unfold parseRequestStmt
  split
  . exact Tracks.fail _
  . next hroom =>
    apply Tracks.of_type
    cases parser.current.map DslToken.type with
    | none => exact Tracks.fail _
    | some methodToken =>
      dsimp only
      split
      . exact Tracks.fail _
      . apply Tracks.advance
        intro next _
        apply Tracks.consume (by decide)
        intro next s hs
        apply Tracks.of_previous hs
        apply Tracks.strdup hs
        . intro hrefused
          exact Tracks.lost hrefused _
        . intro b
          apply Tracks.addCase hroom
          apply Tracks.of_own (tracks_finishStatement _)
          rw [RunPlan.blocks_addCase]
          rfl

theorem Tracks.bindCase {own rest : Multiset Nat} {m : AssertionParse}
    {m' : HttpRuntime.DslParser → HttpRuntime.AssertionParse}
    {k : DslParser × RequestCase × Bool → StatementParse}
    {k' : HttpRuntime.DslParser × HttpRuntime.RequestCase × Bool → HttpRuntime.StatementParse}
    (hm : TracksAssertion refuses parser own m m')
    (hk : ∀ next requestCase ok, TracksStatement refuses next (RequestCase.blocks requestCase + rest)
      (k (next, requestCase, ok)) fun next' => k' (next', requestCase.erase, ok))
    : TracksStatement refuses parser (own + rest) (m >>= k) fun parser' => m' parser' >>= k' := by
  intro bs
  have hsplit : parser.blocks + (own + rest) + bs = parser.blocks + own + (rest + bs) := by abel
  rw [hsplit]
  apply (hm (rest + bs)).bind
  rintro ⟨next, requestCase, ok⟩ _ ⟨rfl, hlost, hres⟩
  have hjoin : next.blocks + requestCase.blocks + (rest + bs) =
      next.blocks + (requestCase.blocks + rest) + bs := by abel
  dsimp only
  rw [hjoin]
  apply (hk next requestCase ok bs).mono
  rintro res _ ⟨rfl, hlost', hres'⟩
  refine ⟨rfl, hlost' ∘ hlost, ?_⟩
  intro parser' h
  cases hres parser' h with
  | inl hlostNext => exact Or.inl (hlost' hlostNext)
  | inr hfound =>
    obtain ⟨next', heq, hfollows⟩ := hfound
    rw [heq]
    exact hres' next' hfollows

theorem parseExpectStmt_eq (parser : HttpRuntime.DslParser) (plan : HttpRuntime.RunPlan)
    : HttpRuntime.parseExpectStmt parser plan =
        match plan.cases.getLast? with
        | none =>
          some (parser.parserError "EXPECT statement must come after a request statement", plan, false)
        | some requestCase =>
          consumeThen parser .expect "expected EXPECT" plan fun parser =>
            if requestCase.assertions.length ≥ maxCaseAssertions then
              some (parser.parserError "too many assertions for request case", plan, false)
            else
              HttpRuntime.parseAssertion parser requestCase >>= fun res =>
                if !res.2.2 then some (res.1, plan.setLastCase res.2.1, false)
                else
                  HttpRuntime.finishStatement res.1 (plan.setLastCase res.2.1)
                    "expected newline after EXPECT statement" := rfl

theorem tracks_parseExpectStmt
    : TracksStatement refuses parser plan.blocks (parseExpectStmt parser plan) fun parser' =>
        HttpRuntime.parseExpectStmt parser' plan.erase := by
  simp only [parseExpectStmt_eq, RunPlan.getLast_erase]
  unfold parseExpectStmt
  cases hlast : plan.cases.getLast? with
  | none => exact Tracks.fail _
  | some requestCase =>
    have hlength : requestCase.erase.assertions.length = requestCase.assertions.length := List.length_map _
    dsimp only [Option.map_some]
    rw [hlength]
    apply Tracks.consume (by decide)
    intro next _ _
    dsimp only [Bool.not_true]
    split
    . exact Tracks.fail _
    . rw [RunPlan.blocks_of_last hlast]
      apply Tracks.bindCase tracks_parseAssertion
      intro next requestCase' ok
      have herase := RunPlan.erase_setLastCase plan requestCase'
      dsimp only
      rw [← herase, ← RunPlan.blocks_setLastCase]
      cases ok with
      | false => exact Tracks.done _
      | true => exact tracks_finishStatement _

theorem parseStatement_eq (parser : HttpRuntime.DslParser) (plan : HttpRuntime.RunPlan)
    : HttpRuntime.parseStatement parser plan =
        if parser.check .newline then advanceThen parser fun parser => some (parser, plan, true)
        else if parser.check .get || parser.check .post || parser.check .put || parser.check .delete ||
            parser.check .patch then
          HttpRuntime.parseRequestStmt parser plan
        else if parser.check .bodyStmt then HttpRuntime.parseBodyStmt parser plan
        else if parser.check .expect then HttpRuntime.parseExpectStmt parser plan
        else
          some (parser.parserError "expected request statement or EXPECT statement", plan, false) := rfl

theorem tracks_parseStatement
    : TracksStatement refuses parser plan.blocks (parseStatement parser plan) fun parser' =>
        HttpRuntime.parseStatement parser' plan.erase := by
  simp only [parseStatement_eq]
  unfold parseStatement
  apply Tracks.of_cond (fun parser' h => h.check _)
  . intro _
    apply Tracks.advance
    intro next _
    exact Tracks.done _
  . intro _
    apply Tracks.of_cond
    . intro parser' h
      simp only [h.check]
    . exact fun _ => tracks_parseRequestStmt
    . intro _
      apply Tracks.of_cond (fun parser' h => h.check _)
      . exact fun _ => tracks_parseBodyStmt
      . intro _
        apply Tracks.of_cond (fun parser' h => h.check _)
        . exact fun _ => tracks_parseExpectStmt
        . exact fun _ => Tracks.fail _

end Statements

end OnHeap
end HttpRuntime
