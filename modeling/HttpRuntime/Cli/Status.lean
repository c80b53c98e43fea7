import HttpRuntime.Cli.Options
import HttpRuntime.Dsl.Parser.Correctness

/-!
This module contains how both front ends read an expected status: with `atoi`, which accepts every
text and knows only the numbers of an `int`.
-/

open Lib Lib.Sections

namespace HttpRuntime

open Grammar

variable {literal : Bytes}

/-- The literal is an integer, and the assertion passes just for the responses with this status. -/
def ReadsExactly (literal : Bytes) (as : Assertion) : Prop :=
  ∃ n, Decimal literal n ∧ as = ⟨.statusEq, .int n⟩ ∧
    ∀ resp, (evalAssertion (some resp) (some as)).passed = true ↔ resp.statusCode = n

def FitsInt (literal : Bytes) : Prop := ∃ n, Decimal literal n ∧ -2 ^ 31 ≤ n ∧ n < 2 ^ 31

theorem passed_statusEq (resp : Response) (n : Int)
    : (evalAssertion (some resp) (some ⟨.statusEq, .int n⟩)).passed = true ↔ resp.statusCode = n := by
  unfold evalAssertion checkEqual
  exact beq_iff_eq

theorem readsExactly_atoi_iff : ReadsExactly literal ⟨.statusEq, .int (atoi literal)⟩ ↔ FitsInt literal := by
  constructor
  . rintro ⟨n, hn, has, _⟩
    simp only [Assertion.mk.injEq, AssertionValue.int.injEq, true_and] at has
    exact ⟨n, hn, (atoi_eq_iff_of_decimal hn).mp has⟩
  . rintro ⟨n, hn, hfit⟩
    rw [(atoi_eq_iff_of_decimal hn).mpr hfit]
    exact ⟨n, hn, rfl, fun resp => passed_statusEq resp n⟩

theorem digits_of_program {ts : List DslToken} {stmts : List Statement} (h : Program ts stmts)
    (hvalid : ∀ t ∈ ts, t.Valid) (hmem : .inr (.expect (.status literal)) ∈ stmts)
    : ∀ c ∈ literal, isdigit c = true := by
  induction h with
  | eof => cases hmem
  | blank _ _ ih => exact ih (List.forall_mem_cons.mp hvalid).2 hmem
  | @statement ts rest ts' stmt stmts hstmt hend _ ih =>
    cases List.mem_cons.mp hmem with
    | inl heq =>
      subst heq
      cases hstmt with
      | expect ht he =>
        cases he with
        | @status t v digits rest hstatus hv hdigits =>
          obtain ⟨str, hstr, _, hint⟩ := hvalid v (by simp) (by rw [hv]; decide)
          rw [hdigits, Option.some.injEq] at hstr
          rw [hstr]
          exact hint hv
    | inr hmem =>
      apply ih _ hmem
      intro t ht
      exact hvalid t (hstmt.suffix.subset (hend.suffix.subset ht))

theorem assertion_status {digits : Bytes} (hdigits : ∀ c ∈ digits, isdigit c = true)
    : (Expect.status digits).assertion = ⟨.statusEq, .int (atoi digits)⟩ := by
  unfold Expect.assertion
  dsimp only
  split
  . next hfit => rw [atoi_of_digits hdigits hfit]
  . rfl

/-- Of a status that a front end accepts, the assertion has the number just if it is an integer within
the range of an `int`. -/
theorem status_reads_iff (argv : List Bytes) (allocs : List Bool) (opts : List CliOption)
    (source : Bytes) (error : Option DslParseError) (stmts : List Statement)
    : (3 ≤ argv.length → argv.drop 3 = opts.flatMap CliOption.args →
          (parseCliOptions argv .zero allocs).1 = 0 →
            List.Forall₂
              (fun opt as => ∀ literal, opt = CliOption.expectStatus literal →
                (ReadsExactly literal as ↔ FitsInt literal))
              opts (parseCliOptions argv .zero allocs).2.assertions) ∧
        (∀ plan error',
          dslParseRunPlan source error = some (.ok, plan, error') →
          Program (dslLexerGetTokens (dslCreateLexer source)) stmts →
            List.Forall₂
              (fun sec requestCase => List.Forall₂
                (fun e as => ∀ literal, e = Expect.status literal →
                  (ReadsExactly literal as ↔ FitsInt literal))
                (expects sec.2) requestCase.assertions)
              (sections stmts) plan.cases) := by
  constructor
  . intro hlength hargs haccepted
    match argv, hlength with
    | prog :: command :: url :: args, _ =>
      have hargs' : args = opts.flatMap CliOption.args := hargs
      subst hargs'
      unfold parseCliOptions at haccepted ⊢
      rw [parseOptions_flatMap opts haccepted, foldl_extend]
      simp only [CliOptions.zero, List.nil_append, List.forall₂_map_right_iff]
      apply List.forall₂_same.mpr
      rintro opt _ literal rfl
      exact readsExactly_atoi_iff
  . intro plan error' haccepted hprogram
    obtain ⟨result, plan', error'', hres, haccept, _⟩ := dslParseRunPlan_parses source error
    rw [haccepted, Option.some.injEq, Prod.mk.injEq, Prod.mk.injEq] at hres
    obtain ⟨rfl, rfl, rfl⟩ := hres
    rw [(haccept rfl).2.cases_eq hprogram, List.forall₂_map_right_iff]
    apply List.forall₂_same.mpr
    intro sec hsec
    simp only [caseOfSection, withClauses, startCase, List.nil_append, List.forall₂_map_right_iff]
    apply List.forall₂_same.mpr
    rintro e he literal rfl
    rw [assertion_status]
    . exact readsExactly_atoi_iff
    . obtain ⟨clause, hclause, heq⟩ := List.mem_filterMap.mp he
      cases clause with
      | body text => cases heq
      | expect e =>
        cases heq
        exact digits_of_program hprogram (valid_dslLexerGetTokens _) (mem_of_mem_sections hsec hclause)

-- "ok" and 2^32 + 200.
def otherStatuses : List Bytes :=
  [ascii "runner", ascii "get", ascii "u", ascii "--expect-status", ascii "ok",
    ascii "--expect-status", ascii "4294967496"]

def otherSource : Bytes := ascii "GET u\nEXPECT status 4294967496\n"

/-- A status that is no number is read as 0, and one beyond the range of `int` as another number. -/
theorem status_reads_other
    : (parseCliOptions otherStatuses .zero []).1 = 0 ∧
        (parseCliOptions otherStatuses .zero []).2.assertions =
          [⟨.statusEq, .int 0⟩, ⟨.statusEq, .int 200⟩] ∧
        (dslParseRunPlan otherSource none).map
            (fun res => (res.1, res.2.1.cases.map RequestCase.assertions)) =
          some (.ok, [[⟨.statusEq, .int 200⟩]]) ∧
        ¬ ReadsExactly (ascii "ok") ⟨.statusEq, .int 0⟩ ∧
        ¬ ReadsExactly (ascii "4294967496") ⟨.statusEq, .int 200⟩ := by
  refine ⟨by decide +kernel, by decide +kernel, by decide +kernel, ?_, ?_⟩
  . rintro ⟨n, hn, _⟩
    have hletters : ¬ ∀ c ∈ ascii "ok", isdigit c = true := by decide +kernel
    cases hn with
    | digits _ hdigits => exact hletters hdigits
  . rintro ⟨n, hn, has, _⟩
    simp only [Assertion.mk.injEq, AssertionValue.int.injEq, true_and] at has
    have hdecimal : Decimal (ascii "4294967496") (digitsValue (ascii "4294967496")) :=
      .digits (by decide) (by decide +kernel)
    have hvalue := hn.unique hdecimal
    rw [← has] at hvalue
    exact absurd hvalue (by decide +kernel)

end HttpRuntime
