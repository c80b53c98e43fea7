import HttpRuntime.Dsl.Lexer.Lines
import HttpRuntime.Dsl.Parser.Correctness
import HttpRuntime.Dsl.Parser.Diagnosis

/-!
This module contains that the parser sees only the words of a source and their lines: sources with the
same words give the same plan, and sources with the same words and lines the same error.
-/

open Lib Lib.Automaton Lib.Sections

namespace HttpRuntime

namespace Grammar

variable {ts ts' rest : List DslToken}

-- The tokens in front, and the same words.
theorem map_word_cons {t : DslToken} (h : ts'.map DslToken.word = (t :: ts).map DslToken.word)
    : ∃ t' rest, ts' = t' :: rest ∧ t'.type = t.type ∧ t'.str = t.str ∧
        rest.map DslToken.word = ts.map DslToken.word := by
  rw [List.map_cons, List.map_eq_cons_iff] at h
  obtain ⟨t', rest, hts, hword, hrest⟩ := h
  exact ⟨t', rest, hts, congrArg Prod.fst hword, congrArg Prod.snd hword, hrest⟩

theorem Asserts.of_words {e : Expect} (h : Asserts ts e rest)
    (hwords : ts'.map DslToken.word = ts.map DslToken.word)
    : ∃ rest', Asserts ts' e rest' ∧ rest'.map DslToken.word = rest.map DslToken.word := by
  cases h with
  | status ht hv hdigits =>
    obtain ⟨t', ts₁, rfl, htype, _, hwords⟩ := map_word_cons hwords
    obtain ⟨v', rest', rfl, hvtype, hvstr, hwords⟩ := map_word_cons hwords
    exact ⟨rest', .status (htype.trans ht) (hvtype.trans hv) (hvstr.trans hdigits), hwords⟩
  | bodyContains ht hu hv htext =>
    obtain ⟨t', ts₁, rfl, htype, _, hwords⟩ := map_word_cons hwords
    obtain ⟨u', ts₂, rfl, hutype, _, hwords⟩ := map_word_cons hwords
    obtain ⟨v', rest', rfl, hvtype, hvstr, hwords⟩ := map_word_cons hwords
    exact ⟨rest', .bodyContains (htype.trans ht) (hutype.trans hu) (hvtype.trans hv) (hvstr.trans htext),
      hwords⟩
  | header ht hu hname hv hvalue =>
    obtain ⟨t', ts₁, rfl, htype, _, hwords⟩ := map_word_cons hwords
    obtain ⟨u', ts₂, rfl, hutype, hustr, hwords⟩ := map_word_cons hwords
    obtain ⟨v', rest', rfl, hvtype, hvstr, hwords⟩ := map_word_cons hwords
    exact ⟨rest', .header (htype.trans ht) (hutype.trans hu) (hustr.trans hname) (hvtype.symm ▸ hv)
      (hvstr.trans hvalue), hwords⟩

theorem Spells.of_words {stmt : Statement} (h : Spells ts stmt rest)
    (hwords : ts'.map DslToken.word = ts.map DslToken.word)
    : ∃ rest', Spells ts' stmt rest' ∧ rest'.map DslToken.word = rest.map DslToken.word := by
  cases h with
  | request ht hu hurl =>
    obtain ⟨t', ts₁, rfl, htype, _, hwords⟩ := map_word_cons hwords
    obtain ⟨u', rest', rfl, hutype, hustr, hwords⟩ := map_word_cons hwords
    exact ⟨rest', .request (htype.symm ▸ ht) (hutype.trans hu) (hustr.trans hurl), hwords⟩
  | body ht hu htext =>
    obtain ⟨t', ts₁, rfl, htype, _, hwords⟩ := map_word_cons hwords
    obtain ⟨u', rest', rfl, hutype, hustr, hwords⟩ := map_word_cons hwords
    exact ⟨rest', .body (htype.trans ht) (hutype.trans hu) (hustr.trans htext), hwords⟩
  | expect ht he =>
    obtain ⟨t', ts₁, rfl, htype, _, hwords⟩ := map_word_cons hwords
    obtain ⟨rest', he', hwords'⟩ := he.of_words hwords
    exact ⟨rest', .expect (htype.trans ht) he', hwords'⟩

theorem Ends.of_words (h : Ends ts rest) (hwords : ts'.map DslToken.word = ts.map DslToken.word)
    : ∃ rest', Ends ts' rest' ∧ rest'.map DslToken.word = rest.map DslToken.word := by
  cases h with
  | newline ht =>
    obtain ⟨t', rest', rfl, htype, _, hwords'⟩ := map_word_cons hwords
    exact ⟨rest', .newline (htype.trans ht), hwords'⟩
  | eof ht =>
    obtain ⟨t', rest', rfl, htype, _, hwords'⟩ := map_word_cons hwords
    obtain rfl := List.map_eq_nil_iff.mp hwords'
    exact ⟨[t'], .eof (htype.trans ht), hwords⟩

/-- What a program says is what its words say. -/
theorem Program.of_words {stmts : List Statement} (h : Program ts stmts)
    (hwords : ts'.map DslToken.word = ts.map DslToken.word) : Program ts' stmts := by
  induction h generalizing ts' with
  | eof ht =>
    obtain ⟨t', rest', rfl, htype, _, hwords⟩ := map_word_cons hwords
    obtain rfl := List.map_eq_nil_iff.mp hwords
    exact .eof (htype.trans ht)
  | blank ht hrest ih =>
    obtain ⟨t', rest', rfl, htype, _, hwords⟩ := map_word_cons hwords
    exact .blank (htype.trans ht) (ih hwords)
  | statement hstmt hend hrest ih =>
    obtain ⟨rest₁, hstmt', hwords⟩ := hstmt.of_words hwords
    obtain ⟨rest₂, hend', hwords⟩ := hend.of_words hwords
    exact .statement hstmt' hend' (ih hwords)

end Grammar

open Grammar

section Accepting

variable {source source' : Bytes} {error error' : Option DslParseError} {plan : RunPlan}

theorem program_of_ok (h : dslParseRunPlan source error = some (.ok, plan, error'))
    : ∃ stmts, Program (dslLexerGetTokens (dslCreateLexer source)) stmts ∧ Fits stmts ∧
        plan = planOfCases ((sections stmts).map caseOfSection) := by
  obtain ⟨result, plan', error₁, hres, haccept, _⟩ := dslParseRunPlan_parses source error
  rw [h, Option.some.injEq, Prod.mk.injEq, Prod.mk.injEq] at hres
  obtain ⟨rfl, rfl, rfl⟩ := hres
  obtain ⟨hplan, hparses⟩ := haccept rfl
  obtain ⟨stmts, hprogram, hfits⟩ := parses_iff.mp ⟨_, hparses⟩
  refine ⟨stmts, hprogram, hfits, ?_⟩
  rw [hplan, hparses.cases_eq hprogram]

theorem dslParseRunPlan_error_plan (h : dslParseRunPlan source error = some (.error, plan, error'))
    : plan = .zero := by
  obtain ⟨result, plan', error₁, hres, _, hreject⟩ := dslParseRunPlan_parses source error
  rw [h, Option.some.injEq, Prod.mk.injEq, Prod.mk.injEq] at hres
  obtain ⟨rfl, rfl, rfl⟩ := hres
  exact (hreject rfl).1

theorem dslParseRunPlan_ok_of_words (h : dslParseRunPlan source error = some (.ok, plan, error'))
    (hwords : (dslCreateLexer source').words = (dslCreateLexer source).words)
    : ∃ error', dslParseRunPlan source' error = some (.ok, plan, error') := by
  obtain ⟨stmts, hprogram, hfits, hplan⟩ := program_of_ok h
  obtain ⟨error', hres⟩ := dslParseRunPlan_of_program (hprogram.of_words hwords) hfits error
  rw [← hplan] at hres
  exact ⟨error', hres⟩

end Accepting

section Rejecting

variable {source source' : Bytes}

theorem words_of_heads (h : (dslCreateLexer source').heads = (dslCreateLexer source).heads)
    : (dslCreateLexer source').words = (dslCreateLexer source).words := by
  have hwords := congrArg (List.map Prod.fst) h
  unfold DslLexer.heads at hwords
  rw [List.map_map, List.map_map] at hwords
  exact hwords

def Config.readHead (c : Config) (w : Word × Nat) : Option Config := c.next w.1.1

theorem run_heads (c : Config) (tokens : List DslToken)
    : run Config.readHead c (tokens.map DslToken.head) = run Config.read c tokens := by
  unfold run
  rw [List.foldlM_map]
  rfl

-- The message and the line, without the column.
def DslParseError.head (d : DslParseError) : Bytes × Nat := (d.message, d.line)

theorem report_head {t t' : DslToken} (h : t'.head = t.head) (message : String)
    : (t'.report message).head = (t.report message).head := by
  unfold DslToken.head DslToken.word at h
  rw [Prod.mk.injEq, Prod.mk.injEq] at h
  unfold DslToken.report DslToken.lexerError DslParseError.write DslParseError.head
  rw [h.1.1, h.1.2, h.2]
  split <;> rfl

theorem diagnose_head (c : Config) {t t' : DslToken} {after after' : List DslToken} (ht : t'.head = t.head)
    (hafter : after'.map DslToken.head = after.map DslToken.head)
    : (c.diagnose t' after').head = (c.diagnose t after).head := by
  have htype : t'.type = t.type := congrArg (fun h => h.1.1) ht
  have hblamed : (c.blamed t' after').head = (c.blamed t after).head := by
    unfold Config.blamed
    rw [htype]
    split
    . have hheadD : (after'.map DslToken.head).headD t'.head = (after.map DslToken.head).headD t.head := by
        rw [hafter, ht]
      cases after <;> cases after' <;> exact hheadD
    . exact ht
  rw [c.diagnose_eq, c.diagnose_eq, htype]
  exact report_head hblamed _

theorem FirstWrong.head {tokens tokens' before before' after after' : List DslToken} {t t' : DslToken}
    {d d' : DslParseError} (h : FirstWrong tokens before t after d)
    (h' : FirstWrong tokens' before' t' after' d')
    (htokens : tokens'.map DslToken.head = tokens.map DslToken.head) : d'.head = d.head := by
  obtain ⟨c, hstops, rfl⟩ := h.stops
  obtain ⟨c', hstops', rfl⟩ := h'.stops
  have hreads : StopsAt Config.readHead .start (before.map DslToken.head) t.head c :=
    ⟨by rw [run_heads]; exact hstops.reads, hstops.stops⟩
  have hreads' : StopsAt Config.readHead .start (before'.map DslToken.head) t'.head c' :=
    ⟨by rw [run_heads]; exact hstops'.reads, hstops'.stops⟩
  rw [h.tokens, h'.tokens, List.map_append, List.map_append, List.map_cons, List.map_cons] at htokens
  obtain ⟨hbefore, ht, hafter⟩ := hreads'.unique hreads htokens
  have hc : c' = c := by
    have heq := hreads'.reads
    rw [hbefore, hreads.reads] at heq
    exact (Option.some.inj heq).symm
  rw [hc]
  exact diagnose_head c ht hafter

/-- Sources with the same words and lines are parsed in the same way, up to the columns. -/
theorem dslParseRunPlan_congr (h : (dslCreateLexer source').heads = (dslCreateLexer source).heads)
    (error : Option DslParseError)
    : ∃ result plan error₁ error₂, dslParseRunPlan source error = some (result, plan, error₁) ∧
        dslParseRunPlan source' error = some (result, plan, error₂) ∧
        (result = .error → error₂.map DslParseError.message = error₁.map DslParseError.message ∧
          error₂.map DslParseError.line = error₁.map DslParseError.line) := by
  have hwords := words_of_heads h
  obtain ⟨result, plan, error₁, hres, _, hwrong⟩ := dslParseRunPlan_diagnosed source error
  obtain ⟨result', plan', error₂, hres', _, hwrong'⟩ := dslParseRunPlan_diagnosed source' error
  cases result with
  | ok =>
    obtain ⟨error', hsame⟩ := dslParseRunPlan_ok_of_words hres hwords
    exact ⟨.ok, plan, error₁, error', hres, hsame, fun hne => by cases hne⟩
  | error =>
    cases result' with
    | ok =>
      obtain ⟨error', hsame⟩ := dslParseRunPlan_ok_of_words hres' hwords.symm
      rw [hres] at hsame
      cases hsame
    | error =>
      obtain ⟨before, t, after, d, hfirst, herror, _⟩ := hwrong rfl
      obtain ⟨before', t', after', d', hfirst', herror', _⟩ := hwrong' rfl
      have hhead := hfirst.head hfirst' h
      unfold DslParseError.head at hhead
      rw [Prod.mk.injEq] at hhead
      have hplan : plan' = plan := by
        rw [dslParseRunPlan_error_plan hres, dslParseRunPlan_error_plan hres']
      rw [hplan] at hres'
      refine ⟨.error, plan, error₁, error₂, hres, hres', fun _ => ?_⟩
      rw [herror, herror', Option.map_map, Option.map_map, Option.map_map, Option.map_map]
      refine ⟨?_, ?_⟩
      . exact congrArg (fun m => error.map (fun _ => m)) hhead.1
      . exact congrArg (fun l => error.map (fun _ => l)) hhead.2

end Rejecting

end HttpRuntime
