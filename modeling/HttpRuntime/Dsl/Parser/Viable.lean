import HttpRuntime.Dsl.Lexer.Words
import HttpRuntime.Dsl.Parser.Diagnosis
import HttpRuntime.Lib.Sections

/-!
This module contains that the error of a rejected source is about its first wrong token: what comes
before it can be completed to an accepted source, and no accepted source goes on with it.
-/

open Lib Lib.Automaton Lib.Sections

namespace HttpRuntime

section Limits

-- A request or an `EXPECT`.
def statementMark (type : DslTokenType) : Option (Unit ⊕ Unit) :=
  if isMethodToken type then some (.inl ()) else if type = .expect then some (.inr ()) else none

-- The marks of the tokens that begin a line.
def lineMarks (first : Bool) (tokens : List DslToken) : List (Unit ⊕ Unit) :=
  match tokens with
  | [] => []
  | t :: ts =>
    if t.type = .newline then lineMarks true ts
    else if first then (statementMark t.type).toList ++ lineMarks false ts
    else lineMarks false ts

/-- At most 128 lines begin with a request, and at most 32 with an `EXPECT` up to the next request. -/
structure WithinLimits (tokens : List DslToken) : Prop where
  requests : (sections (lineMarks true tokens)).length ≤ maxRequestCases
  expects : ∀ sec ∈ sections (lineMarks true tokens), sec.2.length ≤ maxCaseAssertions

-- Whether a line begins behind the tokens.
def lineStarts (first : Bool) (tokens : List DslToken) : Bool :=
  match tokens with
  | [] => first
  | t :: ts => lineStarts (t.type = .newline) ts

variable {c c' : Config} {before after : List DslToken} {t : DslToken}

theorem lineStarts_concat (first : Bool) (tokens : List DslToken) (t : DslToken)
    : lineStarts first (tokens ++ [t]) = decide (t.type = .newline) := by
  induction tokens generalizing first with
  | nil => rfl
  | cons u tokens ih => exact ih _

theorem lineMarks_append (first : Bool) (tokens tokens' : List DslToken)
    : lineMarks first (tokens ++ tokens') =
        lineMarks first tokens ++ lineMarks (lineStarts first tokens) tokens' := by
  induction tokens generalizing first with
  | nil => rfl
  | cons u tokens ih =>
    simp only [List.cons_append, lineMarks, lineStarts]
    split
    . next hnewline => rw [ih, decide_eq_true hnewline]
    . next hnewline =>
      rw [ih, decide_eq_false hnewline]
      split
      . rw [List.append_assoc]
      . rfl

theorem next_line_iff {type : DslTokenType} (h : c.next type = some c')
    : c'.place = .line ↔ type = .newline := by
  unfold Config.next at h
  split at h
  all_goals grind [Config.want, Config.nextStatement, Config.goto]

-- The counters change at the marks of a line.
theorem next_counters {type : DslTokenType} (h : c.next type = some c')
    : (c'.cases, c'.assertions) =
        if c.place = .line then
          match statementMark type with
          | some (.inl _) => (c.cases + 1, 0)
          | some (.inr _) => (c.cases, c.assertions + 1)
          | none => (c.cases, c.assertions)
        else (c.cases, c.assertions) := by
  unfold Config.next at h
  unfold statementMark
  split at h
  all_goals grind [Config.want, Config.nextStatement, Config.goto, isMethodToken]

/-- The number of requests, and that of the expectations of the last one. -/
structure Counted (marks : List (Unit ⊕ Unit)) (cases assertions : Nat) : Prop where
  cases : (sections marks).length = cases
  assertions : ∀ sec ∈ (sections marks).getLast?, sec.2.length = assertions

theorem Counted.request {marks : List (Unit ⊕ Unit)} {n k : Nat} (h : Counted marks n k)
    : Counted (marks ++ [.inl ()]) (n + 1) 0 := by
  constructor
  . rw [sections_concat_inl, List.length_append, h.cases]
    rfl
  . intro sec hsec
    rw [sections_concat_inl, List.getLast?_concat, Option.mem_some_iff] at hsec
    rw [← hsec]
    rfl

theorem Counted.expect {marks : List (Unit ⊕ Unit)} {n k : Nat} (h : Counted marks n k) (hn : n ≠ 0)
    : Counted (marks ++ [.inr ()]) n (k + 1) := by
  cases hlast : (sections marks).getLast? with
  | none =>
    rw [← h.cases, List.getLast?_eq_none_iff.mp hlast] at hn
    exact absurd rfl hn
  | some sec =>
    have hsections := sections_append hlast [.inr ()]
    have hlength := h.assertions sec hlast
    have hcases := h.cases
    obtain ⟨secs, hsecs⟩ := List.getLast?_eq_some_iff.mp hlast
    rw [hsecs, List.dropLast_concat] at hsections
    rw [hsecs, List.length_append] at hcases
    simp only [leading, sections] at hsections
    constructor
    . rw [hsections, List.length_append]
      exact hcases
    . intro sec' hsec
      rw [hsections, List.getLast?_concat, Option.mem_some_iff] at hsec
      rw [← hsec, List.length_append, hlength]
      rfl

/-- The counters of the automaton count the marks. -/
structure Marked (before : List DslToken) (c : Config) : Prop where
  counted : Counted (lineMarks true before) c.cases c.assertions
  place : lineStarts true before = decide (c.place = .line)

theorem lineMarks_singleton (first : Bool) (t : DslToken)
    : lineMarks first [t] = if first then (statementMark t.type).toList else [] := by
  unfold lineMarks
  by_cases hnewline : t.type = .newline
  . have hmark : statementMark .newline = none := by decide
    rw [if_pos hnewline, hnewline, hmark]
    cases first <;> rfl
  . rw [if_neg hnewline]
    cases first
    . rfl
    . exact List.append_nil _

theorem marked_of_run (h : run Config.read .start before = some c) : Marked before c := by
  induction before using List.reverseRecOn generalizing c with
  | nil =>
    obtain rfl := Option.some.inj h
    refine ⟨⟨rfl, ?_⟩, rfl⟩
    intro sec hsec
    cases hsec
  | append_singleton before t ih =>
    rw [run_append, Option.bind_eq_some_iff] at h
    obtain ⟨mid, hmid, hstep⟩ := h
    have hnext : mid.next t.type = some c := by
      rw [run_cons, Option.bind_eq_some_iff] at hstep
      obtain ⟨c', hread, hc⟩ := hstep
      rw [← Option.some.inj hc]
      exact hread
    have hmarked := ih hmid
    have hcounters := next_counters hnext
    refine ⟨?_, ?_⟩
    . rw [lineMarks_append, lineMarks_singleton, hmarked.place]
      simp only [decide_eq_true_eq]
      by_cases hline : mid.place = .line
      . rw [if_pos hline] at hcounters ⊢
        cases hmark : statementMark t.type with
        | none =>
          rw [hmark, Prod.mk.injEq] at hcounters
          rw [hcounters.1, hcounters.2]
          exact (List.append_nil _).symm ▸ hmarked.counted
        | some mark =>
          rw [hmark] at hcounters
          cases mark with
          | inl _ =>
            rw [Prod.mk.injEq] at hcounters
            rw [hcounters.1, hcounters.2]
            exact hmarked.counted.request
          | inr _ =>
            rw [Prod.mk.injEq] at hcounters
            rw [hcounters.1, hcounters.2]
            apply hmarked.counted.expect
            grind [statementMark, Config.next, Config.nextStatement, isMethodToken]
      . rw [if_neg hline, Prod.mk.injEq] at hcounters
        rw [if_neg hline, List.append_nil, hcounters.1, hcounters.2]
        exact hmarked.counted
    . rw [lineStarts_concat]
      exact decide_eq_decide.mpr (next_line_iff hnext).symm

/-- Within the limits there is room for every expectation. -/
theorem not_full_of_withinLimits (hlimits : WithinLimits (before ++ t :: after))
    (hrun : run Config.read .start before = some c) (hstop : c.next t.type = none)
    : c.full t.type = false := by
  by_contra hfull
  rw [Bool.not_eq_false] at hfull
  unfold Config.full at hfull
  simp only [ne_eq, decide_not, Bool.and_eq_true, decide_eq_true_eq, Bool.not_eq_true',
    decide_eq_false_iff_not] at hfull
  obtain ⟨⟨hline, hexpect⟩, hcases⟩ := hfull
  have hmarked := marked_of_run hrun
  have hmany : c.assertions ≥ maxCaseAssertions := by
    grind [Config.next, Config.nextStatement, isMethodToken]
  have hmark : statementMark .expect = some (.inr ()) := by decide
  have hmore := hmarked.counted.expect hcases
  have hmarks : lineMarks true (before ++ t :: after) =
      lineMarks true before ++ [.inr ()] ++ lineMarks false after := by
    rw [List.append_cons, lineMarks_append, lineMarks_append, lineStarts_concat, lineMarks_singleton,
      hmarked.place, decide_eq_true hline, hexpect, if_pos rfl, hmark]
    rfl
  cases hlast : (sections (lineMarks true before ++ [.inr ()])).getLast? with
  | none =>
    have hzero := hmore.cases
    rw [List.getLast?_eq_none_iff.mp hlast] at hzero
    exact hcases hzero.symm
  | some sec =>
    have hlength := hmore.assertions sec hlast
    have hle := hlimits.expects (sec.1, sec.2 ++ leading (lineMarks false after)) (by
      rw [hmarks, sections_append hlast]
      simp)
    rw [List.length_append, hlength] at hle
    omega

end Limits

section Completion

def Accepts (source : Bytes) : Prop :=
  ∃ plan error', dslParseRunPlan source none = some (.ok, plan, error')

/-- Some accepted source has these tokens, and then perhaps more. -/
def Viable (words : List Word) : Prop :=
  ∃ source, 0 ∉ source ∧ Accepts source ∧ words <+: (dslCreateLexer source).words

def Config.readWord (c : Config) (w : Word) : Option Config := c.next w.1

variable {c c' : Config} {source : Bytes}

theorem run_words (c : Config) (tokens : List DslToken)
    : run Config.readWord c (tokens.map DslToken.word) = run Config.read c tokens := by
  unfold run
  rw [List.foldlM_map]
  rfl

theorem accepts_iff
    : Accepts source ↔
        ∃ c, run Config.readWord .start (dslCreateLexer source).words = some c ∧ c.place = .finished := by
  obtain ⟨result, plan, error', hres, hok, herror⟩ := dslParseRunPlan_diagnosed source none
  unfold DslLexer.words Accepts
  rw [run_words]
  constructor
  . rintro ⟨plan', error₁, hplan⟩
    rw [hres, Option.some.injEq, Prod.mk.injEq] at hplan
    exact hok hplan.1
  . rintro ⟨c, hrun, _⟩
    cases result with
    | ok => exact ⟨plan, error', hres⟩
    | error =>
      obtain ⟨before, t, after, _, hwrong, _⟩ := herror rfl
      obtain ⟨c', hstops, _⟩ := hwrong.stops
      have hfirst : before ++ [t] <+: before ++ t :: after :=
        ⟨after, (List.append_cons before t after).symm⟩
      have hnone := hstops.run_eq_none hfirst
      rw [← hwrong.tokens, hrun] at hnone
      cases hnone

-- What completes a program, from a place in it.
def Place.completion (place : Place) : Bytes :=
  match place with
  | .line => []
  | .url => ascii " u"
  | .raw => []
  | .assertion => ascii " status 1"
  | .code => ascii " 1"
  | .contains => ascii " contains \"\""
  | .text => ascii " \"\""
  | .name => ascii " n v"
  | .value => ascii " v"
  | .lineEnd _ => []
  | .finished => []

/-- The lexer in front of a completion. -/
def Place.completing (place : Place) : DslLexer :=
  { dslCreateLexer place.completion with readBodyRawNext := place = .raw }

-- The words of a completion.
def Place.missing (place : Place) : List Word :=
  match place with
  | .line => []
  | .url => [(.ident, some (ascii "u"))]
  | .raw => [(.bodyRaw, some [])]
  | .assertion => [(.status, some (ascii "status")), (.int, some (ascii "1"))]
  | .code => [(.int, some (ascii "1"))]
  | .contains => [(.contains, some (ascii "contains")), (.string, some [])]
  | .text => [(.string, some [])]
  | .name => [(.ident, some (ascii "n")), (.ident, some (ascii "v"))]
  | .value => [(.ident, some (ascii "v"))]
  | .lineEnd _ => []
  | .finished => []

theorem completing_words (place : Place) : place.completing.words = place.missing ++ [(.eof, none)] := by
  cases place with
  | lineEnd kind => cases kind <;> decide +kernel
  | _ => decide +kernel

theorem completing_tape (place : Place)
    : place.completing.tape = ⟨decide (place = .raw), place.completion⟩ := by
  have hzero : 0 ∉ place.completion := by
    cases place with
    | lineEnd kind => cases kind <;> decide
    | _ => decide
  have htape := dslCreateLexer_tape hzero
  unfold DslLexer.tape at htape ⊢
  rw [Tape.mk.injEq] at htape ⊢
  exact ⟨rfl, htape.2⟩

theorem run_completing (hplace : c.place ≠ .finished)
    : ∃ c', run Config.readWord c c.place.completing.words = some c' ∧ c'.place = .finished := by
  rw [completing_words]
  obtain ⟨place, cases, assertions⟩ := c
  cases place with
  | finished => exact absurd rfl hplace
  | _ => exact ⟨_, rfl, rfl⟩

/-- Where the automaton is behind a word. -/
structure Behind (type : DslTokenType) (place : Place) : Prop where
  finished : place = .finished ↔ type = .eof
  raw : place = .raw ↔ type = .bodyStmt
  body : type = .bodyRaw → place = .lineEnd .body

theorem next_behind {type : DslTokenType} (h : c.next type = some c') : Behind type c'.place := by
  unfold Config.next at h
  constructor
  . split at h
    all_goals grind [Config.want, Config.nextStatement, Config.goto, isMethodToken]
  . split at h
    all_goals grind [Config.want, Config.nextStatement, Config.goto, isMethodToken]
  . split at h
    all_goals grind [Config.want, Config.nextStatement, Config.goto, isMethodToken]

theorem behind_of_run {words : List Word} {w : Word}
    (h : run Config.readWord .start (words ++ [w]) = some c) : Behind w.1 c.place := by
  rw [run_append, Option.bind_eq_some_iff] at h
  obtain ⟨mid, _, hstep⟩ := h
  rw [run_cons, Option.bind_eq_some_iff] at hstep
  obtain ⟨c', hread, hc⟩ := hstep
  obtain rfl := Option.some.inj hc
  exact next_behind hread

-- A completion begins with a space, if it is not empty.
theorem head_completion (place : Place) : ∀ c ∈ place.completion.head?, c = 32 := by
  have hhead : place.completion.head? = none ∨ place.completion.head? = some 32 := by
    cases place with
    | lineEnd kind => cases kind <;> decide
    | _ => decide
  intro c hc
  cases hhead with
  | inl hnone =>
    rw [hnone] at hc
    cases hc
  | inr hsome =>
    rw [hsome, Option.mem_some_iff] at hc
    exact hc.symm

/-- What the automaton has read can be completed. -/
theorem viable_of_scans (hsource : 0 ∉ source) {words : List Word} {used : Bytes} {tape' : Tape}
    (hscans : Scans (dslCreateLexer source).tape words used tape')
    (hrun : run Config.readWord .start words = some c) : Viable words := by
  have hrest := hscans.rest_eq
  rw [dslCreateLexer_tape hsource] at hscans hrest
  have hused : 0 ∉ used := by
    intro hmem
    apply hsource
    rw [show source = used ++ tape'.rest from hrest]
    exact List.mem_append_left _ hmem
  have hplace : c.place ≠ .finished ∧ tape'.raw = decide (c.place = .raw) ∧
      (c.place.completion ≠ [] → ∀ w ∈ words.getLast?, w.1 ≠ .bodyRaw) := by
    cases hscans with
    | nil =>
      obtain rfl := Option.some.inj hrun
      exact ⟨by decide, rfl, by simp⟩
    | @snoc words _ _ mid h hfinal hused =>
      have hbehind := behind_of_run hrun
      refine ⟨?_, ?_, ?_⟩
      . intro hfinished
        have hinner := hfinal
        unfold Word.isFinal at hinner
        rw [hbehind.finished.mp hfinished] at hinner
        cases hinner
      . rw [next_raw]
        exact decide_eq_decide.mpr hbehind.raw.symm
      . intro hne w hw hraw
        rw [List.getLast?_concat, Option.mem_some_iff] at hw
        rw [← hw] at hraw
        rw [hbehind.body hraw] at hne
        exact hne rfl
  have hcompletion : 0 ∉ c.place.completion := by
    have htape := completing_tape c.place
    intro hmem
    have hrest' : c.place.completing.rest = c.place.completion := congrArg Tape.rest htape
    rw [← hrest'] at hmem
    exact DslLexer.zero_not_mem_rest _ hmem
  have hzero : 0 ∉ used ++ c.place.completion := by
    rw [List.mem_append, not_or]
    exact ⟨hused, hcompletion⟩
  have hreplaced := @Scans.replace _ _ words used c.place.completion hscans (by
    intro b hb
    refine .inr (.inr ⟨head_completion _ b hb, hplace.2.2 ?_⟩)
    intro hnil
    rw [hnil] at hb
    cases hb)
  dsimp only at hreplaced
  rw [← dslCreateLexer_tape hzero] at hreplaced
  obtain ⟨next, htape, hwords⟩ := hreplaced.words_eq
  rw [hplace.2.1, ← completing_tape] at htape
  rw [words_congr htape] at hwords
  refine ⟨used ++ c.place.completion, hzero, ?_, ?_⟩
  . rw [accepts_iff, hwords, run_append, hrun, Option.bind_some]
    exact run_completing hplace.1
  . rw [hwords]
    exact List.prefix_append _ _

/-- What the automaton cannot read, no accepted source has. -/
theorem not_viable_of_stops {words : List Word} (h : run Config.readWord .start words = none)
    : ¬ Viable words := by
  rintro ⟨source, _, haccepts, hwords⟩
  obtain ⟨c', hrun, _⟩ := accepts_iff.mp haccepts
  obtain ⟨c'', hrun'⟩ := run_of_prefix hwords hrun
  rw [h] at hrun'
  cases hrun'

end Completion

section Position

variable {source : Bytes} {t : DslToken}

theorem ascii_complaint_ne_nil (c : Config) (type : DslTokenType) : ascii (c.complaint type) ≠ [] := by
  unfold Config.complaint
  split
  . split
    . decide
    . split
      . decide
      . split
        . split <;> decide
        . decide
  all_goals decide

theorem error_text_ne_nil (hsource : 0 ∉ source) (ht : t ∈ dslLexerGetTokens (dslCreateLexer source))
    (herror : t.type = .error) : t.str.getD (ascii "lexer error") ≠ [] := by
  obtain ⟨spans, hspans⟩ := dslLexerGetTokens_lossless hsource
  obtain ⟨i, hi, rfl⟩ := List.getElem_of_mem ht
  obtain ⟨hlength, hat⟩ := List.forall₂_iff_get.mp hspans.tokens
  have hspelled := (hat i hi (hlength ▸ hi)).spelled
  simp only [List.get_eq_getElem] at hspelled
  unfold DslToken.Spelled at hspelled
  rw [herror] at hspelled
  rcases hspelled with ⟨hstr, _⟩ | ⟨c, hstr, _⟩
  . rw [hstr]
    decide
  . rw [hstr]
    simp

theorem report_message_ne_nil {message : String} (hmessage : ascii message ≠ [])
    (htext : t.type = .error → t.str.getD (ascii "lexer error") ≠ []) : (t.report message).message ≠ [] := by
  have hcut {text : Bytes} (h : text ≠ []) : text.take 255 ≠ [] := by
    rw [ne_eq, List.take_eq_nil_iff]
    simp [h]
  unfold DslToken.report
  split
  . next ht => exact hcut (htext ht)
  . exact hcut hmessage

/--
The error of a rejected source is at its first wrong token: the tokens before it begin some accepted
source, and with it they begin none. Its message is not empty, and no later error has replaced it.
-/
theorem dslParseRunPlan_error_position {source : Bytes} (hsource : 0 ∉ source)
    (hlimits : WithinLimits (dslLexerGetTokens (dslCreateLexer source))) {error : DslParseError}
    {plan : RunPlan} {error' : Option DslParseError}
    (hrejects : dslParseRunPlan source (some error) = some (.error, plan, error'))
    : ∃ before t after d,
        dslLexerGetTokens (dslCreateLexer source) = before ++ t :: after ∧
          Viable (before.map DslToken.word) ∧ ¬ Viable ((before ++ [t]).map DslToken.word) ∧
          error' = some d ∧ d.line = t.line ∧ d.column = t.column ∧ d.message ≠ [] ∧
          ∃ parser plan', parseProgram (dslParserCreate source (some error)) initRunPlan =
              some (parser, plan', false) ∧
            parser.error = error' ∧ (dslParserCreate source (some error)).Steady parser := by
  obtain ⟨result, plan', error₁, hres, _, hdiagnosed⟩ := dslParseRunPlan_diagnosed source (some error)
  rw [hrejects, Option.some.injEq, Prod.mk.injEq, Prod.mk.injEq] at hres
  obtain ⟨rfl, rfl, rfl⟩ := hres
  obtain ⟨before, t, after, d, hwrong, herror, parser, plan', hparse, hsame, hsteady⟩ := hdiagnosed rfl
  obtain ⟨c, hstops, hd⟩ := hwrong.stops
  have htokens := hwrong.tokens
  have hmem : t ∈ dslLexerGetTokens (dslCreateLexer source) := by
    rw [htokens]
    simp
  have hfull := not_full_of_withinLimits (htokens ▸ hlimits) hstops.reads hstops.stops
  rw [c.diagnose_eq] at hd
  unfold Config.blamed at hd
  rw [hfull, if_neg (by decide)] at hd
  have hviable : Viable (before.map DslToken.word) := by
    have hwords : (dslCreateLexer source).words =
        before.map DslToken.word ++ t.word :: after.map DslToken.word := by
      unfold DslLexer.words
      rw [htokens, List.map_append, List.map_cons]
    obtain ⟨used, tape', hscans⟩ := exists_scans hwords
    apply viable_of_scans hsource hscans
    rw [run_words]
    exact hstops.reads
  have hnot : ¬ Viable ((before ++ [t]).map DslToken.word) := by
    apply not_viable_of_stops
    rw [run_words]
    exact hstops.run_eq_none (List.prefix_refl _)
  have hmessage : (t.report (c.complaint t.type)).message ≠ [] :=
    report_message_ne_nil (ascii_complaint_ne_nil c t.type) (error_text_ne_nil hsource hmem)
  have hline : (t.report (c.complaint t.type)).line = t.line ∧
      (t.report (c.complaint t.type)).column = t.column := by
    unfold DslToken.report
    split <;> exact ⟨rfl, rfl⟩
  rw [← hd] at hmessage hline
  exact ⟨before, t, after, d, htokens, hviable, hnot, herror, hline.1, hline.2, hmessage, parser, plan',
    hparse, hsame, hsteady⟩

theorem dslParseRunPlan_error_position_get
    : ∃ before t after d,
        dslLexerGetTokens (dslCreateLexer (ascii "GET\nEXPECT")) = before ++ t :: after ∧
          Viable (before.map DslToken.word) ∧ ¬ Viable ((before ++ [t]).map DslToken.word) ∧
          some (DslParseError.write (ascii "expected URL after HTTP method") 1 4) = some d ∧
          d.line = t.line ∧ d.column = t.column ∧ d.message ≠ [] ∧
          ∃ parser plan', parseProgram (dslParserCreate (ascii "GET\nEXPECT") (some ⟨[], 0, 0⟩))
              initRunPlan = some (parser, plan', false) ∧
            parser.error = some (DslParseError.write (ascii "expected URL after HTTP method") 1 4) ∧
            (dslParserCreate (ascii "GET\nEXPECT") (some ⟨[], 0, 0⟩)).Steady parser := by
  have hlimits : WithinLimits (dslLexerGetTokens (dslCreateLexer (ascii "GET\nEXPECT"))) := by
    constructor
    . decide +kernel
    . decide +kernel
  have hrejects : dslParseRunPlan (ascii "GET\nEXPECT") (some ⟨[], 0, 0⟩) =
      some (.error, .zero, some (.write (ascii "expected URL after HTTP method") 1 4)) := by
    decide +kernel
  exact dslParseRunPlan_error_position (by decide) hlimits hrejects

end Position

end HttpRuntime
