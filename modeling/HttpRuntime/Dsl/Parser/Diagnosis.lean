import HttpRuntime.Dsl.Automaton
import HttpRuntime.Dsl.Parser.Reads

/-!
This module contains what the parser says about a program that it rejects: it follows the automaton,
and its error is about the token at which the automaton stops.
-/

open Lib Lib.Automaton

namespace HttpRuntime

namespace DslParser

/-- What the parsing functions do to a parser. -/
inductive Act where
  | advance
  | parserError (message : String)

def act (parser : DslParser) (a : Act) : DslParser :=
  match a with
  | .advance => parser.advance
  | .parserError message => parser.parserError message

/-- The parser is reached by actions that replace no error. -/
def Steady (start parser : DslParser) : Prop :=
  ∃ acts : List Act, acts.foldl act start = parser ∧
    ∀ done rest, acts = done ++ rest → (done.foldl act start).hadError = true →
      (done.foldl act start).error = parser.error

section Steady

variable {start parser : DslParser}

theorem hadError_act (a : Act) (h : parser.hadError = true) : (parser.act a).hadError = true := by
  cases a with
  | advance =>
    simp only [act]
    rw [advance_hadError]
    exact .inl h
  | parserError message =>
    simp only [act]
    unfold parserError
    rw [if_pos h]
    exact h

theorem hadError_foldl (acts : List Act) (h : parser.hadError = true)
    : (acts.foldl act parser).hadError = true := by
  induction acts generalizing parser with
  | nil => exact h
  | cons a acts ih => exact ih (hadError_act a h)

theorem Steady.refl : Steady parser parser := by
  refine ⟨[], rfl, ?_⟩
  intro done rest hacts _
  obtain ⟨rfl, rfl⟩ := List.nil_eq_append_iff.mp hacts
  rfl

-- One more action, when it does not touch an error.
theorem Steady.act (h : start.Steady parser) (a : Act)
    (hkeeps : parser.hadError = true → (parser.act a).error = parser.error)
    : start.Steady (parser.act a) := by
  obtain ⟨acts, rfl, herror⟩ := h
  refine ⟨acts ++ [a], by rw [List.foldl_append]; rfl, ?_⟩
  intro done rest hacts hhad
  rcases List.append_eq_append_iff.mp hacts with ⟨more, rfl, hmore⟩ | ⟨more, rfl, hmore⟩
  . cases more with
    | nil =>
      rw [List.append_nil] at hhad ⊢
      exact (hkeeps hhad).symm
    | cons b more =>
      obtain ⟨rfl, hnil⟩ := List.cons.inj hmore
      obtain ⟨rfl, _⟩ := List.nil_eq_append_iff.mp hnil
      rw [List.foldl_append]
      rfl
  . rw [herror done more rfl hhad]
    have hlast := hadError_foldl more hhad
    rw [← List.foldl_append] at hlast
    exact (hkeeps hlast).symm

theorem Steady.advance (h : start.Steady parser) (hnoError : parser.hadError = false)
    : start.Steady parser.advance := by
  apply h.act .advance
  intro hhad
  rw [hnoError] at hhad
  cases hhad

theorem Steady.parserError (h : start.Steady parser) (message : String)
    : start.Steady (parser.parserError message) := by
  apply h.act (.parserError message)
  intro hhad
  simp only [DslParser.act]
  unfold DslParser.parserError
  rw [if_pos hhad]

end Steady

end DslParser

open DslParser

theorem map_const_congr {α β : Type} {x y : Option α} (h : x.isSome = y.isSome) (b : β)
    : x.map (fun _ => b) = y.map (fun _ => b) := by
  cases x <;> cases y <;> first | rfl | cases h

section Tracks

variable (error : Option DslParseError) (start : DslParser) (all : List DslToken)

-- What the lexer says about its last token.
def DslToken.lexerError (t : DslToken) : DslParseError :=
  .write (t.str.getD (ascii "lexer error")) t.line t.column

/-- The parser is in front of `ts`, and its error is what the lexer says, if there is one. -/
structure Ready (parser : DslParser) (ts : List DslToken) : Prop where
  reads : parser.Reads ts
  steady : start.Steady parser
  asks : parser.error.isSome = error.isSome
  lexed : parser.hadError = true → ∀ t ∈ ts.head?, parser.error = error.map (fun _ => t.lexerError)

/-- The parser is where the automaton is. -/
structure Tracks (parser : DslParser) (c : Config) (ts : List DslToken) : Prop
    extends Ready error start parser ts where
  automaton : ∃ before, all = before ++ ts ∧ run Config.read .start before = some c

/-- The parser has found the first wrong token, and has said so. -/
structure Blames (parser : DslParser) : Prop where
  hadError : parser.hadError = true
  steady : start.Steady parser
  automaton : ∃ before t after c, all = before ++ t :: after ∧
    StopsAt Config.read .start before t c ∧ parser.error = error.map (fun _ => c.diagnose t after)

variable {error start all} {parser : DslParser} {c c' : Config} {t : DslToken} {ts : List DslToken}

theorem Ready.noError (h : Ready error start parser (t :: ts)) (ht : t.type ≠ .error)
    : parser.hadError = false := by
  rw [Bool.eq_false_iff, ne_eq, h.reads.hadError]
  rintro ⟨t', ht', herror⟩
  rw [List.head?_cons, Option.mem_some_iff] at ht'
  exact ht (ht' ▸ herror)

theorem Ready.lexerError (h : Ready error start parser (t :: ts)) (ht : t.type = .error)
    : parser.hadError = true ∧ parser.error = error.map (fun _ => t.lexerError) := by
  have hhad := h.reads.hadError.mpr ⟨t, rfl, ht⟩
  exact ⟨hhad, h.lexed hhad t rfl⟩

theorem advance_error (parser : DslParser)
    : parser.advance.error =
        if (dslLexerNextToken parser.lexer).1.type = .error then
          parser.error.map (fun _ => (dslLexerNextToken parser.lexer).1.lexerError)
        else
          parser.error := by
  unfold DslParser.advance
  dsimp only
  split <;> rfl

theorem Ready.advance (h : Ready error start parser (t :: ts)) (hinner : Inner t.type)
    : Ready error start parser.advance ts := by
  have hreads := (h.reads.advance (isFinal_of_inner hinner)).1
  refine ⟨hreads, h.steady.advance (h.noError hinner.2), ?_, ?_⟩
  . rw [advance_error]
    split
    . rw [Option.isSome_map, h.asks]
    . exact h.asks
  . intro hhad u hu
    obtain ⟨v, hv, htype⟩ := hreads.hadError.mp hhad
    obtain rfl := Option.mem_unique hu hv
    have hcurrent : some u = some (dslLexerNextToken parser.lexer).1 := by
      rw [← advance_current]
      cases ts with
      | nil => cases hu
      | cons u' ts =>
        rw [List.head?_cons, Option.mem_some_iff] at hu
        rw [← hu]
        exact hreads.current.symm
    rw [Option.some.injEq] at hcurrent
    rw [advance_error, ← hcurrent, if_pos htype]
    exact map_const_congr h.asks _

theorem Tracks.advance (h : Tracks error start all parser c (t :: ts)) (hinner : Inner t.type)
    (hnext : c.next t.type = some c') : Tracks error start all parser.advance c' ts := by
  obtain ⟨before, hall, hrun⟩ := h.automaton
  refine ⟨h.toReady.advance hinner, before ++ [t], ?_, ?_⟩
  . rw [hall, List.append_assoc]
    rfl
  . rw [run_concat hrun]
    exact hnext

theorem hadError_parserError (parser : DslParser) (message : String)
    : (parser.parserError message).hadError = true := by
  unfold DslParser.parserError
  split
  . next h => exact h
  . rfl

-- The error about the next token. What the lexer says comes first.
def DslToken.report (t : DslToken) (message : String) : DslParseError :=
  if t.type = .error then t.lexerError else .write (ascii message) t.line t.column

theorem Ready.parserError (h : Ready error start parser (t :: ts)) (message : String)
    : (parser.parserError message).error = error.map (fun _ => t.report message) := by
  unfold DslToken.report
  by_cases ht : t.type = .error
  . obtain ⟨hhad, herror⟩ := h.lexerError ht
    unfold DslParser.parserError
    rw [if_pos hhad, if_pos ht]
    exact herror
  . have hnoError := h.noError ht
    unfold DslParser.parserError
    rw [if_neg (by rw [hnoError]; decide), if_neg ht, h.reads.current]
    exact map_const_congr h.asks _

theorem Config.diagnose_eq (c : Config) (t : DslToken) (after : List DslToken)
    : c.diagnose t after = (c.blamed t after).report (c.complaint t.type) := by
  unfold Config.diagnose DslToken.report DslToken.lexerError
  dsimp only
  split <;> rfl

theorem Tracks.blames (h : Tracks error start all parser c (t :: ts)) {message : String}
    (hstop : c.next t.type = none) (hfull : c.full t.type = false)
    (hmessage : c.complaint t.type = message)
    : Blames error start all (parser.parserError message) := by
  obtain ⟨before, hall, hrun⟩ := h.automaton
  refine ⟨hadError_parserError _ _, h.steady.parserError message, before, t, ts, c, hall, ⟨hrun, hstop⟩, ?_⟩
  rw [h.toReady.parserError message, c.diagnose_eq, hmessage]
  unfold Config.blamed
  rw [hfull, if_neg (by decide)]

/-- A parsing function goes on with a good result, or it blames the first wrong token. -/
def Diagnosed {γ : Type} (error : Option DslParseError) (start : DslParser) (all : List DslToken)
    (Good : DslParser → γ → Prop) (res : Option (DslParser × γ × Bool)) : Prop :=
  ∃ parser g ok, res = some (parser, g, ok) ∧ (ok = true → Good parser g) ∧
    (ok = false → Blames error start all parser)

section Diagnosed

variable {γ : Type} {Good : DslParser → γ → Prop} {g : γ}

theorem Diagnosed.good (h : Good parser g) : Diagnosed error start all Good (some (parser, g, true)) :=
  ⟨parser, g, true, rfl, fun _ => h, fun hok => absurd hok (by decide)⟩

theorem Diagnosed.bad (h : Blames error start all parser)
    : Diagnosed error start all Good (some (parser, g, false)) :=
  ⟨parser, g, false, rfl, fun hok => absurd hok (by decide), fun _ => h⟩

/-- The next token is the one that the automaton wants, or it stops there. -/
structure Wants (c : Config) (t : DslToken) (type : DslTokenType) (message : String) (c' : Config)
    : Prop where
  next : c.next t.type = if t.type = type then some c' else none
  full : t.type ≠ type → c.full t.type = false
  complaint : t.type ≠ type → c.complaint t.type = message

/-- Consuming a token is a step of the automaton. -/
def Consumed (error : Option DslParseError) (start : DslParser) (all : List DslToken) (c' : Config)
    (res : DslParser × Bool) : Prop :=
  (res.2 = true ∧ ∃ u us str, Tracks error start all res.1 c' (u :: us) ∧ res.1.previousStr = some str) ∨
    (res.2 = false ∧ Blames error start all res.1)

theorem Tracks.consume {type : DslTokenType} {message : String}
    (h : Tracks error start all parser c (t :: ts)) (hinner : Inner type)
    (hwants : Wants c t type message c')
    : Consumed error start all c' (parser.consume type message) := by
  have hnext := hwants.next
  by_cases ht : t.type = type
  . rw [if_pos ht] at hnext
    have htracks := h.advance (ht ▸ hinner) hnext
    obtain ⟨u, us, rfl⟩ := htracks.reads.exists_cons
    obtain ⟨str, _, _, _, hprevious⟩ := h.reads.previousStr (ht ▸ hinner)
    rw [h.reads.consume_eq message ht]
    exact .inl ⟨rfl, u, us, str, htracks, hprevious⟩
  . rw [if_neg ht] at hnext
    rw [h.reads.consume_ne message ht]
    exact .inr ⟨rfl, h.blames hnext (hwants.full ht) (hwants.complaint ht)⟩

theorem Diagnosed.consume {res : DslParser × Bool} {rest : Option (DslParser × γ × Bool)}
    (hres : Consumed error start all c' res)
    (hrest : ∀ u us str, Tracks error start all res.1 c' (u :: us) → res.1.previousStr = some str →
      Diagnosed error start all Good rest)
    : Diagnosed error start all Good (if !res.2 then some (res.1, g, false) else rest) := by
  rcases hres with ⟨hok, u, us, str, htracks, hprevious⟩ | ⟨hfail, hblames⟩
  . rw [hok, if_neg (by decide)]
    exact hrest u us str htracks hprevious
  . rw [hfail, if_pos (by decide)]
    exact .bad hblames

end Diagnosed

section Assertions

variable {requestCase : RequestCase}

/-- The expectation is read, and the case has got its assertion. -/
structure Asserting (error : Option DslParseError) (start : DslParser) (all : List DslToken) (c : Config)
    (requestCase : RequestCase) (parser : DslParser) (res : RequestCase) : Prop where
  tracks : ∃ t ts, Tracks error start all parser (c.goto (.lineEnd .expect)) (t :: ts)
  count : res.assertions.length = requestCase.assertions.length + 1

theorem Asserting.diagnosed (h : Tracks error start all parser (c.goto (.lineEnd .expect)) (t :: ts))
    (hroom : requestCase.assertions.length < maxCaseAssertions) (as : Assertion)
    : Diagnosed error start all (Asserting error start all c requestCase) (do
        let requestCase ← requestCase.addAssertion as
        some (parser, requestCase, true)) := by
  unfold RequestCase.addAssertion
  rw [if_pos hroom, Option.bind_eq_bind, Option.bind_some]
  exact .good ⟨⟨t, ts, h⟩, List.length_append⟩

-- A place that wants one kind of token.
theorem wants_place {type : DslTokenType} {place : Place} {message : String}
    (hnext : c.next t.type = c.want t.type type place) (hplace : c.place ≠ .line)
    (hcomplaint : c.complaint t.type = message) : Wants c t type message (c.goto place) where
  next := hnext
  full := fun _ => by simp [Config.full, hplace]
  complaint := fun _ => hcomplaint

-- A token that is looked at before it is consumed.
theorem wants_of_type {type : DslTokenType} {message : String} (hnext : c.next t.type = some c')
    (ht : t.type = type) : Wants c t type message c' where
  next := by rw [if_pos ht, hnext]
  full := fun hne => absurd ht hne
  complaint := fun hne => absurd ht hne

theorem parseStatusAssertion_diagnosed (h : Tracks error start all parser c (t :: ts))
    (hplace : c.place = .assertion) (ht : t.type = .status)
    (hroom : requestCase.assertions.length < maxCaseAssertions)
    : Diagnosed error start all (Asserting error start all c requestCase)
        (parseStatusAssertion parser requestCase) := by
  have hnext : c.next t.type = some (c.goto .code) := by
    unfold Config.next
    rw [hplace, ht]
    rfl
  unfold parseStatusAssertion
  rw [if_neg (by omega)]
  dsimp only
  apply Diagnosed.consume
  . exact h.consume (by decide) (wants_of_type hnext ht)
  intro u us _ hcode _
  apply Diagnosed.consume
  . exact hcode.consume (by decide) (wants_place rfl (by intro h; cases h) rfl)
  intro v vs str hend hprevious
  rw [Config.goto_goto] at hend
  rw [hprevious, Option.bind_eq_bind, Option.bind_some]
  exact Asserting.diagnosed hend hroom _

theorem parseBodyAssertion_diagnosed (h : Tracks error start all parser c (t :: ts))
    (hplace : c.place = .assertion) (ht : t.type = .body)
    (hroom : requestCase.assertions.length < maxCaseAssertions)
    : Diagnosed error start all (Asserting error start all c requestCase)
        (parseBodyAssertion parser requestCase) := by
  have hnext : c.next t.type = some (c.goto .contains) := by
    unfold Config.next
    rw [hplace, ht]
    rfl
  unfold parseBodyAssertion
  rw [if_neg (by omega)]
  dsimp only
  apply Diagnosed.consume
  . exact h.consume (by decide) (wants_of_type hnext ht)
  intro u us _ hcontains _
  apply Diagnosed.consume
  . exact hcontains.consume (by decide) (wants_place rfl (by intro h; cases h) rfl)
  intro v vs _ htext _
  apply Diagnosed.consume
  . exact htext.consume (by decide) (wants_place rfl (by intro h; cases h) rfl)
  intro w ws str hend hprevious
  rw [Config.goto_goto, Config.goto_goto] at hend
  rw [hprevious, Option.bind_eq_bind, Option.bind_some]
  exact Asserting.diagnosed hend hroom _

theorem parseHeaderAssertion_diagnosed (h : Tracks error start all parser c (t :: ts))
    (hplace : c.place = .assertion) (ht : t.type = .header)
    (hroom : requestCase.assertions.length < maxCaseAssertions)
    : Diagnosed error start all (Asserting error start all c requestCase)
        (parseHeaderAssertion parser requestCase) := by
  have hnext : c.next t.type = some (c.goto .name) := by
    unfold Config.next
    rw [hplace, ht]
    rfl
  unfold parseHeaderAssertion
  rw [if_neg (by omega)]
  dsimp only
  apply Diagnosed.consume
  . exact h.consume (by decide) (wants_of_type hnext ht)
  intro u us _ hname _
  apply Diagnosed.consume
  . exact hname.consume (by decide) (wants_place rfl (by intro h; cases h) rfl)
  intro v vs name hvalue hprevious
  rw [hprevious, Option.bind_eq_bind, Option.bind_some]
  generalize ((parser.consume .header "expected 'header'").1.consume .ident
    "expected header name after 'header'").1 = parser' at hvalue ⊢
  rw [hvalue.reads.check, hvalue.reads.check, hvalue.reads.check]
  have hnext' : ((c.goto .name).goto .value).next v.type =
      if (v.type = .ident || v.type = .string || v.type = .int) then
        some (c.goto (.lineEnd .expect))
      else none := rfl
  by_cases hv : (v.type = .ident || v.type = .string || v.type = .int) = true
  . rw [if_pos hv] at hnext'
    have hinner : Inner v.type := by
      revert hv
      cases v.type <;> decide
    have hend := hvalue.advance hinner hnext'
    obtain ⟨w, ws, rfl⟩ := hend.reads.exists_cons
    obtain ⟨value, _, _, _, hprevious'⟩ := hvalue.reads.previousStr hinner
    rw [if_neg (by rw [hv]; decide), hprevious', Option.bind_some]
    exact Asserting.diagnosed hend hroom _
  . rw [if_neg hv] at hnext'
    rw [if_pos (by rw [Bool.eq_false_iff.mpr hv]; decide)]
    exact .bad (hvalue.blames hnext' rfl rfl)

theorem parseAssertion_diagnosed (h : Tracks error start all parser c (t :: ts))
    (hplace : c.place = .assertion) (hroom : requestCase.assertions.length < maxCaseAssertions)
    : Diagnosed error start all (Asserting error start all c requestCase)
        (parseAssertion parser requestCase) := by
  unfold parseAssertion
  rw [h.reads.check, h.reads.check, h.reads.check]
  simp only [decide_eq_true_eq]
  split
  . next ht => exact parseStatusAssertion_diagnosed h hplace ht hroom
  . next hstatus =>
    split
    . next ht => exact parseBodyAssertion_diagnosed h hplace ht hroom
    . next hbody =>
      split
      . next ht => exact parseHeaderAssertion_diagnosed h hplace ht hroom
      . next hheader =>
        have hstop : c.next t.type = none := by
          unfold Config.next
          rw [hplace]
          dsimp only
          rw [if_neg hstatus, if_neg hbody, if_neg hheader]
        have hfull : c.full t.type = false := by simp [Config.full, hplace]
        apply Diagnosed.bad
        apply h.blames hstop hfull
        unfold Config.complaint
        rw [hplace]

end Assertions

section Statements

variable {plan : RunPlan} {kind : StatementKind}

/-- The counters are those of the plan. -/
structure Counts (plan : RunPlan) (c : Config) : Prop where
  cases : plan.cases.length = c.cases
  assertions : ∀ requestCase ∈ plan.cases.getLast?, requestCase.assertions.length = c.assertions

/-- A line begins, or the last line ends with the source. -/
def AtLine (error : Option DslParseError) (start : DslParser) (all : List DslToken) (parser : DslParser)
    (plan : RunPlan) : Prop :=
  ∃ c t ts, Tracks error start all parser c (t :: ts) ∧ Counts plan c ∧
    (c.place = .line ∨ ∃ kind, c.place = .lineEnd kind ∧ t.type = .eof)

theorem finishStatement_diagnosed {message : String}
    (h : Tracks error start all parser (c.goto (.lineEnd kind)) (t :: ts)) (hcounts : Counts plan c)
    (hmessage : (c.goto (.lineEnd kind)).complaint t.type = message)
    : Diagnosed error start all (AtLine error start all) (finishStatement parser plan message) := by
  unfold finishStatement
  rw [h.reads.check, h.reads.check]
  simp only [decide_eq_true_eq]
  split
  . next ht =>
    have hnext : (c.goto (.lineEnd kind)).next t.type = some (c.goto .line) := by rw [ht]; rfl
    have hline := h.advance (by rw [ht]; decide) hnext
    obtain ⟨u, us, rfl⟩ := hline.reads.exists_cons
    exact .good ⟨c.goto .line, u, us, hline, ⟨hcounts.cases, hcounts.assertions⟩, .inl rfl⟩
  . next hnewline =>
    split
    . next ht =>
      exact .good ⟨_, t, ts, h, ⟨hcounts.cases, hcounts.assertions⟩, .inr ⟨kind, rfl, ht⟩⟩
    . next heof =>
      have hstop : (c.goto (.lineEnd kind)).next t.type = none := by
        unfold Config.next Config.goto
        dsimp only
        rw [if_neg hnewline, if_neg heof]
      exact .bad (h.blames hstop rfl hmessage)

theorem nextStatement_eq (hplace : c.place = .line) (hnewline : t.type ≠ .newline) (heof : t.type ≠ .eof)
    : c.next t.type = c.nextStatement t.type := by
  unfold Config.next
  rw [hplace]
  dsimp only
  rw [if_neg hnewline, if_neg heof]

theorem Counts.setLastCase {requestCase requestCase' : RequestCase} {assertions : Nat}
    (h : Counts plan c) (hlast : plan.cases.getLast? = some requestCase)
    (hassertions : requestCase'.assertions.length = assertions) (place : Place)
    : Counts (plan.setLastCase requestCase') ⟨place, c.cases, assertions⟩ := by
  have hne : plan.cases ≠ [] := by
    intro hnil
    rw [hnil] at hlast
    cases hlast
  unfold RunPlan.setLastCase
  constructor
  . have hpos := List.length_pos_of_ne_nil hne
    have hcases := h.cases
    simp only [List.length_append, List.length_dropLast, List.length_singleton]
    omega
  . intro last hmem
    rw [List.getLast?_concat, Option.mem_some_iff] at hmem
    rw [← hmem]
    exact hassertions

theorem Counts.cases_pos (h : Counts plan c) {requestCase : RequestCase}
    (hlast : plan.cases.getLast? = some requestCase) : c.cases ≠ 0 := by
  rw [← h.cases, ne_eq, List.length_eq_zero_iff]
  intro hnil
  rw [hnil] at hlast
  cases hlast

theorem Counts.cases_eq_zero (h : Counts plan c) (hlast : plan.cases.getLast? = none) : c.cases = 0 := by
  rw [← h.cases, List.length_eq_zero_iff]
  exact List.getLast?_eq_none_iff.mp hlast

theorem parseBodyStmt_diagnosed (h : Tracks error start all parser c (t :: ts))
    (hplace : c.place = .line) (hcounts : Counts plan c) (ht : t.type = .bodyStmt)
    : Diagnosed error start all (AtLine error start all) (parseBodyStmt parser plan) := by
  have hnext := nextStatement_eq (t := t) hplace (by rw [ht]; decide) (by rw [ht]; decide)
  rw [ht] at hnext
  unfold parseBodyStmt
  cases hlast : plan.cases.getLast? with
  | none =>
    apply Diagnosed.bad
    apply h.blames
    . rw [ht, hnext]
      unfold Config.nextStatement
      rw [if_neg (by decide), if_pos rfl, if_pos (hcounts.cases_eq_zero hlast)]
    . rw [ht]
      simp [Config.full]
    . unfold Config.complaint
      rw [hplace, ht]
      rfl
  | some requestCase =>
    dsimp only
    have hraw : c.next t.type = some (c.goto .raw) := by
      rw [ht, hnext]
      unfold Config.nextStatement
      rw [if_neg (by decide), if_pos rfl, if_neg (hcounts.cases_pos hlast)]
    apply Diagnosed.consume
    . exact h.consume (by decide) (wants_of_type hraw ht)
    intro u us _ hbody _
    apply Diagnosed.consume
    . exact hbody.consume (by decide) (wants_place rfl (by intro h; cases h) rfl)
    intro v vs str hend hprevious
    rw [Config.goto_goto] at hend
    rw [hprevious, Option.bind_eq_bind, Option.bind_some]
    apply finishStatement_diagnosed hend _ rfl
    refine hcounts.setLastCase hlast ?_ c.place
    exact hcounts.assertions requestCase hlast

theorem parseRequestStmt_diagnosed (h : Tracks error start all parser c (t :: ts))
    (hplace : c.place = .line) (hcounts : Counts plan c) (ht : isMethodToken t.type = true)
    : Diagnosed error start all (AtLine error start all) (parseRequestStmt parser plan) := by
  have hfinal := isFinal_of_isMethodToken ht
  have hinner : Inner t.type := by
    revert ht
    cases t.type <;> decide
  have hnewline : t.type ≠ .newline := by
    intro heq
    rw [heq] at ht
    cases ht
  have hnext := nextStatement_eq (t := t) hplace hnewline hinner.1
  unfold Config.nextStatement at hnext
  rw [if_pos ht] at hnext
  have hcases := hcounts.cases
  unfold parseRequestStmt
  by_cases hroom : c.cases < maxRequestCases
  . rw [if_pos hroom] at hnext
    have hurl := h.advance hinner hnext
    obtain ⟨u, us, rfl⟩ := hurl.reads.exists_cons
    rw [if_neg (by omega), h.reads.current, Option.map_some]
    dsimp only
    rw [if_neg (by simp [ht])]
    apply Diagnosed.consume
    . exact hurl.consume (by decide) (wants_place rfl (by intro h; cases h) rfl)
    intro v vs str hend hprevious
    rw [hprevious, Option.bind_eq_bind, Option.bind_some]
    unfold RunPlan.addCase
    rw [if_pos (by omega), Option.bind_eq_bind, Option.bind_some]
    apply finishStatement_diagnosed hend _ rfl
    constructor
    . rw [List.length_append, hcases]
      rfl
    . intro last hmem
      rw [List.getLast?_concat, Option.mem_some_iff] at hmem
      rw [← hmem]
      rfl
  . rw [if_neg hroom] at hnext
    rw [if_pos (by omega)]
    apply Diagnosed.bad
    apply h.blames hnext
    . revert ht
      cases htype : t.type <;> simp [Config.full, isMethodToken]
    . unfold Config.complaint
      rw [hplace]
      dsimp only
      rw [if_pos ht]

-- An expectation for which there is no room is noticed one token late.
theorem Tracks.blames_full (h : Tracks error start all parser c (t :: ts)) {message : String}
    (hinner : Inner t.type) (hstop : c.next t.type = none) (hfull : c.full t.type = true)
    (hmessage : c.complaint t.type = message)
    : Blames error start all (parser.advance.parserError message) := by
  have hadvance := h.toReady.advance hinner
  obtain ⟨u, us, rfl⟩ := hadvance.reads.exists_cons
  obtain ⟨before, hall, hrun⟩ := h.automaton
  refine ⟨hadError_parserError _ _, hadvance.steady.parserError message, before, t, u :: us, c, hall,
    ⟨hrun, hstop⟩, ?_⟩
  rw [hadvance.parserError message, c.diagnose_eq, hmessage]
  unfold Config.blamed
  rw [if_pos hfull, List.headD_cons]

theorem parseExpectStmt_diagnosed (h : Tracks error start all parser c (t :: ts))
    (hplace : c.place = .line) (hcounts : Counts plan c) (ht : t.type = .expect)
    : Diagnosed error start all (AtLine error start all) (parseExpectStmt parser plan) := by
  have hnext := nextStatement_eq (t := t) hplace (by rw [ht]; decide) (by rw [ht]; decide)
  rw [ht] at hnext
  unfold Config.nextStatement at hnext
  rw [if_neg (by decide), if_neg (by decide), if_pos rfl] at hnext
  have hcomplaint : c.complaint t.type =
      if c.cases = 0 then "EXPECT statement must come after a request statement"
      else "too many assertions for request case" := by
    unfold Config.complaint
    rw [hplace, ht]
    rfl
  unfold parseExpectStmt
  cases hlast : plan.cases.getLast? with
  | none =>
    have hzero := hcounts.cases_eq_zero hlast
    rw [if_pos (.inl hzero)] at hnext
    rw [if_pos hzero] at hcomplaint
    apply Diagnosed.bad
    apply h.blames (ht ▸ hnext) _ hcomplaint
    simp [Config.full, hzero]
  | some requestCase =>
    have hpos := hcounts.cases_pos hlast
    have hlength := hcounts.assertions _ hlast
    rw [if_neg hpos] at hcomplaint
    dsimp only
    by_cases hroom : requestCase.assertions.length < maxCaseAssertions
    . rw [if_neg (by omega), ← ht] at hnext
      apply Diagnosed.consume
      . exact h.consume (by decide) (wants_of_type hnext ht)
      intro u us _ hassertion _
      rw [if_neg (by omega)]
      obtain ⟨parser', requestCase', ok, hres, hgood, hbad⟩ :=
        parseAssertion_diagnosed hassertion rfl hroom
      rw [hres, Option.bind_eq_bind, Option.bind_some]
      cases ok with
      | false => exact .bad (hbad rfl)
      | true =>
        obtain ⟨⟨v, vs, hend⟩, hcount⟩ := hgood rfl
        rw [if_neg (by simp)]
        apply finishStatement_diagnosed hend _ rfl
        exact hcounts.setLastCase hlast (hlength ▸ hcount) _
    . rw [if_pos (.inr (by omega)), ← ht] at hnext
      rw [h.reads.consume_eq _ ht]
      dsimp only
      rw [if_neg (by decide), if_pos (by omega)]
      apply Diagnosed.bad
      apply h.blames_full (by rw [ht]; decide) hnext _ hcomplaint
      simp [Config.full, hplace, ht, hpos]

theorem parseStatement_diagnosed (h : Tracks error start all parser c (t :: ts))
    (hplace : c.place = .line) (hcounts : Counts plan c) (heof : t.type ≠ .eof)
    : Diagnosed error start all (AtLine error start all) (parseStatement parser plan) := by
  unfold parseStatement
  rw [h.reads.check, h.reads.check, h.reads.check, h.reads.check, h.reads.check, h.reads.check,
    h.reads.check, h.reads.check]
  simp only [decide_eq_true_eq]
  split
  . next hnewline =>
    have hnext : c.next t.type = some c := by
      unfold Config.next
      rw [hplace]
      dsimp only
      rw [if_pos hnewline]
    have hline := h.advance (by rw [hnewline]; decide) hnext
    obtain ⟨u, us, rfl⟩ := hline.reads.exists_cons
    exact .good ⟨c, u, us, hline, hcounts, .inl hplace⟩
  . next hnewline =>
    split
    . next hmethod => exact parseRequestStmt_diagnosed h hplace hcounts hmethod
    . next hmethod =>
      split
      . next ht => exact parseBodyStmt_diagnosed h hplace hcounts ht
      . next hbody =>
        split
        . next ht => exact parseExpectStmt_diagnosed h hplace hcounts ht
        . next hexpect =>
          have hmethod' : ¬ isMethodToken t.type = true := hmethod
          apply Diagnosed.bad
          apply h.blames
          . rw [nextStatement_eq hplace hnewline heof]
            unfold Config.nextStatement
            rw [if_neg hmethod', if_neg hbody, if_neg hexpect]
          . simp [Config.full, hexpect]
          . unfold Config.complaint
            rw [hplace]
            dsimp only
            rw [if_neg hmethod', if_neg hbody, if_neg hexpect]

theorem AtLine.statement (h : AtLine error start all parser plan) (heof : ¬ parser.check .eof = true)
    : Diagnosed error start all (AtLine error start all) (parseStatement parser plan) := by
  obtain ⟨c, t, ts, htracks, hcounts, hplace⟩ := h
  rw [htracks.reads.check, decide_eq_true_eq] at heof
  rcases hplace with hplace | ⟨kind, _, ht⟩
  . exact parseStatement_diagnosed htracks hplace hcounts heof
  . exact absurd ht heof

/-- The whole token list is read, up to its `EOF`. -/
structure Finishes (error : Option DslParseError) (start : DslParser) (all : List DslToken)
    (parser : DslParser) (plan : RunPlan) : Prop where
  noError : parser.hadError = false
  automaton : ∃ c, run Config.read .start all = some c ∧ c.place = .finished

/-- The loop of the parser follows the automaton. -/
theorem parseProgram_diagnosed (h : AtLine error start all parser plan)
    : Diagnosed error start all (Finishes error start all) (parseProgram parser plan) := by
  fun_induction parseProgram parser plan with
  | case1 parser plan heof =>
    obtain ⟨c, t, ts, htracks, _, hplace⟩ := h
    rw [htracks.reads.check, decide_eq_true_eq] at heof
    have hnoError := htracks.toReady.noError (by rw [heof]; decide)
    obtain rfl := htracks.reads.final (by simp [DslToken.isFinal, heof])
    obtain ⟨before, hall, hrun⟩ := htracks.automaton
    have hnext : c.next t.type = some (c.goto .finished) := by
      rw [heof]
      unfold Config.next
      rcases hplace with hplace | ⟨kind, hplace, _⟩ <;> rw [hplace] <;> rfl
    rw [hnoError]
    refine .good ⟨hnoError, c.goto .finished, ?_, rfl⟩
    rw [hall, run_concat hrun]
    exact hnext
  | case2 parser plan heof hhad =>
    obtain ⟨c, t, ts, htracks, _, hplace⟩ := h
    have ht : t.type = .error := by
      obtain ⟨u, hu, htype⟩ := htracks.reads.hadError.mp hhad
      rw [List.head?_cons, Option.mem_some_iff] at hu
      exact hu ▸ htype
    obtain ⟨_, herror⟩ := htracks.toReady.lexerError ht
    obtain ⟨before, hall, hrun⟩ := htracks.automaton
    have hstop : c.next t.type = none := by
      rw [ht]
      unfold Config.next
      rcases hplace with hplace | ⟨kind, hplace, _⟩ <;> rw [hplace] <;> rfl
    have hfull : c.full t.type = false := by simp [Config.full, ht]
    apply Diagnosed.bad
    refine ⟨hhad, htracks.steady, before, t, ts, c, hall, ⟨hrun, hstop⟩, ?_⟩
    rw [herror, c.diagnose_eq]
    unfold Config.blamed
    rw [hfull, if_neg (by decide)]
    unfold DslToken.report
    rw [if_pos ht]
  | case3 parser plan heof hhad hnone =>
    obtain ⟨_, _, _, hres, _⟩ := h.statement heof
    rw [hnone] at hres
    cases hres
  | case4 parser plan heof hhad parser' plan' hsome =>
    obtain ⟨_, _, _, hres, _, hbad⟩ := h.statement heof
    rw [hsome, Option.some.injEq, Prod.mk.injEq, Prod.mk.injEq] at hres
    obtain ⟨rfl, rfl, rfl⟩ := hres
    exact .bad (hbad rfl)
  | case5 parser plan heof hhad parser' plan' hsome ih =>
    obtain ⟨_, _, _, hres, hgood, _⟩ := h.statement heof
    rw [hsome, Option.some.injEq, Prod.mk.injEq, Prod.mk.injEq] at hres
    obtain ⟨rfl, rfl, rfl⟩ := hres
    exact ih (hgood rfl)

end Statements

end Tracks

theorem dslParserCreate_tracks (source : Bytes) (error : Option DslParseError)
    : Tracks error (dslParserCreate source error) (dslLexerGetTokens (dslCreateLexer source))
        (dslParserCreate source error) .start (dslLexerGetTokens (dslCreateLexer source)) := by
  have hreads := dslParserCreate_reads source error
  refine ⟨⟨hreads, .refl, ?_, ?_⟩, [], rfl, rfl⟩
  . unfold dslParserCreate
    rw [advance_error]
    split <;> simp
  . intro hhad t ht
    obtain ⟨u, hu, htype⟩ := hreads.hadError.mp hhad
    obtain rfl := Option.mem_unique ht hu
    rw [dslLexerGetTokens_eq, List.head?_cons, Option.mem_some_iff] at ht
    unfold dslParserCreate
    rw [advance_error]
    dsimp only
    rw [ht, if_pos htype, Option.map_map]
    rfl

theorem dslParserCreate_atLine (source : Bytes) (error : Option DslParseError)
    : AtLine error (dslParserCreate source error) (dslLexerGetTokens (dslCreateLexer source))
        (dslParserCreate source error) initRunPlan := by
  have htracks := dslParserCreate_tracks source error
  obtain ⟨t, ts, htokens⟩ := htracks.reads.exists_cons
  refine ⟨.start, t, ts, htokens ▸ htracks, ⟨rfl, ?_⟩, .inl rfl⟩
  intro requestCase hlast
  cases hlast

/-- The first wrong token of a token list, and the error that is made of it. -/
structure FirstWrong (tokens before : List DslToken) (t : DslToken) (after : List DslToken)
    (error : DslParseError) : Prop where
  tokens : tokens = before ++ t :: after
  stops : ∃ c, StopsAt Config.read .start before t c ∧ error = c.diagnose t after

/--
A source is accepted if the automaton reads its tokens to the end. Otherwise the error is that of the
token at which the automaton stops, and no later error has replaced it.
-/
theorem dslParseRunPlan_diagnosed (source : Bytes) (error : Option DslParseError)
    : ∃ result plan error', dslParseRunPlan source error = some (result, plan, error') ∧
        (result = .ok →
          ∃ c, run Config.read .start (dslLexerGetTokens (dslCreateLexer source)) = some c ∧
            c.place = .finished) ∧
        (result = .error → ∃ before t after d,
          FirstWrong (dslLexerGetTokens (dslCreateLexer source)) before t after d ∧
            error' = error.map (fun _ => d) ∧
            ∃ parser plan, parseProgram (dslParserCreate source error) initRunPlan =
                some (parser, plan, false) ∧
              parser.error = error' ∧ (dslParserCreate source error).Steady parser) := by
  obtain ⟨parser, plan, ok, hres, hgood, hbad⟩ :=
    parseProgram_diagnosed (dslParserCreate_atLine source error)
  unfold dslParseRunPlan
  rw [hres]
  dsimp only
  cases ok with
  | true =>
    have hfinishes := hgood rfl
    rw [if_neg (by simp [hfinishes.noError])]
    exact ⟨_, _, _, rfl, fun _ => hfinishes.automaton, fun h => absurd h (by decide)⟩
  | false =>
    have hblames := hbad rfl
    obtain ⟨before, t, after, c, hall, hstops, herror⟩ := hblames.automaton
    rw [if_pos (by simp)]
    refine ⟨_, _, _, rfl, fun h => absurd h (by decide), fun _ => ?_⟩
    exact ⟨before, t, after, _, ⟨hall, c, hstops, rfl⟩, herror, parser, plan, rfl, rfl, hblames.steady⟩

end HttpRuntime
