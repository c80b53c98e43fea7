import HttpRuntime.Dsl.Composition

/-!
This module contains that blank lines do not matter: more newlines at the beginnings of lines, and behind
the last statement, change neither the plan of an accepted program nor the message about a rejected one.
-/

open Lib Lib.Automaton Lib.Sections

namespace HttpRuntime

open Tape

/--
The second words have more newlines than the first ones. `atStart` tells whether the words are those at
the beginning of a line.
-/
inductive MoreBlanks : Bool → List Word → List Word → Prop where
  | nil {atStart : Bool} : MoreBlanks atStart [] []
  | cons {atStart : Bool} {w : Word} {ws ws' : List Word} (h : MoreBlanks (w.1 = .newline) ws ws')
    : MoreBlanks atStart (w :: ws) (w :: ws')
  | blank {atStart : Bool} {ws ws' : List Word} (hfree : atStart = true ∨ ws = [(.eof, none)])
      (h : MoreBlanks true ws ws')
    : MoreBlanks atStart ws (newlineWord :: ws')

section MoreBlanks

variable {atStart : Bool} {w : Word} {ws ws' used : List Word}

-- A word inside a line.
def Word.IsInner (w : Word) : Prop := w.1 ≠ .newline ∧ w.1 ≠ .eof

theorem MoreBlanks.atLine (h : MoreBlanks false ws ws') : MoreBlanks atStart ws ws' := by
  cases h with
  | nil => exact .nil
  | cons h => exact .cons h
  | blank hfree h => exact .blank (.inr (hfree.resolve_left (by simp))) h

theorem MoreBlanks.refl (ws : List Word) : MoreBlanks atStart ws ws := by
  induction ws generalizing atStart with
  | nil => exact .nil
  | cons w ws ih => exact .cons ih

theorem MoreBlanks.append_left (h : MoreBlanks false ws ws') (used : List Word)
    : MoreBlanks atStart (used ++ ws) (used ++ ws') := by
  induction used generalizing atStart with
  | nil => exact h.atLine
  | cons w used ih => exact .cons ih

theorem MoreBlanks.blanks (h : MoreBlanks true ws ws') (n : Nat)
    : MoreBlanks true ws (List.replicate n newlineWord ++ ws') := by
  induction n with
  | zero => exact h
  | succ n ih => exact .blank (.inl rfl) ih

/-- The first word is there again, behind blank lines. -/
theorem MoreBlanks.of_cons (h : MoreBlanks atStart (w :: ws) ws')
    : ∃ n ws'', ws' = List.replicate n newlineWord ++ w :: ws'' ∧ MoreBlanks (w.1 = .newline) ws ws'' ∧
        (atStart = true ∨ w.1 = .eof ∨ n = 0) := by
  induction ws' generalizing atStart with
  | nil => cases h
  | cons w' ws' ih =>
    cases h with
    | cons h => exact ⟨0, ws', rfl, h, .inr (.inr rfl)⟩
    | blank hfree h =>
      obtain ⟨n, ws'', rfl, hrest, _⟩ := ih h
      refine ⟨n + 1, ws'', rfl, hrest, ?_⟩
      apply hfree.imp_right
      intro heof
      rw [List.cons.injEq] at heof
      rw [heof.1]
      exact .inl rfl

theorem MoreBlanks.of_nil (h : MoreBlanks false [] ws') : ws' = [] := by
  cases h with
  | nil => rfl
  | blank hfree _ => simp at hfree

theorem MoreBlanks.of_append (h : MoreBlanks false (used ++ ws) ws') (hused : ∀ w ∈ used, w.IsInner)
    : ∃ ws'', ws' = used ++ ws'' ∧ MoreBlanks false ws ws'' := by
  induction used generalizing ws' with
  | nil => exact ⟨ws', rfl, h⟩
  | cons w used ih =>
    rw [List.forall_mem_cons] at hused
    obtain ⟨n, ws₁, rfl, hrest, hn⟩ := h.of_cons
    rw [decide_eq_false hused.1.1] at hrest
    obtain ⟨ws₂, rfl, hws₂⟩ := ih hrest hused.2
    have hzero : n = 0 := by
      rcases hn with hstart | heof | hzero
      . cases hstart
      . exact absurd heof hused.1.2
      . exact hzero
    rw [hzero]
    exact ⟨ws₂, rfl, hws₂⟩

end MoreBlanks

namespace Grammar

variable {ts ts' rest : List DslToken} {stmts : List Statement}

theorem Spells.inner {stmt : Statement} {used : List DslToken} (h : Spells (used ++ rest) stmt rest)
    : used ≠ [] ∧ ∀ t ∈ used, t.word.IsInner := by
  have hmethod {type : DslTokenType} {method : Method} (ht : MethodWord type method)
      : type ≠ .newline ∧ type ≠ .eof := by
    cases ht <;> decide
  have hinner {t : DslToken} {type : DslTokenType} (ht : t.type = type)
      (htype : type ≠ .newline ∧ type ≠ .eof) : t.word.IsInner := by
    unfold Word.IsInner DslToken.word
    rw [ht]
    exact htype
  generalize htokens : used ++ rest = tokens at h
  cases h with
  | @request t u _ _ _ ht hu _ =>
    obtain rfl : used = [t, u] := List.append_cancel_right htokens
    simp only [ne_eq, List.cons_ne_nil, not_false_eq_true, List.forall_mem_cons, true_and]
    exact ⟨hinner rfl (hmethod ht), hinner hu (by decide), by simp⟩
  | @body t u _ _ ht hu _ =>
    obtain rfl : used = [t, u] := List.append_cancel_right htokens
    simp only [ne_eq, List.cons_ne_nil, not_false_eq_true, List.forall_mem_cons, true_and]
    exact ⟨hinner ht (by decide), hinner hu (by decide), by simp⟩
  | @expect t _ _ _ ht he =>
    cases he with
    | @status u v _ _ hu hv _ =>
      obtain rfl : used = [t, u, v] := List.append_cancel_right htokens
      simp only [ne_eq, List.cons_ne_nil, not_false_eq_true, List.forall_mem_cons, true_and]
      exact ⟨hinner ht (by decide), hinner hu (by decide), hinner hv (by decide), by simp⟩
    | @bodyContains u v w _ _ hu hv hw _ =>
      obtain rfl : used = [t, u, v, w] := List.append_cancel_right htokens
      simp only [ne_eq, List.cons_ne_nil, not_false_eq_true, List.forall_mem_cons, true_and]
      exact ⟨hinner ht (by decide), hinner hu (by decide), hinner hv (by decide), hinner hw (by decide),
        by simp⟩
    | @header u v w _ _ _ hu hv _ hw _ =>
      obtain rfl : used = [t, u, v, w] := List.append_cancel_right htokens
      have hvalue : w.type ≠ .newline ∧ w.type ≠ .eof := by
        generalize w.type = type at hw
        cases hw <;> decide
      simp only [ne_eq, List.cons_ne_nil, not_false_eq_true, List.forall_mem_cons, true_and]
      exact ⟨hinner ht (by decide), hinner hu (by decide), hinner hv (by decide), hinner rfl hvalue,
        by simp⟩

theorem Program.blanks (h : Program ts stmts) {blanks : List DslToken} {n : Nat}
    (hblanks : blanks.map DslToken.word = List.replicate n newlineWord) : Program (blanks ++ ts) stmts := by
  induction blanks generalizing n with
  | nil => exact h
  | cons t blanks ih =>
    cases n with
    | zero => cases hblanks
    | succ n =>
      rw [List.map_cons, List.replicate_succ, List.cons.injEq] at hblanks
      exact .blank (congrArg Prod.fst hblanks.1) (ih hblanks.2)

/-- A statement with its end does not see the blank lines behind it. -/
theorem Ends.moreBlanks {stmt : Statement} {used ends : List DslToken} (h : Ends rest ends)
    (hprogram : ∀ tokens, MoreBlanks true (ends.map DslToken.word) (tokens.map DslToken.word) →
      Program tokens stmts)
    (hstmt : Spells (used ++ ts') stmt ts')
    (hwords : MoreBlanks false (rest.map DslToken.word) (ts'.map DslToken.word))
    : Program (used ++ ts') (stmt :: stmts) := by
  cases h with
  | @newline t rest ht =>
    obtain ⟨n, ws, heq, hrest, hn⟩ := hwords.of_cons
    have htype : t.word.1 = .newline := ht
    have hzero : n = 0 := by
      rcases hn with hstart | heof | hzero
      . cases hstart
      . rw [htype] at heof
        cases heof
      . exact hzero
    rw [hzero, List.replicate_zero, List.nil_append, List.map_eq_cons_iff] at heq
    obtain ⟨t', after, rfl, hword, rfl⟩ := heq
    rw [decide_eq_true htype] at hrest
    exact .statement hstmt (.newline ((congrArg Prod.fst hword).trans ht)) (hprogram after hrest)
  | @eof t ht =>
    obtain ⟨n, ws, heq, hrest, _⟩ := hwords.of_cons
    have htype : t.word.1 = .eof := ht
    rw [decide_eq_false (by rw [htype]; decide)] at hrest
    rw [hrest.of_nil] at heq
    cases n with
    | zero =>
      rw [List.replicate_zero, List.nil_append, List.map_eq_singleton_iff] at heq
      obtain ⟨t', rfl, hword⟩ := heq
      apply Program.statement hstmt (.eof ((congrArg Prod.fst hword).trans ht))
      apply hprogram
      rw [List.map_singleton, List.map_singleton, hword]
      exact .refl _
    | succ n =>
      rw [List.replicate_succ, List.cons_append, List.map_eq_cons_iff] at heq
      obtain ⟨t', after, rfl, hword, hafter⟩ := heq
      apply Program.statement hstmt (.newline (congrArg Prod.fst hword))
      apply hprogram
      rw [hafter]
      exact MoreBlanks.blanks (.refl _) n

/-- The statements of a program are the same with more blank lines. -/
theorem Program.moreBlanks (h : Program ts stmts)
    (hwords : MoreBlanks true (ts.map DslToken.word) (ts'.map DslToken.word)) : Program ts' stmts := by
  induction h generalizing ts' with
  | @eof t ht =>
    obtain ⟨n, ws, heq, hrest, _⟩ := hwords.of_cons
    have htype : t.word.1 = .eof := ht
    rw [decide_eq_false (by rw [htype]; decide)] at hrest
    rw [hrest.of_nil, List.map_eq_append_iff] at heq
    obtain ⟨blanks, last, rfl, hblanks, hlast⟩ := heq
    rw [List.map_eq_singleton_iff] at hlast
    obtain ⟨t', rfl, hword⟩ := hlast
    exact Program.blanks (.eof ((congrArg Prod.fst hword).trans ht)) hblanks
  | @blank t ts stmts ht hrest ih =>
    obtain ⟨n, ws, heq, hmore, _⟩ := hwords.of_cons
    have htype : t.word.1 = .newline := ht
    rw [decide_eq_true htype] at hmore
    rw [List.map_eq_append_iff] at heq
    obtain ⟨blanks, after, rfl, hblanks, hafter⟩ := heq
    rw [List.map_eq_cons_iff] at hafter
    obtain ⟨t', after, rfl, hword, rfl⟩ := hafter
    exact Program.blanks (.blank ((congrArg Prod.fst hword).trans ht) (ih hmore)) hblanks
  | @statement ts rest ends stmt stmts hstmt hend hrest ih =>
    obtain ⟨used, rfl, hframe⟩ := hstmt.frame
    obtain ⟨hne, hinner⟩ := hstmt.inner
    obtain ⟨first, used, rfl⟩ := List.exists_cons_of_ne_nil hne
    rw [List.forall_mem_cons] at hinner
    rw [List.cons_append, List.map_cons, List.map_append] at hwords
    obtain ⟨n, ws, heq, hmore, _⟩ := hwords.of_cons
    rw [decide_eq_false hinner.1.1] at hmore
    obtain ⟨ws, rfl, hbehind⟩ := hmore.of_append (by
      intro w hw
      obtain ⟨t, ht, rfl⟩ := List.mem_map.mp hw
      exact hinner.2 t ht)
    rw [List.map_eq_append_iff] at heq
    obtain ⟨blanks, after, rfl, hblanks, hafter⟩ := heq
    rw [List.map_eq_cons_iff] at hafter
    obtain ⟨first', after, rfl, hfirst, hafter⟩ := hafter
    rw [List.map_eq_append_iff] at hafter
    obtain ⟨used', after, rfl, hused, rfl⟩ := hafter
    apply Program.blanks _ hblanks
    obtain ⟨after', hstmt', hsame⟩ := @Spells.of_words _ (first' :: used' ++ after) _ _ (hframe after) (by
      rw [List.map_append, List.map_append, List.map_cons, List.map_cons, hfirst, hused])
    have hafter' : after' = after := by
      obtain ⟨used'', heq⟩ := hstmt'.suffix
      have hlength := congrArg List.length hsame
      rw [List.length_map, List.length_map] at hlength
      exact (List.append_inj' heq hlength).2
    rw [hafter'] at hstmt'
    exact hend.moreBlanks (fun tokens htokens => ih htokens) hstmt' hbehind

end Grammar

section Rejecting

-- What is said about a word: the lexer's own text comes before the one of the parser.
def Word.message (w : Word) (message : String) : Bytes :=
  (if w.1 = .error then w.2.getD (ascii "lexer error") else ascii message).take 255

namespace Config

variable {c c' : Config} {t : DslToken} {tokens before after : List DslToken} {ws ws' : List Word}

/-- The message about the first word that the automaton cannot read. -/
def judge (c : Config) (ws : List Word) : Option Bytes :=
  match ws with
  | [] => none
  | w :: ws =>
    match c.next w.1 with
    | some c' => c'.judge ws
    | none => some ((if c.full w.1 then ws.headD w else w).message (c.complaint w.1))

theorem judge_cons (c : Config) (w : Word) (ws : List Word)
    : c.judge (w :: ws) = match c.next w.1 with
        | some c' => c'.judge ws
        | none => some ((if c.full w.1 then ws.headD w else w).message (c.complaint w.1)) := rfl

theorem report_message (t : DslToken) (message : String)
    : (t.report message).message = t.word.message message := by
  unfold DslToken.report DslToken.lexerError Word.message DslToken.word
  dsimp only
  split <;> rfl

theorem diagnose_message (c : Config) (t : DslToken) (after : List DslToken)
    : (c.diagnose t after).message =
        (if c.full t.type then (after.map DslToken.word).headD t.word else t.word).message
          (c.complaint t.type) := by
  rw [c.diagnose_eq, report_message]
  unfold blamed
  split
  . cases after <;> rfl
  . rfl

theorem judge_of_run (h : run Config.read c tokens = some c') : c.judge (tokens.map DslToken.word) = none := by
  induction tokens generalizing c with
  | nil => rfl
  | cons t tokens ih =>
    rw [run_cons, Option.bind_eq_some_iff] at h
    obtain ⟨c₁, hnext, hrun⟩ := h
    have hword : c.next t.word.1 = some c₁ := hnext
    rw [List.map_cons, judge_cons, hword]
    exact ih hrun

theorem judge_of_stops (h : StopsAt Config.read c before t c')
    : c.judge ((before ++ t :: after).map DslToken.word) = some (c'.diagnose t after).message := by
  obtain ⟨hreads, hstops⟩ := h
  induction before generalizing c with
  | nil =>
    obtain rfl := Option.some.inj hreads
    have hword : c.next t.word.1 = none := hstops
    rw [List.nil_append, List.map_cons, judge_cons, hword, diagnose_message]
    rfl
  | cons u before ih =>
    rw [run_cons, Option.bind_eq_some_iff] at hreads
    obtain ⟨c₁, hnext, hrun⟩ := hreads
    have hword : c.next u.word.1 = some c₁ := hnext
    rw [List.cons_append, List.map_cons, judge_cons, hword]
    exact ih hrun

-- A line ends with a newline where it ends with the source.
theorem next_ends (c : Config)
    : (c.next .newline = some (c.goto .line) ∧ c.next .eof = some (c.goto .finished)) ∨
        (c.next .newline = none ∧ c.next .eof = none ∧ c.complaint .newline = c.complaint .eof) := by
  obtain ⟨place, cases, assertions⟩ := c
  cases place with
  | line => exact .inl ⟨rfl, rfl⟩
  | lineEnd kind => exact .inl ⟨rfl, rfl⟩
  | _ => exact .inr ⟨rfl, rfl, rfl⟩

theorem place_of_newline (h : c.next .newline = some c') : c'.place = .line := by
  cases c.next_ends with
  | inl hends =>
    rw [hends.1, Option.some.injEq] at h
    rw [← h]
    rfl
  | inr hends =>
    rw [hends.1] at h
    cases h

theorem goto_place {place : Place} (h : c.place = place) : c.goto place = c := by
  unfold goto
  rw [← h]

theorem full_eq_false {type : DslTokenType} (h : type ≠ .expect) : c.full type = false := by
  simp [full, h]

-- The word behind an expectation without room.
theorem message_headD (h : MoreBlanks false ws ws') (w : Word) (message : String)
    : (ws'.headD w).message message = (ws.headD w).message message := by
  cases h with
  | nil => rfl
  | cons h => rfl
  | blank hfree h =>
    rw [hfree.resolve_left (by decide)]
    rfl

theorem judge_eof (hplace : c.place = .line) : c.judge [(.eof, none)] = none := by
  unfold judge next
  dsimp only
  rw [hplace]
  rfl

theorem judge_moreBlanks {atStart : Bool} (h : MoreBlanks atStart ws ws')
    (hplace : atStart = true → c.place = .line) : c.judge ws' = c.judge ws := by
  induction h generalizing c with
  | nil => rfl
  | @cons atStart w ws ws' hrest ih =>
    rw [judge_cons, judge_cons]
    cases hnext : c.next w.1 with
    | some c' =>
      apply ih
      intro hnewline
      rw [of_decide_eq_true hnewline] at hnext
      exact place_of_newline hnext
    | none =>
      dsimp only
      split
      . next hfull =>
        have hexpect : w.1 = .expect := by
          by_contra hne
          rw [full_eq_false hne] at hfull
          cases hfull
        rw [decide_eq_false (by rw [hexpect]; decide)] at hrest
        rw [message_headD hrest]
      . rfl
  | @blank atStart ws ws' hfree hrest ih =>
    have hih := @ih (c.goto .line) (fun _ => rfl)
    have hword : c.next newlineWord.1 = c.next .newline := rfl
    rw [judge_cons, hword]
    cases c.next_ends with
    | inl hends =>
      rw [hends.1]
      dsimp only
      rw [hih]
      cases hfree with
      | inl hstart => rw [goto_place (hplace hstart)]
      | inr heof =>
        rw [heof, judge_eof rfl, judge_cons, hends.2]
        rfl
    | inr hends =>
      cases hfree with
      | inl hstart =>
        have hline := hends.1
        unfold next at hline
        rw [hplace hstart] at hline
        cases hline
      | inr heof =>
        rw [heof, judge_cons, hends.1, hends.2.1]
        dsimp only
        have hcomplaint : c.complaint newlineWord.1 = c.complaint .eof := hends.2.2
        rw [full_eq_false (by decide), full_eq_false (by decide), hcomplaint]
        rfl

end Config

variable {source source' : Bytes}

/--
A source with more blank lines gives the same result and the same plan, and an error with the same
message.
-/
theorem dslParseRunPlan_moreBlanks (error : Option DslParseError)
    (h : MoreBlanks true (dslCreateLexer source).words (dslCreateLexer source').words)
    : ∃ result plan error₁ error₂, dslParseRunPlan source error = some (result, plan, error₁) ∧
        dslParseRunPlan source' error = some (result, plan, error₂) ∧
        (result = .error → error₂.map DslParseError.message = error₁.map DslParseError.message) := by
  obtain ⟨result, plan, error₁, hres, _, hwrong⟩ := dslParseRunPlan_diagnosed source error
  obtain ⟨result', plan', error₂, hres', hright', hwrong'⟩ := dslParseRunPlan_diagnosed source' error
  cases result with
  | ok =>
    obtain ⟨stmts, hprogram, hfits, hplan⟩ := program_of_ok hres
    obtain ⟨error', hsame⟩ := dslParseRunPlan_of_program (hprogram.moreBlanks h) hfits error
    rw [← hplan] at hsame
    exact ⟨.ok, plan, error₁, error', hres, hsame, fun hne => by cases hne⟩
  | error =>
    obtain ⟨before, t, after, d, hfirst, herror, _⟩ := hwrong rfl
    obtain ⟨c, hstops, hd⟩ := hfirst.stops
    have hjudge := @Config.judge_of_stops _ _ _ _ after hstops
    rw [← hfirst.tokens, ← hd] at hjudge
    have hsame := Config.judge_moreBlanks (c := .start) h (fun _ => rfl)
    unfold DslLexer.words at hsame
    rw [hjudge] at hsame
    cases result' with
    | ok =>
      obtain ⟨c', hrun, _⟩ := hright' rfl
      rw [Config.judge_of_run hrun] at hsame
      cases hsame
    | error =>
      obtain ⟨before', t', after', d', hfirst', herror', _⟩ := hwrong' rfl
      obtain ⟨c', hstops', hd'⟩ := hfirst'.stops
      have hjudge' := @Config.judge_of_stops _ _ _ _ after' hstops'
      rw [← hfirst'.tokens, ← hd', hsame, Option.some.injEq] at hjudge'
      rw [dslParseRunPlan_error_plan hres] at hres
      rw [dslParseRunPlan_error_plan hres'] at hres'
      refine ⟨.error, .zero, error₁, error₂, hres, hres', fun _ => ?_⟩
      rw [herror, herror', Option.map_map, Option.map_map]
      exact congrArg (fun m => error.map (fun _ => m)) hjudge'.symm

end Rejecting

end HttpRuntime
