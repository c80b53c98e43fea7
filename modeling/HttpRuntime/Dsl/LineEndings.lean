import HttpRuntime.Dsl.Parser.Congruence

/-!
This module contains that the line endings of a source do not matter: a carriage return in front of a
newline changes no word of it, and the parser sees only the words and their lines.
-/

open Lib Lib.Automaton Lib.Sections

namespace HttpRuntime

-- `afterCr` tells whether the byte before is a carriage return.
def toCrlf (afterCr : Bool) (s : Bytes) : Bytes :=
  match s with
  | [] => []
  | c :: cs =>
    if c = 10 ∧ afterCr = false then 13 :: 10 :: toCrlf false cs else c :: toCrlf (c = 13) cs

/-- The source with a carriage return in front of every newline. -/
def withCrlf (source : Bytes) : Bytes := toCrlf false source

section Tape

open Tape

variable {p : UInt8 → Bool} {s : Bytes}

theorem toCrlf_true_cons (c : UInt8) (cs : Bytes) : toCrlf true (c :: cs) = c :: toCrlf (c = 13) cs := by
  conv => lhs; unfold toCrlf
  rw [if_neg (by simp)]

theorem toCrlf_cons_of_ne {c : UInt8} (hc : c ≠ 10) (b : Bool) (cs : Bytes)
    : toCrlf b (c :: cs) = c :: toCrlf (c = 13) cs := by
  conv => lhs; unfold toCrlf
  rw [if_neg (fun h => hc h.1)]

theorem toCrlf_newline (b : Bool) (cs : Bytes)
    : toCrlf b (10 :: cs) = if b then 10 :: toCrlf false cs else 13 :: 10 :: toCrlf false cs := by
  conv => lhs; unfold toCrlf
  cases b <;> rfl

-- A run that neither byte of a line ending belongs to.
theorem run_toCrlf (hp : p 10 = false) (hp' : p 13 = false) (b : Bool) (s : Bytes)
    : (toCrlf b s).takeWhile p = s.takeWhile p ∧
        ∃ b', (toCrlf b s).dropWhile p = toCrlf b' (s.dropWhile p) := by
  induction s generalizing b with
  | nil => exact ⟨rfl, b, rfl⟩
  | cons c cs ih =>
    by_cases hc : p c = true
    . have hne : c ≠ 10 := by
        intro heq
        rw [heq, hp] at hc
        cases hc
      rw [toCrlf_cons_of_ne hne, List.takeWhile_cons_of_pos hc, List.takeWhile_cons_of_pos hc,
        List.dropWhile_cons_of_pos hc, List.dropWhile_cons_of_pos hc, (ih _).1]
      exact ⟨rfl, (ih _).2⟩
    . rw [List.takeWhile_cons_of_neg hc, List.dropWhile_cons_of_neg hc]
      by_cases hne : c = 10
      . rw [hne, toCrlf_newline]
        cases b with
        | true =>
          rw [if_pos rfl, List.takeWhile_cons_of_neg (by simp [hp]), List.dropWhile_cons_of_neg (by simp [hp])]
          exact ⟨rfl, true, rfl⟩
        | false =>
          rw [if_neg (by decide), List.takeWhile_cons_of_neg (by simp [hp']),
            List.dropWhile_cons_of_neg (by simp [hp'])]
          exact ⟨rfl, false, rfl⟩
      . rw [toCrlf_cons_of_ne hne, List.takeWhile_cons_of_neg hc, List.dropWhile_cons_of_neg hc]
        exact ⟨rfl, b, (toCrlf_cons_of_ne hne b cs).symm⟩

-- A run that swallows carriage returns and ends at a newline.
theorem dropWhile_toCrlf (hp : p 10 = false) (hp' : p 13 = true) (b : Bool) (s : Bytes)
    : (toCrlf b s).dropWhile p = toCrlf true (s.dropWhile p) := by
  induction s generalizing b with
  | nil => rfl
  | cons c cs ih =>
    by_cases hne : c = 10
    . rw [hne, toCrlf_newline, List.dropWhile_cons_of_neg (by simp [hp]), toCrlf_newline, if_pos rfl]
      cases b with
      | true => rw [if_pos rfl, List.dropWhile_cons_of_neg (by simp [hp])]
      | false =>
        rw [if_neg (by decide), List.dropWhile_cons_of_pos hp', List.dropWhile_cons_of_neg (by simp [hp])]
    . rw [toCrlf_cons_of_ne hne]
      by_cases hc : p c = true
      . rw [List.dropWhile_cons_of_pos hc, List.dropWhile_cons_of_pos hc, ih]
      . rw [List.dropWhile_cons_of_neg hc, List.dropWhile_cons_of_neg hc, toCrlf_cons_of_ne hne]

theorem takeWhile_toCrlf (hp : p 10 = false) (hs : (s.dropWhile p).head? ≠ some 10) (b : Bool)
    : (toCrlf b s).takeWhile p = s.takeWhile p := by
  induction s generalizing b with
  | nil => rfl
  | cons c cs ih =>
    have hne : c ≠ 10 := by
      intro heq
      rw [heq, List.dropWhile_cons_of_neg (by simp [hp])] at hs
      exact hs rfl
    rw [toCrlf_cons_of_ne hne]
    by_cases hc : p c = true
    . rw [List.dropWhile_cons_of_pos hc] at hs
      rw [List.takeWhile_cons_of_pos hc, List.takeWhile_cons_of_pos hc, ih hs]
    . rw [List.takeWhile_cons_of_neg hc, List.takeWhile_cons_of_neg hc]

/-- The same word, and behind it the same bytes up to the line endings. -/
structure SameWord (res res' : Word × Tape) : Prop where
  word : res'.1 = res.1
  raw : res'.2.raw = res.2.raw
  rest : res.1.isFinal = false → ∃ b, res'.2.rest = toCrlf b res.2.rest

theorem nextRaw_toCrlf (b : Bool) (s : Bytes) : SameWord (nextRaw s) (nextRaw (toCrlf b s)) := by
  obtain ⟨htake, b', hdrop⟩ := run_toCrlf (p := inLine) rfl rfl b s
  unfold nextRaw
  dsimp only
  rw [htake, hdrop]
  exact ⟨rfl, rfl, fun _ => ⟨b', rfl⟩⟩

theorem nextString_toCrlf (b : Bool) (s : Bytes) : SameWord (nextString s) (nextString (toCrlf b s)) := by
  have hdrop := dropWhile_toCrlf (p := inString) rfl rfl b s
  unfold nextString
  rw [hdrop]
  cases hrest : s.dropWhile inString with
  | nil => exact ⟨rfl, rfl, fun _ => ⟨b, rfl⟩⟩
  | cons c after =>
    rw [toCrlf_true_cons]
    dsimp only
    by_cases hc : c = 34
    . rw [if_pos hc, if_pos hc]
      have htake := @takeWhile_toCrlf inString s rfl (by rw [hrest, hc]; simp) b
      rw [htake]
      exact ⟨rfl, rfl, fun _ => ⟨_, rfl⟩⟩
    . rw [if_neg hc, if_neg hc]
      exact ⟨rfl, rfl, fun hfinal => by cases hfinal⟩

theorem nextComment_toCrlf (b : Bool) (s : Bytes)
    : SameWord (nextComment s) (nextComment (toCrlf b s)) := by
  have hdrop := dropWhile_toCrlf (p := inComment) rfl rfl b s
  unfold nextComment
  rw [hdrop]
  cases s.dropWhile inComment with
  | nil => exact ⟨rfl, rfl, fun _ => ⟨b, rfl⟩⟩
  | cons c after =>
    rw [toCrlf_true_cons]
    exact ⟨rfl, rfl, fun _ => ⟨_, rfl⟩⟩

theorem nextAt_toCrlf (s : Bytes) : SameWord (nextAt s) (nextAt (toCrlf true s)) := by
  cases s with
  | nil => exact ⟨rfl, rfl, fun _ => ⟨true, rfl⟩⟩
  | cons c cs =>
    rw [toCrlf_true_cons]
    unfold nextAt
    dsimp only
    split
    . exact ⟨rfl, rfl, fun _ => ⟨_, rfl⟩⟩
    . split
      . exact nextString_toCrlf _ cs
      . split
        . next hdigit =>
          obtain ⟨htake, b', hdrop⟩ := run_toCrlf (p := isdigit) rfl rfl (decide (c = 13)) cs
          rw [List.takeWhile_cons_of_pos hdigit, List.takeWhile_cons_of_pos hdigit,
            List.dropWhile_cons_of_pos hdigit, List.dropWhile_cons_of_pos hdigit, htake, hdrop]
          exact ⟨rfl, rfl, fun _ => ⟨b', rfl⟩⟩
        . split
          . next hident =>
            have hchar := isIdentChar_of_isIdentStart hident
            obtain ⟨htake, b', hdrop⟩ := run_toCrlf (p := isIdentChar) rfl rfl (decide (c = 13)) cs
            unfold nextIdentifier
            dsimp only
            rw [List.takeWhile_cons_of_pos hchar, List.takeWhile_cons_of_pos hchar,
              List.dropWhile_cons_of_pos hchar, List.dropWhile_cons_of_pos hchar, htake, hdrop]
            exact ⟨rfl, rfl, fun _ => ⟨b', rfl⟩⟩
          . split
            . exact nextComment_toCrlf _ cs
            . exact ⟨rfl, rfl, fun hfinal => by cases hfinal⟩

theorem next_toCrlf (tape : Tape) (b : Bool)
    : SameWord tape.next (Tape.next ⟨tape.raw, toCrlf b tape.rest⟩) := by
  rw [tape.next_eq, Tape.next_eq]
  dsimp only
  rw [dropWhile_toCrlf (p := DslLexer.isBlank) rfl rfl]
  cases tape.raw with
  | true => exact nextRaw_toCrlf true _
  | false => exact nextAt_toCrlf _

end Tape

section Words

variable {lexer lexer' : DslLexer} {source : Bytes}

theorem words_toCrlf (b : Bool) (h : lexer'.tape = ⟨lexer.tape.raw, toCrlf b lexer.tape.rest⟩)
    : lexer'.words = lexer.words := by
  induction hn : lexer.fuel using Nat.strongRecOn generalizing lexer lexer' b with
  | ind n ih =>
    have hsame := next_toCrlf lexer.tape b
    rw [← h] at hsame
    rw [words_eq lexer, words_eq lexer', hsame.word]
    split
    . rfl
    . next hfinal =>
      obtain ⟨hword, htape⟩ := dslLexerNextToken_reads lexer
      obtain ⟨_, htape'⟩ := dslLexerNextToken_reads lexer'
      obtain ⟨b', hrest⟩ := hsame.rest (Bool.eq_false_iff.mpr hfinal)
      have hlt : (dslLexerNextToken lexer).2.fuel < n := by
        rw [← hn]
        apply fuel_dslLexerNextToken_lt
        rw [← hword] at hfinal
        exact Bool.eq_false_iff.mpr hfinal
      rw [ih _ hlt b' _ rfl]
      rw [htape', htape, ← hrest, ← hsame.raw]

theorem zero_not_mem_toCrlf (b : Bool) {s : Bytes} (hs : 0 ∉ s) : 0 ∉ toCrlf b s := by
  induction s generalizing b with
  | nil => exact hs
  | cons c cs ih =>
    rw [List.mem_cons, not_or] at hs
    unfold toCrlf
    split
    . simp [ih false hs.2]
    . rw [List.mem_cons, not_or]
      exact ⟨hs.1, ih _ hs.2⟩

theorem words_withCrlf (hsource : 0 ∉ source)
    : (dslCreateLexer (withCrlf source)).words = (dslCreateLexer source).words := by
  apply words_toCrlf false
  unfold withCrlf
  rw [dslCreateLexer_tape (zero_not_mem_toCrlf false hsource), dslCreateLexer_tape hsource]

end Words

/--
With a carriage return in front of every newline a source gives the same result and the same plan, and
an error with the same message in the same line.
-/
theorem dslParseRunPlan_withCrlf {source : Bytes} (hsource : 0 ∉ source) (error : Option DslParseError)
    : ∃ result plan error₁ error₂, dslParseRunPlan source error = some (result, plan, error₁) ∧
        dslParseRunPlan (withCrlf source) error = some (result, plan, error₂) ∧
        (result = .error → error₂.map DslParseError.message = error₁.map DslParseError.message ∧
          error₂.map DslParseError.line = error₁.map DslParseError.line) := by
  apply dslParseRunPlan_congr
  apply heads_congr (words_withCrlf hsource)
  rfl

theorem dslParseRunPlan_withCrlf_post
    : ∃ plan error₁ error₂,
        dslParseRunPlan (ascii "POST u\nBODY x \nEXPECT ?") (some ⟨[], 0, 0⟩) =
            some (.error, plan, error₁) ∧
          dslParseRunPlan (withCrlf (ascii "POST u\nBODY x \nEXPECT ?")) (some ⟨[], 0, 0⟩) =
            some (.error, plan, error₂) ∧
          error₂.map DslParseError.message = error₁.map DslParseError.message ∧
          error₂.map DslParseError.line = error₁.map DslParseError.line := by
  have hrejected : (dslParseRunPlan (ascii "POST u\nBODY x \nEXPECT ?") (some ⟨[], 0, 0⟩)).map Prod.fst =
      some .error := by
    decide +kernel
  have hsource : 0 ∉ ascii "POST u\nBODY x \nEXPECT ?" := by decide
  obtain ⟨result, plan, error₁, error₂, hplain, hcrlf, hmessage⟩ :=
    dslParseRunPlan_withCrlf hsource (some ⟨[], 0, 0⟩)
  rw [hplain, Option.map_some, Option.some.injEq] at hrejected
  dsimp only at hrejected
  subst hrejected
  exact ⟨plan, error₁, error₂, hplain, hcrlf, hmessage rfl⟩

end HttpRuntime
