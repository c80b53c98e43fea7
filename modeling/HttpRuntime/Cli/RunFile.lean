import HttpRuntime.Cli.Commands
import HttpRuntime.Dsl.Parser.Moves
import HttpRuntime.Dsl.Parser.Phrases

/-!
This module contains how much of a file is parsed, `read_file` of `dsl.c` with the parser behind it.
-/

open Lib

namespace HttpRuntime

/-- A file, and what the calls of `read_file` answer about it. -/
structure FileRead where
  content : Bytes
  opens : Bool
  sized : Bool
  alloc : Bool
  -- `fread` may stop early
  bytesRead : Nat

-- The text without the terminator that is written behind it.
def readFile (file : FileRead) : Option Bytes :=
  if !file.opens then none
  else if !file.sized then none
  else if !file.alloc then none
  else some (file.content.take file.bytesRead)

-- The lexer that `dsl_parser_destroy` finds.
def parsedLexer (path : Bytes) (env : ProcessEnv) : Option DslLexer := do
  let text ← env.file path
  let res ← parseProgram (dslParserCreate text (some .zero)) initRunPlan
  some res.1.lexer

theorem strlen_take_eq_length_iff {content : Bytes} {n : Nat}
    : strlen (content.take n) = content.length ↔ 0 ∉ content ∧ content.length ≤ n := by
  have hle : strlen (content.take n) ≤ (content.take n).length  :=
    (List.takeWhile_prefix _).length_le
  rw [List.length_take] at hle
  constructor
  . intro h
    have hn : content.length ≤ n := by omega
    rw [List.take_of_length_le hn] at h
    have hself := List.IsPrefix.eq_of_length (List.takeWhile_prefix _) h
    refine ⟨?_, hn⟩
    intro hzero
    rw [← hself] at hzero
    have := List.mem_takeWhile_imp hzero
    simp at this
  . rintro ⟨hzero, hn⟩
    rw [List.take_of_length_le hn, strlen_of_not_mem hzero]

theorem readFile_eq_some {file : FileRead} {text : Bytes} (h : readFile file = some text)
    : text = file.content.take file.bytesRead := by
  unfold readFile at h
  split at h
  . cases h
  . split at h
    . cases h
    . split at h
      . cases h
      . exact (Option.some.inj h).symm

theorem parseProgram_of_ok {source : Bytes} {error error' : Option DslParseError} {plan : RunPlan}
    (h : dslParseRunPlan source error = some (.ok, plan, error'))
    : ∃ parser, parseProgram (dslParserCreate source error) initRunPlan = some (parser, plan, true) := by
  unfold dslParseRunPlan at h
  split at h
  . cases h
  . next parser plan' ok hparse =>
    split at h
    . cases h
    . next haccept =>
      have hok : ok = true := by
        simp only [Bool.or_eq_true, Bool.not_eq_true', not_or, Bool.not_eq_false] at haccept
        exact haccept.1
      rw [Option.some.injEq, Prod.mk.injEq, Prod.mk.injEq] at h
      rw [hok, h.2.1] at hparse
      exact ⟨parser, hparse⟩

theorem dslParseRunPlanFile_ok {path : Bytes} {env : ProcessEnv} {plan : RunPlan}
    (h : dslParseRunPlanFile path env = some (dslParseOk, plan))
    : ∃ text error, env.file path = some text ∧
        dslParseRunPlan text (some .zero) = some (.ok, plan, error) := by
  unfold dslParseRunPlanFile at h
  split at h
  . cases h
  . next text htext =>
    rw [Option.map_eq_some_iff] at h
    rcases h with ⟨⟨result, plan', error⟩, hparse, heq⟩
    cases result with
    | error => cases heq
    | ok =>
      rw [Prod.mk.injEq] at heq
      rw [heq.2] at hparse
      exact ⟨text, error, htext, hparse⟩

/-- A file that is accepted was read by the lexer as a whole just if it has no terminator inside and
`fread` delivered all of it. -/
theorem dslParseRunPlanFile_consumes_iff {path : Bytes} {env : ProcessEnv} {file : FileRead}
    {plan : RunPlan} (hfile : env.file path = readFile file)
    (hok : dslParseRunPlanFile path env = some (dslParseOk, plan))
    : (parsedLexer path env).map DslLexer.pos = some file.content.length ↔
        0 ∉ file.content ∧ file.content.length ≤ file.bytesRead := by
  rcases dslParseRunPlanFile_ok hok with ⟨text, error, htext, hparse⟩
  rcases parseProgram_of_ok hparse with ⟨parser, hparser⟩
  have hlexer : parsedLexer path env = some parser.lexer := by
    unfold parsedLexer
    rw [htext, Option.bind_eq_bind, Option.bind_some, hparser]
    rfl
  rw [hlexer, Option.map_some, Option.some.injEq, parseProgram_pos hparser,
    readFile_eq_some (hfile.symm.trans htext)]
  exact strlen_take_eq_length_iff

-- What the file is, and nothing else.
def fileEnv (file : FileRead) : ProcessEnv where
  file := fun _ => readFile file
  db := fun _ => .empty
  acts := []

def plainFile (content : Bytes) : FileRead where
  content := content
  opens := true
  sized := true
  alloc := true
  bytesRead := content.length

def getPlan : RunPlan :=
  { initRunPlan with cases := [startCase ⟨.get, ascii "u"⟩] }

theorem dslParseRunPlanFile_consumes_get
    : (parsedLexer [] (fileEnv (plainFile (ascii "GET u\n")))).map DslLexer.pos =
          some (plainFile (ascii "GET u\n")).content.length ↔
        0 ∉ (plainFile (ascii "GET u\n")).content ∧
          (plainFile (ascii "GET u\n")).content.length ≤ (plainFile (ascii "GET u\n")).bytesRead := by
  apply dslParseRunPlanFile_consumes_iff
  . rfl
  . show _ = some (dslParseOk, getPlan)
    decide +kernel

def cutFile : FileRead := plainFile (ascii "GET u\n" ++ [0] ++ ascii "EXPECT status 500\n")

/-- The expectation behind the terminator is dropped, and the file is accepted. -/
theorem dslParseRunPlanFile_drops
    : dslParseRunPlanFile [] (fileEnv cutFile) = some (dslParseOk, getPlan) ∧
        (parsedLexer [] (fileEnv cutFile)).map DslLexer.pos = some 6 ∧ cutFile.content.length = 25 := by
  refine ⟨?_, ?_, ?_⟩
  . decide +kernel
  . decide +kernel
  . decide

end HttpRuntime
