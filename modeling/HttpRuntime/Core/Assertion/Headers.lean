import HttpRuntime.Core.HeaderLines
import HttpRuntime.Lib.CType
import HttpRuntime.Lib.Scan

/-!
This module contains what a header assertion means, line by line, and the scan of `header_contains`
with its pointers as indices into the text and its terminator.
-/

open Lib

namespace HttpRuntime

variable {name value : Bytes}

def isBlank (c : UInt8) : Bool := c == 32 || c == 9

def isTrailing (c : UInt8) : Bool := c == 32 || c == 9 || c == 13

structure LineSays (line name value : Bytes) (before after : Bytes) : Prop where
  line_eq : line = before ++ 58 :: after
  first_colon : 58 ∉ before
  name_eq : (before.rdropWhile isTrailing).map tolower = name.map tolower
  value_eq : (after.dropWhile isBlank).rdropWhile isTrailing = value

/-- Some line of the text has the name, in any case of its letters, and exactly the value. -/
def HeaderSays (text name value : Bytes) : Prop :=
  ∃ line ∈ text.splitOn 10, ∃ before after, LineSays line name value before after

theorem tolower_eq_zero_iff {c : UInt8} : tolower c = 0 ↔ c = 0 := by
  unfold tolower
  split
  . next h =>
    constructor
    . intro heq
      have hval := congrArg UInt8.toNat heq
      have hlow := UInt8.le_iff_toNat_le.mp h.1
      have hhigh := UInt8.le_iff_toNat_le.mp h.2
      rw [UInt8.toNat_add] at hval
      simp at hval hlow hhigh
      omega
    . rintro rfl
      exact absurd h.1 (by decide)
  . rfl

theorem strncasecmpSimple_cons (c d : UInt8) (a b : Bytes) (n : Nat)
    : strncasecmpSimple (c :: a) (d :: b) (n + 1) =
        if tolower c ≠ tolower d then ((tolower c).toNat : Int) - (tolower d).toNat
        else if tolower c = 0 then 0
        else strncasecmpSimple a b n := rfl

theorem strncasecmpSimple_eq_zero_iff {a b : Bytes} (hlength : a.length = b.length) (hzero : 0 ∉ a)
    : strncasecmpSimple a b a.length = 0 ↔ a.map tolower = b.map tolower := by
  induction a generalizing b with
  | nil =>
    rw [List.eq_nil_of_length_eq_zero hlength.symm]
    exact iff_of_true rfl rfl
  | cons c a ih =>
    cases b with
    | nil => cases hlength
    | cons d b =>
      rw [List.mem_cons, not_or] at hzero
      rw [List.length_cons, strncasecmpSimple_cons, List.map_cons, List.map_cons, List.cons.injEq]
      by_cases heq : tolower c = tolower d
      . have hc : tolower c ≠ 0 := fun h => hzero.1 (tolower_eq_zero_iff.mp h).symm
        rw [if_neg (not_not.mpr heq), if_neg hc, ih (Nat.succ.inj hlength) hzero.2]
        exact (and_iff_right heq).symm
      . rw [if_pos heq]
        refine iff_of_false ?_ (fun h => heq h.1)
        intro hdiff
        apply heq
        apply UInt8.toNat_inj.mp
        omega

theorem rtrimEnd_eq (s : Bytes) : rtrimEnd s = s.rdropWhile isTrailing := rfl

theorem skipSpaces_eq (s : Bytes) : skipSpaces s = s.dropWhile isBlank := rfl

theorem headerLineMatches_of_no_colon {line : Bytes} (h : 58 ∉ line)
    : headerLineMatches line name value = false := by
  unfold headerLineMatches
  rw [if_neg h]

theorem headerLineMatches_append {before : Bytes} (hbefore : 58 ∉ before) (after : Bytes)
    : headerLineMatches (before ++ 58 :: after) name value =
        ((before.rdropWhile isTrailing).length == name.length &&
          strncasecmpSimple (before.rdropWhile isTrailing) name
            (before.rdropWhile isTrailing).length == 0 &&
          (((after.dropWhile isBlank).rdropWhile isTrailing).length == value.length &&
            (after.dropWhile isBlank).rdropWhile isTrailing == value)) := by
  have hall : ∀ c ∈ before, (c != 58) = true := by
    intro c hc
    rw [bne_iff_ne]
    rintro rfl
    exact hbefore hc
  unfold headerLineMatches
  rw [if_pos (by simp), List.takeWhile_append_of_pos hall, List.dropWhile_append_of_pos hall]
  simp [rtrimEnd_eq, skipSpaces_eq]

theorem append_cons_inj_of_first {c : UInt8} {before before' after after' : Bytes}
    (hbefore : c ∉ before) (hbefore' : c ∉ before') (h : before ++ c :: after = before' ++ c :: after')
    : before = before' ∧ after = after' := by
  have hsplit := congrArg (fun line => line.splitOn c) h
  simp only [List.splitOn_append_cons_self_of_not_mem hbefore,
    List.splitOn_append_cons_self_of_not_mem hbefore', List.cons.injEq] at hsplit
  rw [hsplit.1, List.append_cancel_left_eq, List.cons.injEq] at h
  exact ⟨hsplit.1, h.2⟩

theorem headerLineMatches_iff {line : Bytes} (hline : 0 ∉ line)
    : headerLineMatches line name value = true ↔
        ∃ before after, LineSays line name value before after := by
  by_cases hcolon : 58 ∈ line
  . obtain ⟨before, after, rfl, hbefore⟩ := List.eq_append_cons_of_mem hcolon
    have hzero : 0 ∉ before.rdropWhile isTrailing := by
      intro h
      exact hline (List.mem_append_left _ ((List.rdropWhile_prefix _ _).subset h))
    rw [headerLineMatches_append hbefore, Bool.and_eq_true, Bool.and_eq_true, Bool.and_eq_true,
      beq_iff_eq, beq_iff_eq, beq_iff_eq, beq_iff_eq]
    constructor
    . rintro ⟨⟨hlength, hname⟩, _, hvalue⟩
      rw [strncasecmpSimple_eq_zero_iff hlength hzero] at hname
      exact ⟨before, after, rfl, hbefore, hname, hvalue⟩
    . rintro ⟨before', after', hline', hbefore', hname, hvalue⟩
      have hparts := append_cons_inj_of_first hbefore hbefore' hline'
      rw [← hparts.1] at hname
      rw [← hparts.2] at hvalue
      have hlength := congrArg List.length hname
      rw [List.length_map, List.length_map] at hlength
      exact ⟨⟨hlength, (strncasecmpSimple_eq_zero_iff hlength hzero).mpr hname⟩,
        congrArg List.length hvalue, hvalue⟩
  . rw [headerLineMatches_of_no_colon hcolon]
    refine iff_of_false (by decide) ?_
    rintro ⟨before, after, hmeaning⟩
    apply hcolon
    rw [hmeaning.line_eq]
    exact List.mem_append_right _ List.mem_cons_self

theorem headerLinesContain_line {line : Bytes} (hline : 10 ∉ line)
    : headerLinesContain line name value = headerLineMatches line name value := by
  cases line with
  | nil => rw [headerLinesContain_nil, headerLineMatches_of_no_colon (by simp)]
  | cons c rest =>
    have htake : (c :: rest).takeWhile (fun c => c != 10) = c :: rest := by
      rw [List.takeWhile_eq_self_iff]
      intro d hd
      rw [bne_iff_ne]
      rintro rfl
      exact hline hd
    rw [headerLinesContain, htake, List.drop_of_length_le (by omega), headerLinesContain_nil]
    cases headerLineMatches (c :: rest) name value <;> rfl

theorem headerLinesContain_splitOn (text : Bytes)
    : headerLinesContain text name value =
        (text.splitOn 10).any (fun line => headerLineMatches line name value) := by
  by_cases hnewline : 10 ∈ text
  . obtain ⟨line, rest, rfl, hline⟩ := List.eq_append_cons_of_mem hnewline
    rw [headerLinesContain_cons hline, headerLinesContain_splitOn rest,
      List.splitOn_append_cons_self_of_not_mem hline, List.any_cons]
  . rw [headerLinesContain_line hnewline, List.splitOn_eq_singleton, List.any_cons, List.any_nil,
      Bool.or_false]
    exact hnewline
termination_by text.length
decreasing_by
  subst_vars
  rw [List.length_append, List.length_cons]
  omega

-- The pointers into one line with a colon, as indices of the buffer.
structure HeaderPointers where
  lineStart : Nat
  lineEnd : Nat
  colon : Nat
  nameEnd : Nat
  valueStart : Nat
  valueEnd : Nat
  deriving DecidableEq, Repr

/-- The pointers stand in the order of the line, and the line is inside of a text of this size. -/
structure HeaderPointers.Within (p : HeaderPointers) (size : Nat) : Prop where
  nameEnd_ge : p.lineStart ≤ p.nameEnd
  nameEnd_le : p.nameEnd ≤ p.colon
  colon_lt : p.colon < p.lineEnd
  valueStart_gt : p.colon < p.valueStart
  valueEnd_ge : p.valueStart ≤ p.valueEnd
  valueEnd_le : p.valueEnd ≤ p.lineEnd
  lineEnd_le : p.lineEnd ≤ size

theorem HeaderPointers.Within.mono {p : HeaderPointers} {size size' : Nat} (h : p.Within size)
    (hle : size ≤ size') : p.Within size' :=
  { h with lineEnd_le := h.lineEnd_le.trans hle }

def headerPointers (buffer : Bytes) (lineStart lineEnd : Nat) : Option (Option HeaderPointers) := do
  let colon ← scanUpTo (fun c => c != 58) buffer lineStart lineEnd
  if colon = lineEnd then
    return none
  else
    let nameEnd ← scanBack isTrailing buffer lineStart colon
    let valueStart ← scanWhile isBlank buffer (colon + 1)
    let valueEnd ← scanBack isTrailing buffer valueStart lineEnd
    return some { lineStart, lineEnd, colon, nameEnd, valueStart, valueEnd }

-- Two ranges are compared only if they are equally long.
def nameMatches (buffer name : Bytes) (p : HeaderPointers) : Option Bool :=
  let nameLen := p.nameEnd - p.lineStart
  if nameLen = strlen name then do
    let lineName ← readSlice buffer p.lineStart nameLen
    let expected ← readSlice (name ++ [0]) 0 nameLen
    return strncasecmpSimple lineName expected nameLen == 0
  else
    some false

def valueMatches (buffer value : Bytes) (p : HeaderPointers) : Option Bool :=
  let valueLen := p.valueEnd - p.valueStart
  if valueLen = strlen value then do
    let lineValue ← readSlice buffer p.valueStart valueLen
    let expected ← readSlice (value ++ [0]) 0 valueLen
    return cstring lineValue == cstring expected
  else
    some false

def headerLineScan (buffer name value : Bytes) (lineStart lineEnd : Nat)
    : Option (Bool × List HeaderPointers) := do
  match ← headerPointers buffer lineStart lineEnd with
  | none => return (false, [])
  | some p =>
    let nameOk ← nameMatches buffer name p
    let valueOk ← valueMatches buffer value p
    return (nameOk && valueOk, [p])

/-- `header_contains` from a line on, with the pointers it used on the way. -/
def headerScan (buffer name value : Bytes) (lineStart : Nat)
    : Option (Bool × List HeaderPointers) :=
  if hstart : lineStart < buffer.length then
    if buffer[lineStart] = 0 then
      some (false, [])
    else
      match hend : scanWhile (fun c => c != 10 && c != 0) buffer lineStart with
      | none => none
      | some lineEnd =>
        match headerLineScan buffer name value lineStart lineEnd with
        | none => none
        | some (found, used) =>
          if found then
            some (true, used)
          else if buffer[lineEnd]? = some 0 then
            some (false, used)
          else
            (headerScan buffer name value (lineEnd + 1)).map fun (found, rest) => (found, used ++ rest)
  else
    none
termination_by buffer.length - lineStart
decreasing_by
  have hle := le_of_scanWhile hend
  omega

variable {before line after : Bytes}

theorem headerPointers_of_no_colon (hline : 58 ∉ line)
    : headerPointers (before ++ (line ++ after)) before.length (before.length + line.length) =
        some none := by
  have hall : line.takeWhile (fun c => c != 58) = line := by
    rw [List.takeWhile_eq_self_iff]
    intro c hc
    rw [bne_iff_ne]
    rintro rfl
    exact hline hc
  unfold headerPointers
  rw [scanUpTo_append, hall]
  simp

/-- The pointers of the line `head ++ 58 :: tail` behind `before`. -/
def linePointers (before head tail : Bytes) : HeaderPointers where
  lineStart := before.length
  lineEnd := before.length + head.length + 1 + tail.length
  colon := before.length + head.length
  nameEnd := before.length + (head.rdropWhile isTrailing).length
  valueStart := before.length + head.length + 1 + (tail.takeWhile isBlank).length
  valueEnd :=
    before.length + head.length + 1 + (tail.takeWhile isBlank).length +
      ((tail.dropWhile isBlank).rdropWhile isTrailing).length

theorem headerPointers_append {head : Bytes} (hhead : 58 ∉ head) (tail : Bytes) {c : UInt8}
    (hc : c = 10 ∨ c = 0)
    : headerPointers (before ++ (head ++ 58 :: (tail ++ c :: after))) before.length
        (before.length + head.length + 1 + tail.length) = some (some (linePointers before head tail)) := by
  have hall : head.takeWhile (fun c => c != 58) = head := by
    rw [List.takeWhile_eq_self_iff]
    intro d hd
    rw [bne_iff_ne]
    rintro rfl
    exact hhead hd
  have hblank : isBlank c = false := by
    cases hc with
    | inl h => rw [h]; rfl
    | inr h => rw [h]; rfl
  have hcolon : scanUpTo (fun c => c != 58) (before ++ (head ++ 58 :: (tail ++ c :: after)))
      before.length (before.length + head.length + 1 + tail.length) =
        some (before.length + head.length) := by
    have hscan := @scanUpTo_append _ (fun c => c != 58) (head ++ 58 :: tail) before (c :: after)
    rw [List.takeWhile_append_of_pos (List.takeWhile_eq_self_iff.mp hall),
      List.takeWhile_cons_of_neg (by decide), List.append_nil, List.length_append, List.length_cons,
      List.append_assoc, List.cons_append] at hscan
    rw [← hscan]
    congr 1
    omega
  have hnameEnd := @scanBack_append _ isTrailing head before (58 :: (tail ++ c :: after))
  have hvalueStart : scanWhile isBlank (before ++ (head ++ 58 :: (tail ++ c :: after)))
      (before.length + head.length + 1) =
        some (before.length + head.length + 1 + (tail.takeWhile isBlank).length) := by
    have hscan := @scanWhile_append _ isBlank (tail ++ c :: after)
      ⟨c, List.mem_append_right _ List.mem_cons_self, hblank⟩ (before ++ (head ++ [58]))
    rw [takeWhile_append_stop hblank] at hscan
    simpa [Nat.add_assoc] using hscan
  have hvalueEnd : scanBack isTrailing (before ++ (head ++ 58 :: (tail ++ c :: after)))
      (before.length + head.length + 1 + (tail.takeWhile isBlank).length)
      (before.length + head.length + 1 + tail.length) = some (linePointers before head tail).valueEnd := by
    have hscan := @scanBack_append _ isTrailing (tail.dropWhile isBlank)
      (before ++ (head ++ 58 :: tail.takeWhile isBlank)) (c :: after)
    have htail : (tail.takeWhile isBlank).length + (tail.dropWhile isBlank).length = tail.length := by
      rw [← List.length_append, List.takeWhile_append_dropWhile]
    have hbuffer : before ++ (head ++ 58 :: tail.takeWhile isBlank) ++
        (tail.dropWhile isBlank ++ c :: after) = before ++ (head ++ 58 :: (tail ++ c :: after)) := by
      conv => rhs; rw [← List.takeWhile_append_dropWhile (p := isBlank) (l := tail)]
      simp only [List.append_assoc, List.cons_append]
    rw [hbuffer] at hscan
    have hstart : (before ++ (head ++ 58 :: tail.takeWhile isBlank)).length =
        before.length + head.length + 1 + (tail.takeWhile isBlank).length := by
      simp only [List.length_append, List.length_cons]
      omega
    rw [hstart] at hscan
    have hstop : before.length + head.length + 1 + (tail.takeWhile isBlank).length +
        (tail.dropWhile isBlank).length = before.length + head.length + 1 + tail.length := by
      omega
    rw [hstop] at hscan
    exact hscan
  unfold headerPointers
  simp only [Option.bind_eq_bind]
  rw [hcolon, Option.bind_some, if_neg (by omega), hnameEnd, Option.bind_some, hvalueStart,
    Option.bind_some, hvalueEnd]
  rfl

theorem linePointers_within (before head tail : Bytes)
    : (linePointers before head tail).Within (before.length + head.length + 1 + tail.length) := by
  have hname := (List.rdropWhile_prefix isTrailing head).length_le
  have hvalue := (List.rdropWhile_prefix isTrailing (tail.dropWhile isBlank)).length_le
  have htail : (tail.takeWhile isBlank).length + (tail.dropWhile isBlank).length = tail.length := by
    rw [← List.length_append, List.takeWhile_append_dropWhile]
  constructor <;> dsimp only [linePointers] <;> omega

theorem readSlice_self (s : Bytes) : readSlice (s ++ [0]) 0 s.length = some s :=
  readSlice_append s [] [0]

theorem nameMatches_linePointers {head tail : Bytes} (hname : 0 ∉ name)
    : nameMatches (before ++ (head ++ after)) name (linePointers before head tail) =
        some ((head.rdropWhile isTrailing).length == name.length &&
          strncasecmpSimple (head.rdropWhile isTrailing) name
            (head.rdropWhile isTrailing).length == 0) := by
  have hstrlen : strlen name = name.length := by
    unfold strlen
    rw [← cstring, cstring_eq_self (fun c hc h => hname (h ▸ hc))]
  have hlen : (linePointers before head tail).nameEnd - (linePointers before head tail).lineStart =
      (head.rdropWhile isTrailing).length := Nat.add_sub_cancel_left _ _
  have hslice : readSlice (before ++ (head ++ after)) before.length
      (head.rdropWhile isTrailing).length = some (head.rdropWhile isTrailing) := by
    have hread := readSlice_append (head.rdropWhile isTrailing) before
      (head.rtakeWhile isTrailing ++ after)
    rw [← List.append_assoc (head.rdropWhile isTrailing), List.rdropWhile_append_rtakeWhile]
      at hread
    exact hread
  unfold nameMatches
  dsimp only
  rw [hlen, hstrlen]
  split
  . next heq =>
    have hexpected := readSlice_self name
    rw [← heq] at hexpected
    have hstart : (linePointers before head tail).lineStart = before.length := rfl
    rw [hstart, hslice, hexpected, heq, beq_self_eq_true, Bool.true_and]
    rfl
  . next hne => rw [beq_eq_false_iff_ne.mpr hne, Bool.false_and]

theorem valueMatches_linePointers {head tail : Bytes} (hvalue : 0 ∉ value) (htail : 0 ∉ tail)
    : valueMatches (before ++ (head ++ 58 :: (tail ++ after))) value (linePointers before head tail) =
        some (((tail.dropWhile isBlank).rdropWhile isTrailing).length == value.length &&
          (tail.dropWhile isBlank).rdropWhile isTrailing == value) := by
  have hcstring : cstring value = value := cstring_eq_self (fun c hc h => hvalue (h ▸ hc))
  have hstrlen : strlen value = value.length := by
    unfold strlen
    rw [← cstring, hcstring]
  generalize hrun : (tail.dropWhile isBlank).rdropWhile isTrailing = run
  have hsub : ∀ c ∈ run, c ≠ 0 := by
    rintro c hc rfl
    rw [← hrun] at hc
    exact htail ((List.dropWhile_suffix _).subset ((List.rdropWhile_prefix _ _).subset hc))
  have hlen : (linePointers before head tail).valueEnd - (linePointers before head tail).valueStart =
      run.length := by
    dsimp only [linePointers]
    rw [hrun]
    omega
  have hslice : readSlice (before ++ (head ++ 58 :: (tail ++ after)))
      (linePointers before head tail).valueStart run.length = some run := by
    have hread := readSlice_append run (before ++ (head ++ 58 :: tail.takeWhile isBlank))
      ((tail.dropWhile isBlank).rtakeWhile isTrailing ++ after)
    have hbuffer : before ++ (head ++ 58 :: tail.takeWhile isBlank) ++
        (run ++ ((tail.dropWhile isBlank).rtakeWhile isTrailing ++ after)) =
          before ++ (head ++ 58 :: (tail ++ after)) := by
      rw [← List.append_assoc run, ← hrun, List.rdropWhile_append_rtakeWhile]
      simp only [List.append_assoc, List.cons_append]
      rw [← List.append_assoc (tail.takeWhile isBlank), List.takeWhile_append_dropWhile]
    have hstart : (before ++ (head ++ 58 :: tail.takeWhile isBlank)).length =
        (linePointers before head tail).valueStart := by
      dsimp only [linePointers]
      simp only [List.length_append, List.length_cons]
      omega
    rw [hbuffer, hstart] at hread
    exact hread
  unfold valueMatches
  dsimp only
  rw [hlen, hstrlen]
  split
  . next heq =>
    have hexpected := readSlice_self value
    rw [← heq] at hexpected
    rw [hslice, hexpected, heq, beq_self_eq_true, Bool.true_and]
    dsimp only [Option.bind_eq_bind, Option.bind_some, Option.pure_def]
    rw [hcstring, cstring_eq_self hsub]
  . next hne => rw [beq_eq_false_iff_ne.mpr hne, Bool.false_and]

theorem headerLineScan_eq {c : UInt8} (hline : 0 ∉ line) (hname : 0 ∉ name) (hvalue : 0 ∉ value)
    (hc : c = 10 ∨ c = 0)
    : ∃ used,
        headerLineScan (before ++ (line ++ c :: after)) name value before.length
            (before.length + line.length) = some (headerLineMatches line name value, used) ∧
          ∀ p ∈ used, p.Within (before.length + line.length) := by
  by_cases hcolon : 58 ∈ line
  . obtain ⟨head, tail, rfl, hhead⟩ := List.eq_append_cons_of_mem hcolon
    have hlength : before.length + (head ++ 58 :: tail).length =
        before.length + head.length + 1 + tail.length := by
      rw [List.length_append, List.length_cons]
      omega
    have htail : 0 ∉ tail := by
      intro h
      exact hline (List.mem_append_right _ (List.mem_cons_of_mem _ h))
    refine ⟨[linePointers before head tail], ?_, ?_⟩
    . unfold headerLineScan
      rw [hlength, List.append_assoc, List.cons_append, headerPointers_append hhead tail hc]
      dsimp only [Option.bind_eq_bind, Option.bind_some]
      rw [nameMatches_linePointers hname, valueMatches_linePointers hvalue htail,
        headerLineMatches_append hhead]
      rfl
    . intro p hp
      rw [List.mem_singleton] at hp
      rw [hp, hlength]
      exact linePointers_within before head tail
  . refine ⟨[], ?_, ?_⟩
    . unfold headerLineScan
      rw [headerPointers_of_no_colon hcolon, headerLineMatches_of_no_colon hcolon]
      rfl
    . intro p hp
      cases hp

theorem headerScan_nil : headerScan (before ++ [0]) name value before.length = some (false, []) := by
  rw [headerScan, dif_pos (by simp), if_pos (by simp)]

theorem headerScan_line {buffer : Bytes} {lineStart lineEnd : Nat} {found : Bool}
    {used : List HeaderPointers} (hfirst : ∃ c, buffer[lineStart]? = some c ∧ c ≠ 0)
    (hend : scanWhile (fun c => c != 10 && c != 0) buffer lineStart = some lineEnd)
    (hline : headerLineScan buffer name value lineStart lineEnd = some (found, used))
    : headerScan buffer name value lineStart =
        if found then some (true, used)
        else if buffer[lineEnd]? = some 0 then some (false, used)
        else (headerScan buffer name value (lineEnd + 1)).map fun (found, rest) => (found, used ++ rest)
    := by
  obtain ⟨c, hc, hne⟩ := hfirst
  obtain ⟨hlt, heq⟩ := List.getElem?_eq_some_iff.mp hc
  rw [headerScan, dif_pos hlt, if_neg (heq ▸ hne)]
  split
  . next hnone =>
    rw [hend] at hnone
    cases hnone
  . next stop hsome =>
    rw [hend, Option.some.injEq] at hsome
    rw [← hsome, hline]

-- The end of a line is the newline behind it, or the terminator of the text.
theorem scanWhile_lineEnd {c : UInt8} (hline : 10 ∉ line) (hzero : 0 ∉ line) (hc : c = 10 ∨ c = 0)
    : scanWhile (fun c => c != 10 && c != 0) (before ++ (line ++ c :: after)) before.length =
        some (before.length + line.length) := by
  have hstop : (c != 10 && c != 0) = false := by
    cases hc with
    | inl h => rw [h]; rfl
    | inr h => rw [h]; rfl
  have hscan := @scanWhile_append _ (fun c => c != 10 && c != 0) (line ++ c :: after)
    ⟨c, List.mem_append_right line List.mem_cons_self, hstop⟩ before
  have hall : line.takeWhile (fun c => c != 10 && c != 0) = line := by
    rw [List.takeWhile_eq_self_iff]
    intro d hd
    rw [Bool.and_eq_true, bne_iff_ne, bne_iff_ne]
    exact ⟨fun h => hline (h ▸ hd), fun h => hzero (h ▸ hd)⟩
  rw [@takeWhile_append_stop _ (fun c => c != 10 && c != 0) c hstop, hall] at hscan
  exact hscan

theorem headerScan_eq {text : Bytes} (htext : 0 ∉ text) (hname : 0 ∉ name) (hvalue : 0 ∉ value)
    (before : Bytes)
    : ∃ used,
        headerScan (before ++ (text ++ [0])) name value before.length =
            some (headerLinesContain text name value, used) ∧
          ∀ p ∈ used, p.Within (before.length + text.length) := by
  by_cases hnil : text = []
  . refine ⟨[], ?_, by intro p hp; cases hp⟩
    rw [hnil, List.nil_append, headerScan_nil, headerLinesContain_nil]
  have hfirst : ∃ c, (before ++ (text ++ [0]))[before.length]? = some c ∧ c ≠ 0 := by
    obtain ⟨c, rest, hcons⟩ := List.exists_cons_of_ne_nil hnil
    refine ⟨c, by simp [hcons], ?_⟩
    rintro rfl
    exact htext (hcons ▸ List.mem_cons_self)
  by_cases hnewline : 10 ∈ text
  . obtain ⟨line, rest, hsplit, hline⟩ := List.eq_append_cons_of_mem hnewline
    rw [hsplit, List.mem_append, List.mem_cons, not_or, not_or] at htext
    obtain ⟨used, hscan, hwithin⟩ :=
      @headerLineScan_eq name value before line (rest ++ [0]) 10 htext.1 hname hvalue (.inl rfl)
    have hend := @scanWhile_lineEnd before line (rest ++ [0]) 10 hline htext.1 (.inl rfl)
    have hshorter : rest.length < text.length := by
      rw [hsplit, List.length_append, List.length_cons]
      omega
    obtain ⟨usedRest, hscanRest, hwithinRest⟩ :=
      headerScan_eq htext.2.2 hname hvalue (before ++ (line ++ [10]))
    have hbuffer : before ++ (line ++ [10]) ++ (rest ++ [0]) = before ++ (text ++ [0]) := by
      rw [hsplit]
      simp only [List.append_assoc, List.cons_append, List.nil_append]
    have hnext : (before ++ (line ++ [10])).length = before.length + line.length + 1 := by
      simp only [List.length_append, List.length_singleton]
      omega
    have hnewlineAt : (before ++ (text ++ [0]))[before.length + line.length]? ≠ some 0 := by
      rw [hsplit]
      simp
    have hlength : before.length + text.length = before.length + line.length + 1 + rest.length := by
      rw [hsplit, List.length_append, List.length_cons]
      omega
    rw [hbuffer, hnext] at hscanRest
    rw [hnext] at hwithinRest
    rw [← List.cons_append, ← List.append_assoc line, ← hsplit] at hscan hend
    rw [headerScan_line hfirst hend hscan, if_neg hnewlineAt, hscanRest, hsplit,
      headerLinesContain_cons hline]
    rw [← hsplit, hlength]
    cases headerLineMatches line name value with
    | true => exact ⟨used, rfl, fun p hp => (hwithin p hp).mono (by omega)⟩
    | false =>
      refine ⟨used ++ usedRest, rfl, ?_⟩
      intro p hp
      cases List.mem_append.mp hp with
      | inl hp => exact (hwithin p hp).mono (by omega)
      | inr hp => exact hwithinRest p hp
  . obtain ⟨used, hscan, hwithin⟩ :=
      @headerLineScan_eq name value before text [] 0 htext hname hvalue (.inr rfl)
    have hend := @scanWhile_lineEnd before text [] 0 hnewline htext (.inr rfl)
    have hterminator : (before ++ (text ++ [0]))[before.length + text.length]? = some 0 := by
      simp
    refine ⟨used, ?_, hwithin⟩
    rw [headerScan_line hfirst hend hscan, if_pos hterminator, headerLinesContain_line hnewline]
    cases headerLineMatches text name value <;> rfl
termination_by text.length

theorem zero_not_mem_splitOn {text : Bytes} (htext : 0 ∉ text)
    : ∀ line ∈ text.splitOn 10, 0 ∉ line := by
  by_cases hnewline : 10 ∈ text
  . obtain ⟨line, rest, rfl, hline⟩ := List.eq_append_cons_of_mem hnewline
    rw [List.mem_append, List.mem_cons, not_or, not_or] at htext
    rw [List.splitOn_append_cons_self_of_not_mem hline, List.forall_mem_cons]
    exact ⟨htext.1, zero_not_mem_splitOn htext.2.2⟩
  . rw [List.splitOn_eq_singleton hnewline, List.forall_mem_singleton]
    exact htext
termination_by text.length
decreasing_by
  subst_vars
  rw [List.length_append, List.length_cons]
  omega

theorem headerLinesContain_iff {text : Bytes} (htext : 0 ∉ text)
    : headerLinesContain text name value = true ↔ HeaderSays text name value := by
  have hlines := zero_not_mem_splitOn htext
  rw [headerLinesContain_splitOn, List.any_eq_true]
  unfold HeaderSays
  constructor
  . rintro ⟨line, hline, hmatch⟩
    exact ⟨line, hline, (headerLineMatches_iff (hlines line hline)).mp hmatch⟩
  . rintro ⟨line, hline, hmeaning⟩
    exact ⟨line, hline, (headerLineMatches_iff (hlines line hline)).mpr hmeaning⟩

/-- The verdict of a header assertion is its meaning, and the scan that finds it reads nothing but
the text and the expected strings, with every pointer inside of its line. -/
theorem headerContains_correct (resp : Response) {text : Bytes} (htext : 0 ∉ text) (hname : 0 ∉ name)
    (hvalue : 0 ∉ value) (hheaders : resp.headers = some text)
    : ((evalAssertion (some resp)
            (some ⟨.headerContains, .header ⟨some name, some value⟩⟩)).passed = true ↔
          HeaderSays text name value) ∧
        ∃ used,
          headerScan (text ++ [0]) name value 0 =
              some ((evalAssertion (some resp)
                (some ⟨.headerContains, .header ⟨some name, some value⟩⟩)).passed, used) ∧
            ∀ p ∈ used, p.Within text.length := by
  have hself (s : Bytes) (hs : 0 ∉ s) : cstring s = s := cstring_eq_self (fun c hc h => hs (h ▸ hc))
  rw [passed_headerContains]
  unfold headerContains
  rw [hheaders]
  dsimp only
  rw [hself text htext, hself name hname, hself value hvalue]
  refine ⟨headerLinesContain_iff htext, ?_⟩
  obtain ⟨used, hscan, hwithin⟩ := headerScan_eq htext hname hvalue []
  rw [List.nil_append, List.length_nil] at hscan
  rw [List.length_nil, Nat.zero_add] at hwithin
  exact ⟨used, hscan, hwithin⟩

theorem headerContains_correct_folded :
    (evalAssertion (some { Response.zero with headers := some (ascii "A: 1\nHost :\t x:y \r\n") })
        (some ⟨.headerContains, .header ⟨some (ascii "hOST"), some (ascii "x:y")⟩⟩)).passed = true := by
  obtain ⟨hiff, _⟩ :=
    @headerContains_correct (ascii "hOST") (ascii "x:y")
      { Response.zero with headers := some (ascii "A: 1\nHost :\t x:y \r\n") }
      (ascii "A: 1\nHost :\t x:y \r\n") (by decide) (by decide) (by decide) rfl
  apply hiff.mpr
  refine ⟨ascii "Host :\t x:y \r", by decide, ascii "Host ", ascii "\t x:y \r", ?_⟩
  constructor <;> decide

end HttpRuntime
