import HttpRuntime.Cli.Parser
import HttpRuntime.Core.HeaderLines

/-!
This module contains the hex patterns: `parse_hex_bytes` of `cli_parser.c` with its output pointers,
`print_byte_value` of `cli_output.c`, and that the one reads what the other prints.
-/

open Lib

namespace HttpRuntime

/-- What `out_data` and `out_len` point to. -/
structure HexOut where
  data : Option Bytes
  len : Nat
  deriving DecidableEq, Repr

def parseHexBytesTo (hex : Option Bytes) (out : HexOut) (alloc : Bool) : Bool × HexOut :=
  match hex with
  | none => (false, out)
  | some hex =>
    let hexLen := strlen hex
    if hexLen = 0 ∨ hexLen % 2 ≠ 0 then
      (false, out)
    else
      let byteLen := hexLen / 2
      if !alloc then
        (false, out)
      else
        match parseHexDigits (cstring hex) with
        | none => (false, out)
        | some data => (true, ⟨some data, byteLen⟩)

def isprint (c : UInt8) : Bool := 32 ≤ c && c ≤ 126

def isPrintableBytes (data : Bytes) : Bool :=
  data.all (fun c => c == 10 || c == 13 || c == 9 || isprint c)

-- A digit of `%X`.
def upperHexDigit (n : Nat) : UInt8 := if n < 10 then (48 + n).toUInt8 else (55 + n).toUInt8

-- The loop that prints each byte with `%02X`.
def printHexBytes (data : Bytes) : Bytes :=
  data.flatMap (fun c => [upperHexDigit (c.toNat / 16), upperHexDigit (c.toNat % 16)])

-- What is printed.
def printByteValue (data : Option Bytes) : Bytes :=
  match data with
  | none => ascii "<null>"
  | some data =>
    if isPrintableBytes data then [34] ++ data ++ [34] else ascii "hex:" ++ printHexBytes data

section Digits

variable {hex bytes : Bytes} {c : UInt8}

/-- Two digits for each byte, the high one first. -/
inductive HexOf : Bytes → Bytes → Prop where
  | nil : HexOf [] []
  | cons {hi lo byte : UInt8} {hex bytes : Bytes} (hhi : hexDigitValue hi = (byte.toNat / 16 : Nat))
      (hlo : hexDigitValue lo = (byte.toNat % 16 : Nat)) (h : HexOf hex bytes)
    : HexOf (hi :: lo :: hex) (byte :: bytes)

theorem isxdigit_iff
    : isxdigit c = true ↔ 48 ≤ c.toNat ∧ c.toNat ≤ 57 ∨ 65 ≤ c.toNat ∧ c.toNat ≤ 70 ∨
        97 ≤ c.toNat ∧ c.toNat ≤ 102 := by
  have hcodes : (48 : UInt8).toNat = 48 ∧ (57 : UInt8).toNat = 57 ∧ (97 : UInt8).toNat = 97 ∧
      (102 : UInt8).toNat = 102 ∧ (65 : UInt8).toNat = 65 ∧ (70 : UInt8).toNat = 70 := by
    decide
  simp only [isxdigit, isdigit, UInt8.le_iff_toNat_le, Bool.or_eq_true, Bool.and_eq_true, decide_eq_true_iff]
  omega

-- The value of a digit by its kind.
theorem hexDigitValue_cases (c : UInt8)
    : 48 ≤ c.toNat ∧ c.toNat ≤ 57 ∧ hexDigitValue c = c.toNat - 48 ∨
        65 ≤ c.toNat ∧ c.toNat ≤ 70 ∧ hexDigitValue c = c.toNat - 55 ∨
        97 ≤ c.toNat ∧ c.toNat ≤ 102 ∧ hexDigitValue c = c.toNat - 87 ∨
        ¬ isxdigit c = true ∧ hexDigitValue c = -1 := by
  have hcodes : (48 : UInt8).toNat = 48 ∧ (57 : UInt8).toNat = 57 ∧ (97 : UInt8).toNat = 97 ∧
      (102 : UInt8).toNat = 102 ∧ (65 : UInt8).toNat = 65 ∧ (70 : UInt8).toNat = 70 := by
    decide
  rw [isxdigit_iff]
  unfold hexDigitValue
  simp only [UInt8.le_iff_toNat_le]
  split
  . omega
  . split
    . omega
    . split
      . omega
      . omega

theorem hexDigitValue_lt (c : UInt8) : hexDigitValue c < 16 := by
  have hcases := hexDigitValue_cases c
  omega

theorem hexDigitValue_nonneg_iff : 0 ≤ hexDigitValue c ↔ isxdigit c = true := by
  have hcases := hexDigitValue_cases c
  rw [isxdigit_iff] at hcases ⊢
  omega

theorem toNat_upperHexDigit {n : Nat} (h : n < 16)
    : (upperHexDigit n).toNat = if n < 10 then 48 + n else 55 + n := by
  unfold upperHexDigit
  split
  . rw [Nat.toUInt8_eq, UInt8.toNat_ofNat']
    omega
  . rw [Nat.toUInt8_eq, UInt8.toNat_ofNat']
    omega

theorem hexDigitValue_upperHexDigit {n : Nat} (h : n < 16) : hexDigitValue (upperHexDigit n) = n := by
  have htoNat := toNat_upperHexDigit h
  have hcases := hexDigitValue_cases (upperHexDigit n)
  rw [isxdigit_iff] at hcases
  split at htoNat
  . omega
  . omega

theorem upperHexDigit_hexDigitValue (h : 0 ≤ hexDigitValue c)
    : upperHexDigit (hexDigitValue c).toNat = toupper c := by
  have hcodes : (97 : UInt8).toNat = 97 ∧ (122 : UInt8).toNat = 122 ∧ (32 : UInt8).toNat = 32 := by
    decide
  have hlt := hexDigitValue_lt c
  have htoNat := @toNat_upperHexDigit (hexDigitValue c).toNat (by omega)
  have hcases := hexDigitValue_cases c
  apply UInt8.toNat_inj.mp
  rw [htoNat]
  unfold toupper
  simp only [UInt8.le_iff_toNat_le]
  split
  . rw [if_neg (by omega)]
    omega
  . split
    . have hle : (32 : UInt8) ≤ c := UInt8.le_iff_toNat_le.mpr (by omega)
      rw [UInt8.toNat_sub_of_le _ _ hle]
      omega
    . omega

end Digits

section Patterns

variable {hex bytes : Bytes} {alloc : Bool}

theorem HexOf.length_eq (h : HexOf hex bytes) : hex.length = 2 * bytes.length := by
  induction h with
  | nil => rfl
  | cons _ _ _ ih =>
    simp only [List.length_cons]
    omega

-- The byte of two digits.
theorem toUInt8_digits {hi lo : Nat} (hhi : hi < 16) (hlo : lo < 16)
    : (((hi <<< 4) ||| lo).toUInt8).toNat = 16 * hi + lo := by
  have hor : hi <<< 4 ||| lo = hi <<< 4 + lo := (Nat.shiftLeft_add_eq_or_of_lt hlo hi).symm
  rw [hor, Nat.toUInt8_eq, UInt8.toNat_ofNat', Nat.shiftLeft_eq]
  omega

theorem HexOf.cons_digits {hi lo : UInt8} (hhi : 0 ≤ hexDigitValue hi) (hlo : 0 ≤ hexDigitValue lo)
    (h : HexOf hex bytes)
    : HexOf (hi :: lo :: hex)
        (((hexDigitValue hi).toNat <<< 4 ||| (hexDigitValue lo).toNat).toUInt8 :: bytes) := by
  have hlt := hexDigitValue_lt hi
  have hlt' := hexDigitValue_lt lo
  have hbyte := @toUInt8_digits (hexDigitValue hi).toNat (hexDigitValue lo).toNat (by omega) (by omega)
  apply HexOf.cons
  . omega
  . omega
  . exact h

theorem HexOf.unique {bytes' : Bytes} (h : HexOf hex bytes) (h' : HexOf hex bytes') : bytes = bytes' := by
  induction h generalizing bytes' with
  | nil =>
    cases h'
    rfl
  | @cons _ _ byte _ _ hhi hlo _ ih =>
    cases h' with
    | @cons _ _ byte' _ _ hhi' hlo' hrest =>
      have hbyte : byte = byte' := by
        apply UInt8.toNat_inj.mp
        omega
      rw [hbyte, ih hrest]

/-- The loop of `parse_hex_bytes` finds the bytes that the digits spell. -/
theorem parseHexDigits_iff (heven : hex.length % 2 = 0)
    : parseHexDigits hex = some bytes ↔ HexOf hex bytes := by
  fun_induction parseHexDigits hex generalizing bytes with
  | case1 hi lo hex hneg =>
    constructor
    . intro h
      cases h
    . intro h
      cases h with
      | cons hhi hlo _ => omega
  | case2 hi lo hex hpos byte =>
    rename_i ih
    rw [not_or, Int.not_lt, Int.not_lt] at hpos
    have heven' : hex.length % 2 = 0 := by
      simp only [List.length_cons] at heven
      omega
    rw [Option.map_eq_some_iff]
    constructor
    . rintro ⟨bytes', hbytes', rfl⟩
      exact .cons_digits hpos.1 hpos.2 ((ih heven').mp hbytes')
    . intro h
      cases h with
      | cons hhi hlo hrest =>
        refine ⟨_, (ih heven').mpr hrest, ?_⟩
        exact (HexOf.cons_digits hpos.1 hpos.2 hrest).unique (.cons hhi hlo hrest)
  | case3 hex hshort =>
    match hex, hshort with
    | [], _ =>
      constructor
      . intro h
        rw [← Option.some.inj h]
        exact .nil
      . intro h
        cases h
        rfl
    | [c], _ => cases heven
    | hi :: lo :: hex, hshort => exact absurd rfl (hshort hi lo hex)

theorem exists_hexOf {hex : Bytes} (heven : hex.length % 2 = 0) (hdigits : ∀ c ∈ hex, 0 ≤ hexDigitValue c)
    : ∃ bytes, HexOf hex bytes := by
  match hex with
  | [] => exact ⟨[], .nil⟩
  | [c] => cases heven
  | hi :: lo :: hex =>
    rw [List.forall_mem_cons, List.forall_mem_cons] at hdigits
    have heven' : hex.length % 2 = 0 := by
      simp only [List.length_cons] at heven
      omega
    obtain ⟨bytes, hbytes⟩ := exists_hexOf heven' hdigits.2.2
    exact ⟨_, .cons_digits hdigits.1 hdigits.2.1 hbytes⟩

theorem HexOf.digits (h : HexOf hex bytes) : ∀ c ∈ hex, 0 ≤ hexDigitValue c := by
  induction h with
  | nil => simp
  | cons hhi hlo _ ih =>
    rw [List.forall_mem_cons, List.forall_mem_cons]
    exact ⟨by omega, by omega, ih⟩

structure HexPattern (hex : Bytes) : Prop where
  ne_nil : hex ≠ []
  even : hex.length % 2 = 0
  digits : ∀ c ∈ hex, 0 ≤ hexDigitValue c

theorem hexPattern_iff : HexPattern hex ↔ hex ≠ [] ∧ ∃ bytes, HexOf hex bytes := by
  constructor
  . intro h
    exact ⟨h.ne_nil, exists_hexOf h.even h.digits⟩
  . rintro ⟨hne, bytes, h⟩
    have hlength := h.length_eq
    exact ⟨hne, by omega, h.digits⟩

/-- The digits that are printed for some bytes spell them. -/
theorem hexOf_printHexBytes (bytes : Bytes) : HexOf (printHexBytes bytes) bytes := by
  induction bytes with
  | nil => exact .nil
  | cons byte bytes ih =>
    have hlt := byte.toNat_lt
    apply HexOf.cons
    . apply hexDigitValue_upperHexDigit
      omega
    . apply hexDigitValue_upperHexDigit
      omega
    . exact ih

theorem HexOf.printHexBytes_eq (h : HexOf hex bytes) : printHexBytes bytes = hex.map toupper := by
  induction h with
  | nil => rfl
  | @cons hi lo byte hex bytes hhi hlo h ih =>
    have hhigh := @upperHexDigit_hexDigitValue hi (by omega)
    have hlow := @upperHexDigit_hexDigitValue lo (by omega)
    rw [hhi, Int.toNat_natCast] at hhigh
    rw [hlo, Int.toNat_natCast] at hlow
    unfold printHexBytes at ih ⊢
    rw [List.flatMap_cons, ih, hhigh, hlow]
    rfl

theorem parseHexBytes_iff
    : parseHexBytes (some hex) true = some bytes ↔ cstring hex ≠ [] ∧ HexOf (cstring hex) bytes := by
  have hstrlen : strlen hex = (cstring hex).length := rfl
  unfold parseHexBytes
  dsimp only
  rw [hstrlen]
  split
  . next hlength =>
    constructor
    . intro h
      cases h
    . rintro ⟨hne, h⟩
      have hpos := List.length_pos_of_ne_nil hne
      have heven := h.length_eq
      omega
  . next hlength =>
    rw [not_or, not_not] at hlength
    rw [Bool.not_true, if_neg (by decide), parseHexDigits_iff hlength.2]
    exact ⟨fun h => ⟨fun hnil => hlength.1 (List.length_eq_zero_iff.mpr hnil), h⟩, And.right⟩

theorem parseHexBytes_eq_some
    : (∃ bytes, parseHexBytes (some hex) true = some bytes) ↔ HexPattern (cstring hex) := by
  rw [hexPattern_iff]
  simp only [parseHexBytes_iff, exists_and_left]

theorem alloc_of_parseHexBytes (h : parseHexBytes (some hex) alloc = some bytes) : alloc = true := by
  cases alloc with
  | true => rfl
  | false => simp [parseHexBytes] at h

end Patterns

section RoundTrip

variable {hex bytes : Bytes} {out : HexOut} {alloc : Bool}

/-- The output pointers are written if and only if there is a result, and then with it. -/
theorem parseHexBytesTo_eq (hex : Option Bytes) (out : HexOut) (alloc : Bool)
    : parseHexBytesTo hex out alloc =
        match parseHexBytes hex alloc with
        | none => (false, out)
        | some bytes => (true, ⟨some bytes, bytes.length⟩) := by
  cases hex with
  | none => rfl
  | some hex =>
    have hstrlen : strlen hex = (cstring hex).length := rfl
    unfold parseHexBytesTo parseHexBytes
    dsimp only
    split
    . rfl
    . next hlength =>
      rw [not_or, not_not] at hlength
      cases alloc with
      | false => rfl
      | true =>
        rw [Bool.not_true, if_neg (by decide), if_neg (by decide)]
        cases hparse : parseHexDigits (cstring hex) with
        | none => rfl
        | some bytes =>
          have hspelled := (parseHexDigits_iff (hstrlen ▸ hlength.2)).mp hparse
          have hlen := hspelled.length_eq
          dsimp only
          rw [hstrlen, hlen, Nat.mul_div_cancel_left _ (by decide)]

theorem parseHexBytesTo_failed {hex : Option Bytes} (h : (parseHexBytesTo hex out alloc).1 = false)
    : (parseHexBytesTo hex out alloc).2 = out := by
  rw [parseHexBytesTo_eq] at h ⊢
  cases hparse : parseHexBytes hex alloc with
  | none => rfl
  | some bytes =>
    rw [hparse] at h
    cases h

theorem parseHexBytesTo_succeeds_iff (hhex : 0 ∉ hex)
    : (parseHexBytesTo (some hex) out true).1 = true ↔
        ∃ bytes, hex ≠ [] ∧ HexOf hex bytes ∧
          parseHexBytesTo (some hex) out true = (true, ⟨some bytes, bytes.length⟩) := by
  have hparse := @parseHexBytes_iff hex
  rw [cstring_eq_self (fun c hc heq => hhex (heq ▸ hc))] at hparse
  rw [parseHexBytesTo_eq]
  constructor
  . intro h
    cases hbytes : parseHexBytes (some hex) true with
    | none =>
      rw [hbytes] at h
      cases h
    | some bytes =>
      obtain ⟨hne, hspelled⟩ := hparse.mp hbytes
      exact ⟨bytes, hne, hspelled, rfl⟩
  . rintro ⟨bytes, hne, hspelled, _⟩
    rw [hparse.mpr ⟨hne, hspelled⟩]

theorem HexOf.zero_not_mem (h : HexOf hex bytes) : 0 ∉ hex := by
  intro hmem
  have hzero := h.digits 0 hmem
  revert hzero
  decide

theorem HexOf.parseHexBytesTo (h : HexOf hex bytes) (hne : hex ≠ [])
    : parseHexBytesTo (some hex) out true = (true, ⟨some bytes, bytes.length⟩) := by
  have hparse : parseHexBytes (some hex) true = some bytes := by
    rw [parseHexBytes_iff, cstring_eq_self (fun c hc heq => h.zero_not_mem (heq ▸ hc))]
    exact ⟨hne, h⟩
  rw [parseHexBytesTo_eq, hparse]

/--
The digits printed for some bytes are read as these bytes. What is read are the digits of bytes, which
are printed again in upper case, and what is not read leaves the outputs as they are.
-/
theorem parseHexBytesTo_round_trip
    : (∀ b out, b ≠ [] →
          (isPrintableBytes b = false → printByteValue (some b) = ascii "hex:" ++ printHexBytes b) ∧
          (printHexBytes b).length = 2 * b.length ∧
          (printHexBytes b).map toupper = printHexBytes b ∧
          parseHexBytesTo (some (printHexBytes b)) out true = (true, ⟨some b, b.length⟩)) ∧
        (∀ hex out, 0 ∉ hex →
          ((parseHexBytesTo (some hex) out true).1 = true ↔
            hex ≠ [] ∧ hex.length % 2 = 0 ∧ ∀ c ∈ hex, isxdigit c = true) ∧
          ((parseHexBytesTo (some hex) out true).1 = true → ∃ b,
            (parseHexBytesTo (some hex) out true).2 = ⟨some b, b.length⟩ ∧
              printHexBytes b = hex.map toupper)) ∧
        ∀ hex out alloc, (parseHexBytesTo hex out alloc).1 = false →
          (parseHexBytesTo hex out alloc).2 = out := by
  refine ⟨?_, ?_, fun hex out alloc => parseHexBytesTo_failed⟩
  . intro b out hne
    have hspelled := hexOf_printHexBytes b
    refine ⟨?_, hspelled.length_eq, hspelled.printHexBytes_eq.symm, hspelled.parseHexBytesTo ?_⟩
    . intro hprint
      unfold printByteValue
      dsimp only
      rw [hprint, if_neg (by decide)]
    . intro hnil
      have hlength := hspelled.length_eq
      have hpos := List.length_pos_of_ne_nil hne
      rw [hnil, List.length_nil] at hlength
      omega
  . intro hex out hhex
    rw [parseHexBytesTo_succeeds_iff hhex]
    constructor
    . constructor
      . rintro ⟨b, hne, hspelled, _⟩
        have hlength := hspelled.length_eq
        exact ⟨hne, by omega, fun c hc => hexDigitValue_nonneg_iff.mp (hspelled.digits c hc)⟩
      . rintro ⟨hne, heven, hdigits⟩
        obtain ⟨b, hspelled⟩ := exists_hexOf heven (fun c hc => hexDigitValue_nonneg_iff.mpr (hdigits c hc))
        exact ⟨b, hne, hspelled, hspelled.parseHexBytesTo hne⟩
    . rintro ⟨b, _, hspelled, hparse⟩
      rw [hparse]
      exact ⟨b, rfl, hspelled.printHexBytes_eq⟩

theorem parseHexBytesTo_round_trip_bytes
    : parseHexBytesTo (some (ascii "00FF")) ⟨none, 0⟩ true = (true, ⟨some [0, 255], 2⟩) := by
  have hprinted : printHexBytes [0, 255] = ascii "00FF" := by decide +kernel
  have hread := (parseHexBytesTo_round_trip.1 [0, 255] ⟨none, 0⟩ (by decide)).2.2.2
  rw [hprinted] at hread
  exact hread

end RoundTrip

end HttpRuntime
