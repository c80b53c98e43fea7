import HttpRuntime.Lib.CInt
import Mathlib.Data.List.TakeWhile

/-!
This module contains what programs use of `ctype.h` in the C locale, and the reading of a decimal
number by `atoi`.
-/

namespace Lib

def ascii (s : String) : List UInt8 :=
  s.toList.map (fun c => c.toNat.toUInt8)

def isdigit (c : UInt8) : Bool := 48 ≤ c && c ≤ 57

def isalpha (c : UInt8) : Bool := 65 ≤ c && c ≤ 90 || 97 ≤ c && c ≤ 122

def isalnum (c : UInt8) : Bool := isalpha c || isdigit c

def isxdigit (c : UInt8) : Bool := isdigit c || 65 ≤ c && c ≤ 70 || 97 ≤ c && c ≤ 102

def toupper (c : UInt8) : UInt8 := if 97 ≤ c ∧ c ≤ 122 then c - 32 else c

def isspace (c : UInt8) : Bool := c == 32 || 9 ≤ c && c ≤ 13

def digitsValue (s : List UInt8) : Nat :=
  s.foldl (fun n c => 10 * n + (c.toNat - 48)) 0

/-- `strtol(s, NULL, 10)` with a `long` of 64 bits. -/
def strtol (s : List UInt8) : Int :=
  let s := s.dropWhile isspace
  let negative := s.head? == some 45
  let s := if negative || s.head? == some 43 then s.tail else s
  let n := digitsValue (s.takeWhile isdigit)
  if negative then max (-(n : Int)) (-2 ^ 63) else min (n : Int) (2 ^ 63 - 1)

def atoi (s : List UInt8) : Int := toInt (strtol s)

theorem not_isspace_of_isdigit {c : UInt8} (h : isdigit c = true) : isspace c = false := by
  grind [isdigit, isspace]

/-- A decimal integer, with or without a sign. -/
inductive Decimal : List UInt8 → Int → Prop where
  | digits {s : List UInt8} (hne : s ≠ []) (hs : ∀ c ∈ s, isdigit c = true) : Decimal s (digitsValue s)
  | plus {s : List UInt8} (hne : s ≠ []) (hs : ∀ c ∈ s, isdigit c = true)
    : Decimal (43 :: s) (digitsValue s)
  | minus {s : List UInt8} (hne : s ≠ []) (hs : ∀ c ∈ s, isdigit c = true)
    : Decimal (45 :: s) (-digitsValue s)

theorem strtol_of_digits {s : List UInt8} (hs : ∀ c ∈ s, isdigit c = true)
    : strtol s = min (digitsValue s : Int) (2 ^ 63 - 1) := by
  have hspace : s.dropWhile isspace = s := by
    cases s with
    | nil => rfl
    | cons c cs =>
      have hc := not_isspace_of_isdigit (hs c List.mem_cons_self)
      simp [hc]
  have hsign (sign : UInt8) (h : isdigit sign = false) : (s.head? == some sign) = false := by
    cases s with
    | nil => rfl
    | cons c cs =>
      have hne : c ≠ sign := by
        intro heq
        have := hs c List.mem_cons_self
        rw [heq, h] at this
        cases this
      simp [hne]
  have htake : s.takeWhile isdigit = s := List.takeWhile_eq_self_iff.mpr hs
  unfold strtol
  dsimp only
  rw [hspace, hsign 45 (by decide), hsign 43 (by decide)]
  simp only [Bool.or_false, Bool.false_eq_true, if_false]
  rw [htake]

theorem strtol_of_decimal {s : List UInt8} {n : Int} (h : Decimal s n)
    : strtol s = max (min n (2 ^ 63 - 1)) (-2 ^ 63) := by
  cases h with
  | digits hne hs =>
    rw [strtol_of_digits hs]
    omega
  | @plus s hne hs =>
    have htake : s.takeWhile isdigit = s := List.takeWhile_eq_self_iff.mpr hs
    have heq : strtol (43 :: s) = min (digitsValue (s.takeWhile isdigit) : Int) (2 ^ 63 - 1) := rfl
    rw [heq, htake]
    omega
  | @minus s hne hs =>
    have htake : s.takeWhile isdigit = s := List.takeWhile_eq_self_iff.mpr hs
    have heq : strtol (45 :: s) = max (-(digitsValue (s.takeWhile isdigit) : Int)) (-2 ^ 63) := rfl
    rw [heq, htake]
    omega

theorem atoi_eq_iff_of_decimal {s : List UInt8} {n : Int} (h : Decimal s n)
    : atoi s = n ↔ -2 ^ 31 ≤ n ∧ n < 2 ^ 31 := by
  unfold atoi
  rw [strtol_of_decimal h]
  unfold toInt
  omega

theorem atoi_of_digits {s : List UInt8} (hdigits : ∀ c ∈ s, isdigit c = true)
    (hfit : digitsValue s < 2 ^ 31) : atoi s = digitsValue s := by
  unfold atoi
  rw [strtol_of_digits hdigits, min_eq_left (by omega)]
  exact toInt_ofNat hfit

theorem Decimal.unique {s : List UInt8} {n n' : Int} (h : Decimal s n) (h' : Decimal s n') : n = n' := by
  have hplus : isdigit 43 = false := by decide
  have hminus : isdigit 45 = false := by decide
  cases h with
  | digits _ hs => cases h' <;> grind
  | plus _ hs => cases h' <;> grind
  | minus _ hs => cases h' <;> grind

end Lib
