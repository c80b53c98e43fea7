import HttpRuntime.Lib.CType

/-!
This module contains the decimal digits of a number, and how `atoi` reads them back.
-/

namespace Lib

def digit (n : Nat) : UInt8 := UInt8.ofNat (48 + n)

def decimal (n : Nat) : List UInt8 :=
  if n < 10 then [digit n] else decimal (n / 10) ++ [digit (n % 10)]

theorem toNat_digit {n : Nat} (h : n < 10) : (digit n).toNat = 48 + n := by
  unfold digit
  rw [UInt8.toNat_ofNat']
  omega

theorem isdigit_digit {n : Nat} (h : n < 10) : isdigit (digit n) = true := by
  have hvalue := toNat_digit h
  unfold isdigit
  simp only [Bool.and_eq_true, decide_eq_true_eq, UInt8.le_iff_toNat_le]
  simp only [UInt8.toNat_ofNat]
  omega

theorem isdigit_of_mem_decimal {n : Nat} {c : UInt8} (h : c ∈ decimal n) : isdigit c = true := by
  induction n using Nat.strongRecOn with
  | ind n ih =>
    unfold decimal at h
    split at h
    . next hlt =>
      rw [List.mem_singleton.mp h]
      exact isdigit_digit hlt
    . next hge =>
      rw [List.mem_append, List.mem_singleton] at h
      cases h with
      | inl h => exact ih (n / 10) (by omega) h
      | inr h =>
        rw [h]
        exact isdigit_digit (by omega)

theorem decimal_ne_nil (n : Nat) : decimal n ≠ [] := by
  unfold decimal
  split <;> simp

theorem digitsValue_concat (s : List UInt8) (c : UInt8)
    : digitsValue (s ++ [c]) = 10 * digitsValue s + (c.toNat - 48) := by
  unfold digitsValue
  rw [List.foldl_append]
  rfl

theorem digitsValue_decimal (n : Nat) : digitsValue (decimal n) = n := by
  induction n using Nat.strongRecOn with
  | ind n ih =>
    unfold decimal
    split
    . next hlt =>
      have hvalue := digitsValue_concat [] (digit n)
      rw [List.nil_append, toNat_digit hlt] at hvalue
      rw [hvalue]
      simp [digitsValue]
    . next hge =>
      rw [digitsValue_concat, ih (n / 10) (by omega), toNat_digit (by omega)]
      omega

/-- Every `int` has digits without a sign that `atoi` reads as it: those of the number modulo 2^32. -/
theorem atoi_decimal {n : Int} (hlow : -2 ^ 31 ≤ n) (hhigh : n < 2 ^ 31)
    : atoi (decimal (n % 2 ^ 32).toNat) = n := by
  unfold atoi
  rw [strtol_of_digits (fun c hc => isdigit_of_mem_decimal hc), digitsValue_decimal]
  unfold toInt
  omega

end Lib
