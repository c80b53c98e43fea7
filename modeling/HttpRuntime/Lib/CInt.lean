import Mathlib.Data.Int.Basic
import Mathlib.Tactic.NormNum

/-!
This module contains the machine integers of a C program: the conversion of a number to the 32 bit
type `int`, and the sum of two numbers of that type.
-/

namespace Lib

def toInt (n : Int) : Int :=
  (n + 2 ^ 31) % 2 ^ 32 - 2 ^ 31

theorem toInt_eq_self {n : Int} (hlow : -2 ^ 31 ≤ n) (hhigh : n < 2 ^ 31) : toInt n = n := by
  unfold toInt
  omega

theorem toInt_ofNat {n : Nat} (h : n < 2 ^ 31) : toInt n = n := by
  apply toInt_eq_self
  all_goals omega

theorem toInt_lt (n : Int) : toInt n < 2 ^ 31 := by
  unfold toInt
  omega

/-- The sum of two numbers of type `int`. An overflow has no result. -/
def addInt (m n : Int) : Option Int :=
  if -2 ^ 31 ≤ m + n ∧ m + n < 2 ^ 31 then some (m + n) else none

theorem addInt_eq_some_iff {m n k : Int}
    : addInt m n = some k ↔ (-2 ^ 31 ≤ m + n ∧ m + n < 2 ^ 31) ∧ k = m + n := by
  unfold addInt
  rw [Option.ite_none_right_eq_some, Option.some.injEq, eq_comm]

end Lib
