import Mathlib.Algebra.Group.Int.Defs
import Mathlib.Algebra.Group.Nat.Defs
import Mathlib.Order.Basic

/-!
# Clamped integers and rounded quotients

`clamp` puts an integer into an interval. A `Double` is a positive number with 53 significant bits;
its operations round the exact quotient or product to the nearest such number, ties to even.
-/

namespace Numeric

/-! ## Clamping -/

/-- The nearest integer to `val` between `lo` and `hi`. -/
def clamp (val lo hi : Int) : Int := if val < lo then lo else if hi < val then hi else val

variable {val hi : Int}

theorem clamp_nonneg (h : 0 ≤ hi) : 0 ≤ clamp val 0 hi := by
  unfold clamp
  split_ifs <;> omega

theorem clamp_le (h : 0 ≤ hi) : clamp val 0 hi ≤ hi := by
  unfold clamp
  split_ifs <;> omega

theorem clamp_eq_zero_iff (h : 0 < hi) : clamp val 0 hi = 0 ↔ val ≤ 0 := by
  unfold clamp
  split_ifs <;> omega

/-- Nothing is left over exactly when the value did not exceed the bound. -/
theorem sub_clamp_le_iff (h : 0 ≤ hi) : val - clamp val 0 hi ≤ 0 ↔ val ≤ hi := by
  unfold clamp
  split_ifs <;> omega

/-! ## Rounded quotients -/

/-- `num / den` rounded to an integer, ties to even. -/
def roundToEven (num den : Nat) : Nat :=
  let q := num / den
  let r := num % den
  if 2 * r < den ∨ (2 * r = den ∧ q % 2 = 0) then q else q + 1

/-- A positive `double`, `mantissa * 2 ^ exponent`, far from the limits of the exponent. -/
structure Double where
  mantissa : Nat
  exponent : Int
  deriving DecidableEq

namespace Double

/-- The nearest `double` to `num / den`, with 53 bits. -/
def ofFraction (num den : Nat) : Double :=
  let shifted (e : Int) : Double :=
    ⟨roundToEven (num * 2 ^ (-e).toNat) (den * 2 ^ e.toNat), e⟩
  let e : Int := (Nat.log2 num : Int) - Nat.log2 den - 52
  if num = 0 then ⟨0, 0⟩
  else if num * 2 ^ (-e).toNat < 2 ^ 52 * (den * 2 ^ e.toNat) then shifted (e - 1) else shifted e

def ofNat (n : Nat) : Double := ofFraction n 1

def div (a b : Double) : Double :=
  let e := a.exponent - b.exponent
  ofFraction (a.mantissa * 2 ^ e.toNat) (b.mantissa * 2 ^ (-e).toNat)

def mul (a b : Double) : Double :=
  let e := a.exponent + b.exponent
  ofFraction (a.mantissa * b.mantissa * 2 ^ e.toNat) (2 ^ (-e).toNat)

/-- The cast to an integer, towards zero. -/
def trunc (a : Double) : Nat := a.mantissa * 2 ^ a.exponent.toNat / 2 ^ (-a.exponent).toNat

end Double

/-- One third is rounded down, and three times one third is rounded up to one. -/
example : Double.ofFraction 1 3 = ⟨0x15555555555555, -54⟩ ∧
    ((Double.ofFraction 1 3).mul (.ofNat 3)).trunc = 1 := by decide +kernel

end Numeric
