import Mathlib.Algebra.Order.Ring.Nat
import Mathlib.Data.Nat.ModEq

/-!
# Numbers written as bytes, the least significant first

`bytes n m` is the number `m` on `n` bytes; what does not fit is cut off, so that two numbers have
the same bytes exactly when they agree modulo `256 ^ n` (`bytes_eq_iff`).
-/

namespace LittleEndian

def bytes : Nat → Nat → List UInt8
  | 0, _ => []
  | n + 1, m => UInt8.ofNat m :: bytes n (m / 256)

/-- The number that the bytes stand for. -/
def value : List UInt8 → Nat
  | [] => 0
  | b :: bs => b.toNat + 256 * value bs

variable {n i j m : Nat}

theorem toNat_ofNat (m : Nat) : (UInt8.ofNat m).toNat = m % 256 := UInt8.toNat_ofNat'

theorem value_bytes (n m : Nat) : value (bytes n m) = m % 256 ^ n := by
  induction n generalizing m with
  | zero => rw [bytes, value, pow_zero, Nat.mod_one]
  | succ n ih => rw [bytes, value, ih, toNat_ofNat, pow_succ', Nat.mod_mul]

theorem bytes_mod (n m : Nat) : bytes n (m % 256 ^ n) = bytes n m := by
  induction n generalizing m with
  | zero => rfl
  | succ n ih =>
    have hlow : UInt8.ofNat (m % 256 ^ (n + 1)) = UInt8.ofNat m := by
      apply UInt8.toNat_inj.1
      rw [toNat_ofNat, toNat_ofNat, pow_succ', Nat.mod_mul_right_mod]
    have hhigh : m % 256 ^ (n + 1) / 256 = m / 256 % 256 ^ n := by
      rw [pow_succ', Nat.mod_mul_right_div_self]
    rw [bytes, hlow, hhigh, ih, bytes]

theorem bytes_eq_iff : bytes n i = bytes n j ↔ i % 256 ^ n = j % 256 ^ n := by
  constructor
  · intro h
    rw [← value_bytes, h, value_bytes]
  · intro h
    rw [← bytes_mod n i, h, bytes_mod]

theorem bytes_zero (n : Nat) : bytes n 0 = List.replicate n 0 := by
  induction n with
  | zero => rfl
  | succ n ih => rw [bytes, Nat.zero_div, ih]; rfl

end LittleEndian
