import Mathlib.Data.Nat.Bitwise

/-!
# Strings of bits

The bits of a word, the most significant one first, and the bits of a list of bytes. A list of bytes
is determined by its bits (`unpack_injective`); if they are given up to less than a byte of ones at
the end, it is determined as well (`IsPadded.unique`).
-/

namespace Bits

open List

def bits : Nat → Nat → List Bool
  | 0, _ => []
  | w + 1, n => n.testBit w :: bits w n

@[simp] theorem length_bits (w n : Nat) : (bits w n).length = w := by
  induction w with
  | zero => rfl
  | succ w ih => exact congrArg (· + 1) ih

variable {m n w : Nat}

theorem bits_congr (h : ∀ i < w, n.testBit i = m.testBit i) : bits w n = bits w m := by
  induction w with
  | zero => rfl
  | succ w ih =>
    rw [bits, bits, h w (Nat.lt_succ_self w), ih fun i hi => h i (Nat.lt_succ_of_lt hi)]

theorem testBit_of_bits_eq (h : bits w n = bits w m) :
    ∀ i < w, n.testBit i = m.testBit i := by
  induction w with
  | zero => nofun
  | succ w ih =>
    obtain ⟨hhead, htail⟩ := cons.inj h
    intro i hi
    rcases Nat.lt_succ_iff_lt_or_eq.1 hi with hi | rfl
    · exact ih htail i hi
    · exact hhead

theorem eq_of_bits_eq (hn : n < 2 ^ w) (hm : m < 2 ^ w) (h : bits w n = bits w m) :
    n = m := by
  refine Nat.eq_of_testBit_eq fun i => ?_
  by_cases hi : i < w
  · exact testBit_of_bits_eq h i hi
  · have hle : 2 ^ w ≤ 2 ^ i := Nat.pow_le_pow_right (by decide) (Nat.le_of_not_lt hi)
    rw [Nat.testBit_lt_two_pow (hn.trans_le hle), Nat.testBit_lt_two_pow (hm.trans_le hle)]

theorem bits_mod {W : Nat} (h : w ≤ W) (n : Nat) : bits w (n % 2 ^ W) = bits w n := by
  refine bits_congr fun i hi => ?_
  rw [Nat.testBit_mod_two_pow, decide_eq_true (hi.trans_le h), Bool.true_and]

theorem bits_add (a b n : Nat) : bits (a + b) n = bits a (n >>> b) ++ bits b n := by
  induction a with
  | zero => rw [Nat.zero_add, bits, nil_append]
  | succ a ih =>
    rw [Nat.succ_add, bits, bits, ih, cons_append, Nat.testBit_shiftRight, Nat.add_comm b a]

theorem bits_shiftLeft_or {lo b : Nat} (h : lo < 2 ^ b) (a hi : Nat) :
    bits (a + b) (hi <<< b ||| lo) = bits a hi ++ bits b lo := by
  have hhigh : (hi <<< b ||| lo) >>> b = hi := by
    rw [Nat.shiftRight_or_distrib, Nat.shiftLeft_shiftRight,
      Nat.shiftRight_eq_zero lo b h, Nat.or_zero]
  have hlow : bits b (hi <<< b ||| lo) = bits b lo := by
    refine bits_congr fun i hi => ?_
    rw [Nat.testBit_or, Nat.testBit_shiftLeft, decide_eq_false (Nat.not_le.2 hi), Bool.false_and,
      Bool.false_or]
  rw [bits_add, hhigh, hlow]

theorem bits_allOnes (w : Nat) : bits w (2 ^ w - 1) = List.replicate w true := by
  suffices h : ∀ v ≤ w, bits v (2 ^ w - 1) = List.replicate v true from h w (Nat.le_refl w)
  intro v hv
  induction v with
  | zero => rfl
  | succ v ih =>
    rw [bits, ih (Nat.le_of_succ_le hv), Nat.testBit_two_pow_sub_one,
      decide_eq_true (Nat.lt_of_succ_le hv)]
    rfl

/-! ## Bytes -/

/-- The bits of a list of bytes. -/
def unpack (bytes : List UInt8) : List Bool := bytes.flatMap fun b => bits 8 b.toNat

theorem unpack_cons (b : UInt8) (bytes : List UInt8) :
    unpack (b :: bytes) = bits 8 b.toNat ++ unpack bytes := rfl

theorem unpack_append (x y : List UInt8) : unpack (x ++ y) = unpack x ++ unpack y :=
  flatMap_append

theorem unpack_singleton (b : UInt8) : unpack [b] = bits 8 b.toNat := append_nil _

@[simp] theorem length_unpack (bytes : List UInt8) : (unpack bytes).length = 8 * bytes.length := by
  induction bytes with
  | nil => rfl
  | cons b bytes ih =>
    rw [unpack_cons, length_append, length_bits, ih, length_cons]
    omega

theorem bits_toNat_ofNat (n : Nat) : bits 8 (UInt8.ofNat n).toNat = bits 8 n := by
  rw [UInt8.toNat_ofNat']
  exact bits_mod (Nat.le_refl 8) n

theorem unpack_injective {x y : List UInt8} (h : unpack x = unpack y) : x = y := by
  have hlen := congrArg List.length h
  rw [length_unpack, length_unpack] at hlen
  induction x generalizing y with
  | nil =>
    rw [length_nil] at hlen
    exact (length_eq_zero_iff.1 (by omega)).symm
  | cons a x ih =>
    cases y with
    | nil =>
      rw [length_nil, length_cons] at hlen
      omega
    | cons b y =>
      rw [length_cons, length_cons] at hlen
      rw [unpack_cons, unpack_cons] at h
      obtain ⟨hhead, htail⟩ := append_inj h (by rw [length_bits, length_bits])
      have hab : a = b := UInt8.toNat_inj.1 (eq_of_bits_eq a.toNat_lt b.toNat_lt hhead)
      rw [hab, ih htail (by omega)]

/-- The bytes hold a string of bits, filled up with ones. -/
def IsPadded (s : List Bool) (bytes : List UInt8) : Prop :=
  ∃ k < 8, unpack bytes = s ++ List.replicate k true

namespace IsPadded

variable {s : List Bool} {x y : List UInt8}

theorem length_eq (h : IsPadded s x) :
    x.length = s.length / 8 + if s.length % 8 ≠ 0 then 1 else 0 := by
  obtain ⟨k, hk, h⟩ := h
  have hlen := congrArg List.length h
  rw [length_unpack, length_append, length_replicate] at hlen
  split <;> omega

theorem unique (hx : IsPadded s x) (hy : IsPadded s y) : x = y := by
  have hlen := hx.length_eq.trans hy.length_eq.symm
  obtain ⟨k, -, hx⟩ := hx
  obtain ⟨l, -, hy⟩ := hy
  have hkl : k = l := by
    have h₁ := congrArg List.length hx
    have h₂ := congrArg List.length hy
    rw [length_unpack, length_append, length_replicate] at h₁ h₂
    omega
  exact unpack_injective (hx.trans (hkl ▸ hy.symm))

end IsPadded

end Bits
