import Mathlib.Data.Nat.Bitwise

/-!
# Two counters in one word

A machine word of `n` bits whose upper bits, from bit `k` on, hold one counter and whose lower `k`
bits hold another. Adding and subtracting packed pairs works on both counters at once
(`pack_add`, `pack_sub`), and the counters are read off as long as they fit (`high_pack`,
`low_pack`).
-/

namespace PackedPair

variable {n k hi lo hi' lo' : Nat}

/-- `(hi << k) + lo`. -/
def pack (n k hi lo : Nat) : BitVec n := BitVec.ofNat n hi <<< k + BitVec.ofNat n lo

/-- `w >> k`. -/
def high (k : Nat) (w : BitVec n) : Nat := (w >>> k).toNat

/-- `w & mask`, where the mask has the lower `k` bits set. -/
def low (k : Nat) (w : BitVec n) : Nat := (w &&& BitVec.ofNat n (2 ^ k - 1)).toNat

theorem pack_eq (n k hi lo : Nat) : pack n k hi lo = BitVec.ofNat n (hi * 2 ^ k + lo) := by
  apply BitVec.eq_of_toNat_eq
  simp only [pack, BitVec.toNat_add, BitVec.toNat_shiftLeft, BitVec.toNat_ofNat, Nat.shiftLeft_eq]
  rw [← Nat.add_mod, Nat.add_mod, Nat.mod_mul_mod, ← Nat.add_mod]

theorem pack_add (n k hi lo hi' lo' : Nat) :
    pack n k hi lo + pack n k hi' lo' = pack n k (hi + hi') (lo + lo') := by
  rw [pack_eq, pack_eq, pack_eq, ← BitVec.ofNat_add]
  congr 1
  rw [Nat.add_mul]
  omega

theorem pack_sub (n k hi lo hi' lo' : Nat) :
    pack n k (hi + hi') (lo + lo') - pack n k hi' lo' = pack n k hi lo := by
  rw [← pack_add, BitVec.add_sub_cancel]

/-- Both counters fit into their parts of the word. -/
structure Fits (n k hi lo : Nat) : Prop where
  high_lt : hi < 2 ^ (n - k)
  low_lt : lo < 2 ^ k
  le : k ≤ n

theorem Fits.lt (h : Fits n k hi lo) : hi * 2 ^ k + lo < 2 ^ n := by
  have hpow : 2 ^ n = 2 ^ (n - k) * 2 ^ k := by rw [← pow_add, Nat.sub_add_cancel h.le]
  have hmul : (hi + 1) * 2 ^ k ≤ 2 ^ (n - k) * 2 ^ k := Nat.mul_le_mul_right _ h.high_lt
  have hlow := h.low_lt
  rw [hpow]
  rw [Nat.add_mul, Nat.one_mul] at hmul
  omega

theorem toNat_pack (h : Fits n k hi lo) : (pack n k hi lo).toNat = hi * 2 ^ k + lo := by
  rw [pack_eq, BitVec.toNat_ofNat, Nat.mod_eq_of_lt h.lt]

theorem high_pack (h : Fits n k hi lo) : high k (pack n k hi lo) = hi := by
  rw [high, BitVec.toNat_ushiftRight, toNat_pack h, Nat.shiftRight_eq_div_pow, Nat.mul_comm,
    Nat.mul_add_div (Nat.two_pow_pos k), Nat.div_eq_of_lt h.low_lt, Nat.add_zero]

theorem low_pack (h : Fits n k hi lo) : low k (pack n k hi lo) = lo := by
  have hmask : 2 ^ k - 1 < 2 ^ n :=
    Nat.lt_of_lt_of_le (Nat.sub_lt (Nat.two_pow_pos k) Nat.one_pos)
      (Nat.pow_le_pow_right Nat.two_pos h.le)
  rw [low, BitVec.toNat_and, toNat_pack h, BitVec.toNat_ofNat, Nat.mod_eq_of_lt hmask,
    Nat.and_two_pow_sub_one_eq_mod, Nat.mul_comm, Nat.mul_add_mod, Nat.mod_eq_of_lt h.low_lt]

theorem pack_inj (h : Fits n k hi lo) (h' : Fits n k hi' lo') :
    pack n k hi lo = pack n k hi' lo' ↔ hi = hi' ∧ lo = lo' := by
  constructor
  · intro heq
    have hhigh := congrArg (high k) heq
    have hlow := congrArg (low k) heq
    rw [high_pack h, high_pack h'] at hhigh
    rw [low_pack h, low_pack h'] at hlow
    exact ⟨hhigh, hlow⟩
  · rintro ⟨rfl, rfl⟩
    rfl

end PackedPair
