import Mathlib.Data.Nat.Bitwise

/-!
# Words written as bytes

Unsigned words that are cut into bytes with shifts and truncating casts, the most significant byte
first, and put together again with shifts and bitwise or.
-/

namespace Word

/-- `static_cast<uint8_t>(n >> shift)`. -/
def byteAt (n shift : Nat) : UInt8 := UInt8.ofNat (n >>> shift)

/-- `a << 8 | b`. -/
def be16 (a b : UInt8) : Nat := a.toNat <<< 8 ||| b.toNat

/-- `a << 16 | b << 8 | c`. -/
def be24 (a b c : UInt8) : Nat := a.toNat <<< 16 ||| b.toNat <<< 8 ||| c.toNat

/-- `a << 24 | b << 16 | c << 8 | d`. -/
def be32 (a b c d : UInt8) : Nat :=
  a.toNat <<< 24 ||| b.toNat <<< 16 ||| c.toNat <<< 8 ||| d.toNat

/-- `a << 56 | b << 48 | … | h`. -/
def be64 (a b c d e f g h : UInt8) : Nat :=
  a.toNat <<< 56 ||| b.toNat <<< 48 ||| c.toNat <<< 40 ||| d.toNat <<< 32 ||| e.toNat <<< 24 |||
    f.toNat <<< 16 ||| g.toNat <<< 8 ||| h.toNat

theorem toNat_byteAt (n shift : Nat) : (byteAt n shift).toNat = n / 2 ^ shift % 256 := by
  rw [byteAt, UInt8.toNat_ofNat', Nat.shiftRight_eq_div_pow]

theorem shiftLeft_or_of_lt {hi lo shift : Nat} (h : lo < 2 ^ shift) :
    hi <<< shift ||| lo = 2 ^ shift * hi + lo := by
  rw [Nat.shiftLeft_eq, Nat.mul_comm, Nat.two_pow_add_eq_or_of_lt h]

theorem be24_eq (a b c : UInt8) : be24 a b c = 2 ^ 16 * a.toNat + 2 ^ 8 * b.toNat + c.toNat := by
  have ha := a.toNat_lt
  have hb := b.toNat_lt
  have hc := c.toNat_lt
  have hlow : b.toNat <<< 8 ||| c.toNat = 2 ^ 8 * b.toNat + c.toNat := shiftLeft_or_of_lt (by omega)
  rw [be24, Nat.or_assoc, hlow, shiftLeft_or_of_lt (by omega)]
  omega

theorem be32_eq (a b c d : UInt8) : be32 a b c d =
    2 ^ 24 * a.toNat + 2 ^ 16 * b.toNat + 2 ^ 8 * c.toNat + d.toNat := by
  have hb := b.toNat_lt
  have hc := c.toNat_lt
  have hd := d.toNat_lt
  have hlow := be24_eq b c d
  rw [be24, Nat.or_assoc] at hlow
  rw [be32, Nat.or_assoc, Nat.or_assoc, hlow, shiftLeft_or_of_lt (by omega)]
  omega

variable {n : Nat}

theorem be16_byteAt (h : n < 2 ^ 16) : be16 (byteAt n 8) (byteAt n 0) = n := by
  have hlow := (byteAt n 0).toNat_lt
  rw [be16, shiftLeft_or_of_lt (by omega), toNat_byteAt, toNat_byteAt]
  omega

theorem be24_byteAt (h : n < 2 ^ 24) :
    be24 (byteAt n 16) (byteAt n 8) (byteAt n 0) = n := by
  rw [be24_eq, toNat_byteAt, toNat_byteAt, toNat_byteAt]
  omega

theorem be32_byteAt (h : n < 2 ^ 32) :
    be32 (byteAt n 24) (byteAt n 16) (byteAt n 8) (byteAt n 0) = n := by
  rw [be32_eq, toNat_byteAt, toNat_byteAt, toNat_byteAt, toNat_byteAt]
  omega

theorem be64_eq (a b c d e f g h : UInt8) : be64 a b c d e f g h =
    2 ^ 56 * a.toNat + 2 ^ 48 * b.toNat + 2 ^ 40 * c.toNat + 2 ^ 32 * d.toNat + 2 ^ 24 * e.toNat +
      2 ^ 16 * f.toNat + 2 ^ 8 * g.toNat + h.toNat := by
  have hb := b.toNat_lt
  have hc := c.toNat_lt
  have hd := d.toNat_lt
  have he := e.toNat_lt
  have hf := f.toNat_lt
  have hg := g.toNat_lt
  have hh := h.toNat_lt
  have hlow := be32_eq e f g h
  rw [be32, Nat.or_assoc, Nat.or_assoc] at hlow
  have h₅ : d.toNat <<< 32 ||| _ = _ := shiftLeft_or_of_lt (lt_of_eq_of_lt hlow (by omega))
  have h₆ : c.toNat <<< 40 ||| _ = _ := shiftLeft_or_of_lt (lt_of_eq_of_lt h₅ (by omega))
  have h₇ : b.toNat <<< 48 ||| _ = _ := shiftLeft_or_of_lt (lt_of_eq_of_lt h₆ (by omega))
  have h₈ : a.toNat <<< 56 ||| _ = _ := shiftLeft_or_of_lt (lt_of_eq_of_lt h₇ (by omega))
  simp only [be64, Nat.or_assoc]
  omega

theorem be64_byteAt (h : n < 2 ^ 64) :
    be64 (byteAt n 56) (byteAt n 48) (byteAt n 40) (byteAt n 32) (byteAt n 24) (byteAt n 16)
      (byteAt n 8) (byteAt n 0) = n := by
  rw [be64_eq, toNat_byteAt, toNat_byteAt, toNat_byteAt, toNat_byteAt, toNat_byteAt, toNat_byteAt,
    toNat_byteAt, toNat_byteAt]
  omega

end Word
