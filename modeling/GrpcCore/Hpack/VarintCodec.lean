import GrpcCore.Hpack.Strings
import GrpcCore.Hpack.Varint

/-!
# Integers are read as they were written

`base128` is the number that a sequence of bytes starts with: groups of seven bits, the least
significant one first, up to the first byte without a continuation bit. `ParseVarint` adds it to the
prefix and fails exactly where the sum leaves 32 bits (`parseVarint_eq_ok_iff`). Only the fifth byte
looks for an overflow, so the prefix has to leave room for four bytes, as the prefixes of the
opcodes do. `VarintWriter` writes such a number after a prefix of ones (`base128_varintWriteTail`).
-/

namespace GrpcCore

open Option Incremental

/-- The number that a sequence starts with, and what follows it; none if it has no end. -/
def base128 : Bytes → Option (Nat × Bytes)
  | [] => none
  | cur :: input =>
    if cur.toNat < 128 then some (cur.toNat, input)
    else (base128 input).map fun (n, rest) => (cur.toNat % 128 + 128 * n, rest)

/-! ## Seven bits of a byte -/

theorem toNat_and_0x7f (cur : UInt8) : (cur &&& 0x7f).toNat = cur.toNat % 128 := by
  rw [UInt8.toNat_and]
  exact Nat.and_two_pow_sub_one_eq_mod cur.toNat 7

theorem bit7 : ∀ n < 256, (n &&& 0x80 = 0 ↔ n < 128) ∧ n ||| 0x80 = 128 + n % 128 := by
  decide +kernel

theorem and_0x80_eq_zero_iff (cur : UInt8) : cur &&& 0x80 = 0 ↔ cur.toNat < 128 := by
  rw [← UInt8.toNat_inj, UInt8.toNat_and]
  exact (bit7 _ cur.toNat_lt).1

theorem toNat_or_0x80 (n : Nat) : (UInt8.ofNat n ||| 0x80).toNat = 128 + n % 128 := by
  rw [UInt8.toNat_or, UInt8.toNat_ofNat']
  refine (bit7 _ (Nat.mod_lt _ (by decide))).2.trans ?_
  omega

/-! ## `ParseVarint` -/

/-- The reader adds the number in the input, shifted, to the value, and fails if there is none or
the sum leaves 32 bits. -/
def AddsBase128 (shift value : Nat) (r : Read Nat) : Prop :=
  ∀ input v rest, r input = .ok (v, rest) ↔
    ∃ n, base128 input = some (n, rest) ∧ value + 2 ^ shift * n < 2 ^ 32 ∧ v = value + 2 ^ shift * n

variable {n prefixBits tailValue v value : Nat} {input rest : Bytes} {opcode : UInt8}

/-- After the fifth byte only zeros may follow, which add nothing. -/
theorem parseVarintEnd_eq_ok_iff :
    parseVarintEnd value input = .ok (v, rest) ↔ base128 input = some (0, rest) ∧ v = value := by
  induction input with
  | nil => exact iff_of_false (fun h => by cases h) fun h => by cases h.1
  | cons cur input ih =>
    rw [parseVarintEnd, base128]
    by_cases hcont : cur = 0x80
    · subst hcont
      rw [if_pos rfl, if_neg (by decide), ih]
      cases base128 input with
      | none => simp
      | some p =>
        obtain ⟨n, rest'⟩ := p
        simp
    · rw [if_neg hcont]
      by_cases hzero : cur = 0
      · subst hzero
        rw [if_pos rfl, if_pos (by decide)]
        simp [eq_comm, and_comm]
      · rw [if_neg hzero]
        have hpos : cur.toNat ≠ 0 := fun h => hzero (UInt8.toNat_inj.1 h)
        have hne : cur.toNat ≠ 128 := fun h => hcont (UInt8.toNat_inj.1 h)
        have hlt := cur.toNat_lt
        refine iff_of_false (fun h => by cases h) fun h => ?_
        split at h
        · exact hpos (congrArg Prod.fst (some.inj h.1))
        · obtain ⟨p, -, hp⟩ := map_eq_some_iff.1 h.1
          have := congrArg Prod.fst hp
          simp only at this
          omega

theorem base128_cons_eq_some_iff {cur : UInt8} :
    base128 (cur :: input) = some (n, rest) ↔
      cur.toNat < 128 ∧ n = cur.toNat ∧ rest = input ∨
      ¬ cur.toNat < 128 ∧ ∃ m, base128 input = some (m, rest) ∧ n = cur.toNat % 128 + 128 * m := by
  rw [base128]
  split
  · next h => simp [h, eq_comm]
  · next h =>
    rw [map_eq_some_iff]
    simp [h, eq_comm]

/-- The fifth byte, which looks for an overflow. -/
theorem parseVarintByte5_adds (hvalue : value < 2 ^ 32) :
    AddsBase128 28 value (parseVarintByte5 value) := by
  intro input v rest
  cases input with
  | nil => exact iff_of_false nofun nofun
  | cons cur input =>
    simp only [base128_cons_eq_some_iff]
    have hc := toNat_and_0x7f cur
    have hlt : cur.toNat % 128 < 128 := Nat.mod_lt _ (by decide)
    change (if 0xf < (cur &&& 0x7f).toNat then parseVarintOutOfRange value cur
      else if 0xffffffff - value < (cur &&& 0x7f).toNat <<< 28 then parseVarintOutOfRange value cur
      else if cur &&& 0x80 = 0 then pure (u32 (value + (cur &&& 0x7f).toNat <<< 28))
      else parseVarintEnd (u32 (value + (cur &&& 0x7f).toNat <<< 28)) : Read Nat) input = _ ↔ _
    rw [hc, Nat.shiftLeft_eq]
    -- Too large: the number is at least the seven bits of this byte.
    have hfail (h : 2 ^ 32 ≤ value + cur.toNat % 128 * 2 ^ 28) : ¬ ∃ n,
        (cur.toNat < 128 ∧ n = cur.toNat ∧ rest = input ∨ ¬ cur.toNat < 128 ∧
          ∃ m, base128 input = some (m, rest) ∧ n = cur.toNat % 128 + 128 * m) ∧
        value + 2 ^ 28 * n < 2 ^ 32 ∧ v = value + 2 ^ 28 * n := by
      rintro ⟨n, ⟨hcur, hn, -⟩ | ⟨-, m, -, hn⟩, hsum, -⟩ <;> omega
    split_ifs with h₁ h₂ h₃
    · exact iff_of_false nofun (hfail (by omega))
    · exact iff_of_false nofun (hfail (by omega))
    · rw [and_0x80_eq_zero_iff] at h₃
      rw [Reader.pure_apply, u32_of_lt (by omega)]
      constructor
      · intro h
        cases h
        exact ⟨cur.toNat, .inl ⟨h₃, rfl, rfl⟩, by omega, by omega⟩
      · rintro ⟨n, ⟨-, rfl, rfl⟩ | ⟨hcont, -⟩, -, hv⟩
        · rw [hv, Nat.mod_eq_of_lt h₃, Nat.mul_comm]
        · exact absurd h₃ hcont
    · rw [and_0x80_eq_zero_iff] at h₃
      rw [u32_of_lt (by omega), parseVarintEnd_eq_ok_iff]
      constructor
      · rintro ⟨hrest, rfl⟩
        exact ⟨cur.toNat % 128, .inr ⟨h₃, 0, hrest, by omega⟩, by omega, by omega⟩
      · rintro ⟨n, ⟨hlast, -⟩ | ⟨-, m, hm, hn⟩, hsum, hv⟩
        · exact absurd hlast h₃
        · have hzero : m = 0 := by omega
          subst hzero
          exact ⟨hm, by omega⟩

/-- One of the first four bytes, which add without looking for an overflow. -/
theorem parseVarintBytes_adds {shift : Nat} {shifts : List Nat}
    (hvalue : value + 127 * 2 ^ shift < 2 ^ 32)
    (hnext : ∀ value' ≤ value + 127 * 2 ^ shift,
      AddsBase128 (shift + 7) value' (parseVarintBytes shifts value')) :
    AddsBase128 shift value (parseVarintBytes (shift :: shifts) value) := by
  intro input v rest
  cases input with
  | nil => exact iff_of_false nofun nofun
  | cons cur input =>
    simp only [base128_cons_eq_some_iff]
    have hle : cur.toNat % 128 * 2 ^ shift ≤ 127 * 2 ^ shift :=
      Nat.mul_le_mul_right _ (Nat.le_of_lt_succ (Nat.mod_lt _ (by decide)))
    have hsum : u32 (value + (cur &&& 0x7f).toNat <<< shift) =
        value + cur.toNat % 128 * 2 ^ shift := by
      rw [toNat_and_0x7f, Nat.shiftLeft_eq, u32_of_lt (by omega)]
    change (if cur &&& 0x80 = 0 then pure (u32 (value + (cur &&& 0x7f).toNat <<< shift))
      else parseVarintBytes shifts (u32 (value + (cur &&& 0x7f).toNat <<< shift)) : Read Nat)
        input = _ ↔ _
    rw [hsum]
    split_ifs with hlast
    · rw [and_0x80_eq_zero_iff] at hlast
      rw [Reader.pure_apply, Nat.mod_eq_of_lt hlast] at *
      constructor
      · intro h
        cases h
        exact ⟨cur.toNat, .inl ⟨hlast, rfl, rfl⟩, by rw [Nat.mul_comm]; omega,
          by rw [Nat.mul_comm]⟩
      · rintro ⟨n, ⟨-, rfl, rfl⟩ | ⟨hcont, -⟩, -, hv⟩
        · rw [hv, Nat.mul_comm]
        · exact absurd hlast hcont
    · rw [and_0x80_eq_zero_iff] at hlast
      rw [hnext _ (by omega)]
      have hexpand (m : Nat) : value + cur.toNat % 128 * 2 ^ shift + 2 ^ (shift + 7) * m =
          value + 2 ^ shift * (cur.toNat % 128 + 128 * m) := by
        rw [Nat.mul_add, ← Nat.mul_assoc, Nat.mul_comm (2 ^ shift) (cur.toNat % 128), Nat.pow_add,
          Nat.add_assoc]
      constructor
      · rintro ⟨m, hm, hlt, hv⟩
        rw [hexpand] at hlt hv
        exact ⟨_, .inr ⟨hlast, m, hm, rfl⟩, hlt, hv⟩
      · rintro ⟨n, ⟨h, -⟩ | ⟨-, m, hm, rfl⟩, hlt, hv⟩
        · exact absurd h hlast
        · rw [← hexpand] at hlt hv
          exact ⟨m, hm, hlt, hv⟩

/-- `ParseVarint` returns the sum of its argument and the number in the input, if that has 32
bits. -/
theorem parseVarint_eq_ok_iff (hvalue : value ≤ 2 ^ 32 - 2 ^ 28) :
    parseVarint value input = .ok (v, rest) ↔
      ∃ n, base128 input = some (n, rest) ∧ value + n < 2 ^ 32 ∧ v = value + n := by
  have hadds : AddsBase128 0 value (parseVarint value) :=
    parseVarintBytes_adds (by omega) fun v₁ h₁ =>
      parseVarintBytes_adds (by omega) fun v₂ h₂ =>
        parseVarintBytes_adds (by omega) fun v₃ h₃ =>
          parseVarintBytes_adds (by omega) fun v₄ h₄ => parseVarintByte5_adds (by omega)
  have h := hadds input v rest
  simp only [Nat.pow_zero, Nat.one_mul] at h
  exact h

/-! ## What is written -/

/-- The bytes of the tail stand for its value. -/
theorem base128_varintWriteTail {tailLength : Nat} (hlen : tailLength ≠ 0)
    (h : tailValue < 2 ^ (7 * tailLength)) (rest : Bytes) :
    base128 (varintWriteTail tailValue tailLength ++ rest) = some (tailValue, rest) := by
  induction tailLength generalizing tailValue with
  | zero => exact absurd rfl hlen
  | succ n ih =>
    have hbyte : (Word.byteAt tailValue 0 ||| 0x80).toNat = 128 + tailValue % 128 := toNat_or_0x80 _
    cases n with
    | zero =>
      have hval : ((Word.byteAt tailValue 0 ||| 0x80) &&& 0x7f).toNat = tailValue := by
        rw [toNat_and_0x7f, hbyte]
        omega
      change base128 (((Word.byteAt tailValue 0 ||| 0x80) &&& 0x7f) :: rest) = _
      rw [base128, if_pos (by rw [hval]; omega), hval]
    | succ n =>
      have hlt : tailValue >>> 7 < 2 ^ (7 * (n + 1)) := by
        rw [Nat.shiftRight_eq_div_pow]
        refine Nat.div_lt_of_lt_mul ?_
        rw [← Nat.pow_add]
        exact lt_of_lt_of_eq h (congrArg (2 ^ ·) (by omega))
      change base128 ((Word.byteAt tailValue 0 ||| 0x80) ::
        (varintWriteTail (tailValue >>> 7) (n + 1) ++ rest)) = _
      rw [base128, if_neg (by omega), ih (Nat.succ_ne_zero n) hlt, map_some, hbyte,
        Nat.shiftRight_eq_div_pow]
      simp only [some.injEq, Prod.mk.injEq, and_true]
      omega

theorem lt_varintLength (h : tailValue < 2 ^ 32) :
    tailValue < 2 ^ (7 * (varintLength tailValue - 1)) := by
  unfold varintLength
  split_ifs <;> omega

/-- The number in the bits of the first byte that the opcode leaves free, and after it, if they are
all ones: the decoding in the cases of `Parser::Parse` and in `ParseStringPrefix`. -/
def readVarint (prefixBits : Nat) : Read Nat := do
  let cur ← Reader.next
  let inline := (cur &&& UInt8.ofNat (maxInVarintPrefix prefixBits)).toNat
  if inline = maxInVarintPrefix prefixBits then parseVarint inline else pure inline

theorem maxInVarintPrefix_lt (prefixBits : Nat) : maxInVarintPrefix prefixBits < 2 ^ 8 := by
  have hle : 2 ^ (8 - prefixBits) ≤ 2 ^ 8 := Nat.pow_le_pow_right (by decide)
    (Nat.sub_le 8 prefixBits)
  have hpos : 0 < 2 ^ (8 - prefixBits) := Nat.pow_pos (by decide)
  unfold maxInVarintPrefix
  omega

theorem toNat_and_maxInVarintPrefix (cur : UInt8) (prefixBits : Nat) :
    (cur &&& UInt8.ofNat (maxInVarintPrefix prefixBits)).toNat =
      cur.toNat % 2 ^ (8 - prefixBits) := by
  rw [UInt8.toNat_and, UInt8.toNat_ofNat', Nat.mod_eq_of_lt (maxInVarintPrefix_lt prefixBits)]
  exact Nat.and_two_pow_sub_one_eq_mod cur.toNat (8 - prefixBits)

/-- The bits that the opcode leaves free are read back. -/
theorem toNat_opcode_or (hop : opcode &&& UInt8.ofNat (maxInVarintPrefix prefixBits) = 0)
    (hn : n ≤ maxInVarintPrefix prefixBits) :
    ((opcode ||| UInt8.ofNat n) &&& UInt8.ofNat (maxInVarintPrefix prefixBits)).toNat = n := by
  have hfree : opcode.toNat % 2 ^ (8 - prefixBits) = 0 := by
    rw [← toNat_and_maxInVarintPrefix, hop]
    rfl
  have hmax := maxInVarintPrefix_lt prefixBits
  have hpos : 0 < 2 ^ (8 - prefixBits) := Nat.pow_pos (by decide)
  have hlt : n < 2 ^ (8 - prefixBits) := by
    rw [maxInVarintPrefix] at hn
    omega
  rw [toNat_and_maxInVarintPrefix, UInt8.toNat_or, UInt8.toNat_ofNat',
    Nat.mod_eq_of_lt (hn.trans_lt hmax), Nat.or_mod_two_pow, hfree, Nat.zero_or,
    Nat.mod_eq_of_lt hlt]

/-- A number is read as it was written. -/
theorem readVarint_write
    (hop : opcode &&& UInt8.ofNat (maxInVarintPrefix prefixBits) = 0) (hvalue : value < 2 ^ 32)
    (rest : Bytes) :
    readVarint prefixBits (VarintWriter.write prefixBits value opcode ++ rest) =
      .ok (value, rest) := by
  have hmax := maxInVarintPrefix_lt prefixBits
  have hread (cur : UInt8) (input : Bytes) : readVarint prefixBits (cur :: input) =
      (if (cur &&& UInt8.ofNat (maxInVarintPrefix prefixBits)).toNat = maxInVarintPrefix prefixBits
        then parseVarint (cur &&& UInt8.ofNat (maxInVarintPrefix prefixBits)).toNat
        else pure (cur &&& UInt8.ofNat (maxInVarintPrefix prefixBits)).toNat : Read Nat) input :=
          rfl
  unfold VarintWriter.write VarintWriter.length
  by_cases hinline : value < maxInVarintPrefix prefixBits
  · rw [if_pos hinline, if_pos rfl, List.singleton_append, hread, toNat_opcode_or hop hinline.le,
      if_neg hinline.ne]
    rfl
  · have hlen : varintLength (value - maxInVarintPrefix prefixBits) ≠ 1 := by
      unfold varintLength
      split_ifs <;> decide
    have hpos : varintLength (value - maxInVarintPrefix prefixBits) - 1 ≠ 0 := by
      unfold varintLength
      split_ifs <;> decide
    have hfits : value - maxInVarintPrefix prefixBits < 2 ^ 32 := by omega
    have htail := base128_varintWriteTail hpos (lt_varintLength hfits) rest
    rw [if_neg hinline, if_neg hlen, List.cons_append, hread,
      toNat_opcode_or hop le_rfl, if_pos rfl, parseVarint_eq_ok_iff (by omega)]
    exact ⟨_, htail, by omega, by omega⟩

/-- Every value is read as it was written, and every other sequence of bytes is read as the number
that it stands for, unless that has more than 32 bits. -/
theorem varint_codec_correct :
    (∀ (prefixBits value : Nat) (opcode : UInt8) (rest : Bytes), value ≤ 2 ^ 32 - 1 →
      opcode &&& UInt8.ofNat (maxInVarintPrefix prefixBits) = 0 →
      readVarint prefixBits (VarintWriter.write prefixBits value opcode ++ rest) =
        .ok (value, rest)) ∧
    (∀ (p v : Nat) (input rest : Bytes), p ≤ 2 ^ 32 - 2 ^ 28 →
      (parseVarint p input = .ok (v, rest) ↔
        ∃ n, base128 input = some (n, rest) ∧ p + n ≤ 2 ^ 32 - 1 ∧ v = p + n)) := by
  refine ⟨fun prefixBits value opcode rest hvalue hop => ?_, fun p v input rest hp => ?_⟩
  · exact readVarint_write hop (Nat.lt_of_le_pred (by decide) hvalue) rest
  · rw [parseVarint_eq_ok_iff hp]
    simp only [Nat.le_sub_one_iff_lt (show 0 < 2 ^ 32 by decide)]

/-- The largest value with the prefix of an indexed header, and redundant bytes after a number. -/
theorem varint_codec_max :
    readVarint 1 (VarintWriter.write 1 (2 ^ 32 - 1) 0x80 ++ [7]) = .ok (2 ^ 32 - 1, [7]) ∧
      parseVarint 0x7f [0x81, 0x80, 0x80, 0x80, 0x80, 0x80, 0x00, 7] = .ok (128, [7]) :=
  ⟨varint_codec_correct.1 1 (2 ^ 32 - 1) 0x80 [7] (by decide) (by decide),
    (varint_codec_correct.2 0x7f 128 _ _ (by decide)).2 ⟨1, by decide, by decide, rfl⟩⟩

end GrpcCore
