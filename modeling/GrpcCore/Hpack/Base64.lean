import GrpcCore.Hpack.BinEncoder
import GrpcCore.Hpack.Strings

/-!
# Base64 is read as it was written

`Unbase64Loop` inverts `grpc_chttp2_base64_encode`, and accepts nothing else: after the characters
`=` at the end are dropped, a text is accepted exactly if it is the encoding of the result
(`unbase64Groups_eq_some_iff`). A group of characters is one number of 24 bits on both sides; the
bits of the last group that belong to no byte have to be zero, as the encoder leaves them.
-/

namespace GrpcCore

open Option

/-! ## Characters -/

theorem base64_tables_checked : (∀ i < 64, base64Bits (base64Char i) = some i) ∧
    (∀ n < 256, ∀ i ∈ base64Bits (UInt8.ofNat n), i < 64 ∧ base64Char i = UInt8.ofNat n) ∧
    base64Bits 0x3d = none := by
  decide +kernel

variable {i j k : Nat} {c : UInt8}

theorem base64Bits_base64Char (hi : i < 64) : base64Bits (base64Char i) = some i :=
  base64_tables_checked.1 i hi

theorem base64Bits_eq_some_iff :
    base64Bits c = some i ↔ i < 64 ∧ c = base64Char i := by
  constructor
  · intro h
    have hinv := base64_tables_checked.2.1 c.toNat c.toNat_lt i
    rw [UInt8.ofNat_toNat] at hinv
    exact ⟨(hinv h).1, (hinv h).2.symm⟩
  · rintro ⟨hi, rfl⟩
    exact base64Bits_base64Char hi

theorem base64Char_ne_pad (hi : i < 64) : base64Char i ≠ 0x3d := by
  intro hpad
  have hbits := base64Bits_base64Char hi
  rw [hpad, base64_tables_checked.2.2] at hbits
  cases hbits

/-! ## Groups of characters -/

theorem or_shiftLeft_sextets {l : Nat} (hj : j < 64) (hk : k < 64) (hl : l < 64) :
    i <<< 18 ||| j <<< 12 ||| k <<< 6 ||| l = 2 ^ 18 * i + 2 ^ 12 * j + 2 ^ 6 * k + l := by
  have h₁ : k <<< 6 ||| l = 2 ^ 6 * k + l := Word.shiftLeft_or_of_lt (by omega)
  have h₂ : j <<< 12 ||| (2 ^ 6 * k + l) = 2 ^ 12 * j + (2 ^ 6 * k + l) :=
    Word.shiftLeft_or_of_lt (by omega)
  rw [Nat.or_assoc, Nat.or_assoc, h₁, h₂, Word.shiftLeft_or_of_lt (by omega)]
  omega

theorem or_shiftLeft_three (hj : j < 64) (hk : k < 64) :
    i <<< 18 ||| j <<< 12 ||| k <<< 6 = 2 ^ 18 * i + 2 ^ 12 * j + 2 ^ 6 * k := by
  have h := or_shiftLeft_sextets (i := i) hj hk (show 0 < 64 by decide)
  rwa [Nat.or_zero, Nat.add_zero] at h

theorem or_shiftLeft_two (hj : j < 64) :
    i <<< 18 ||| j <<< 12 = 2 ^ 18 * i + 2 ^ 12 * j := by
  have h := or_shiftLeft_three (i := i) hj (show 0 < 64 by decide)
  rwa [Nat.zero_shiftLeft, Nat.or_zero, Nat.mul_zero, Nat.add_zero] at h

theorem toNat_ofNat_shiftRight (n shift : Nat) :
    (UInt8.ofNat (n >>> shift)).toNat = n / 2 ^ shift % 256 := Word.toNat_byteAt n shift

theorem ofNat_shiftRight_eq {n shift : Nat} {a : UInt8} (h : n / 2 ^ shift % 256 = a.toNat) :
    UInt8.ofNat (n >>> shift) = a :=
  UInt8.toNat_inj.1 ((toNat_ofNat_shiftRight n shift).trans h)

section
variable {i j k l : Nat} {input out b : Bytes}

theorem unbase64Groups_four (hi : i < 64) (hj : j < 64) (hk : k < 64) (hl : l < 64) :
    unbase64Groups (base64Char i :: base64Char j :: base64Char k :: base64Char l :: input) =
      (unbase64Groups input).map fun out =>
        UInt8.ofNat ((2 ^ 18 * i + 2 ^ 12 * j + 2 ^ 6 * k + l) >>> 16) ::
        UInt8.ofNat ((2 ^ 18 * i + 2 ^ 12 * j + 2 ^ 6 * k + l) >>> 8) ::
        UInt8.ofNat (2 ^ 18 * i + 2 ^ 12 * j + 2 ^ 6 * k + l) :: out := by
  rw [unbase64Groups]
  simp only [base64Bits_base64Char, hi, hj, hk, hl, bind_eq_bind, bind_some,
    or_shiftLeft_sextets hj hk hl]
  cases unbase64Groups input <;> rfl

theorem unbase64Groups_three (hi : i < 64) (hj : j < 64) (hk : k < 64) :
    unbase64Groups [base64Char i, base64Char j, base64Char k] =
      if k % 4 = 0 then
        some [UInt8.ofNat ((2 ^ 18 * i + 2 ^ 12 * j + 2 ^ 6 * k) >>> 16),
          UInt8.ofNat ((2 ^ 18 * i + 2 ^ 12 * j + 2 ^ 6 * k) >>> 8)]
      else none := by
  have hleft : (2 ^ 18 * i + 2 ^ 12 * j + 2 ^ 6 * k) &&& 0xff =
      (2 ^ 18 * i + 2 ^ 12 * j + 2 ^ 6 * k) % 2 ^ 8 := Nat.and_two_pow_sub_one_eq_mod _ 8
  rw [unbase64Groups]
  simp only [base64Bits_base64Char, hi, hj, hk, bind_eq_bind, bind_some,
    or_shiftLeft_three hj hk, hleft]
  by_cases h : k % 4 = 0
  · rw [if_pos h, if_neg (by omega)]
  · rw [if_neg h, if_pos (by omega)]

theorem unbase64Groups_two (hi : i < 64) (hj : j < 64) :
    unbase64Groups [base64Char i, base64Char j] =
      if j % 16 = 0 then some [UInt8.ofNat ((2 ^ 18 * i + 2 ^ 12 * j) >>> 16)] else none := by
  have hleft : (2 ^ 18 * i + 2 ^ 12 * j) &&& 0xffff = (2 ^ 18 * i + 2 ^ 12 * j) % 2 ^ 16 :=
    Nat.and_two_pow_sub_one_eq_mod _ 16
  rw [unbase64Groups]
  simp only [base64Bits_base64Char, hi, hj, bind_eq_bind, bind_some,
    or_shiftLeft_two hj, hleft]
  by_cases h : j % 16 = 0
  · rw [if_pos h, if_neg (by omega)]
  · rw [if_neg h, if_pos (by omega)]

end

theorem unbase64Groups_base64Output (input : Bytes) :
    unbase64Groups (base64Output input) = some input := by
  fun_induction base64Output input with
  | case1 a b c input ih =>
    have ha := a.toNat_lt
    have hb := b.toNat_lt
    have hc := c.toNat_lt
    rw [sextet_first, sextet_second, sextet_third, sextet_fourth,
      unbase64Groups_four (by omega) (by omega) (by omega) (by omega), ih, map_some]
    congr 2
    · exact ofNat_shiftRight_eq (by omega)
    congr 1
    · exact ofNat_shiftRight_eq (by omega)
    congr 1
    · refine UInt8.toNat_inj.1 ?_
      rw [UInt8.toNat_ofNat']
      omega
  | case2 a b =>
    have ha := a.toNat_lt
    have hb := b.toNat_lt
    rw [sextet_first, sextet_second, sextet_third_last,
      unbase64Groups_three (by omega) (by omega) (by omega), if_pos (by omega)]
    congr 2
    · exact ofNat_shiftRight_eq (by omega)
    congr 1
    · exact ofNat_shiftRight_eq (by omega)
  | case3 a =>
    have ha := a.toNat_lt
    rw [sextet_first, sextet_second_last, unbase64Groups_two (by omega) (by omega),
      if_pos (by omega)]
    congr 2
    exact ofNat_shiftRight_eq (by omega)
  | case4 => rfl

theorem exists_base64Char (h : base64Bits c ≠ none) : ∃ i < 64, c = base64Char i := by
  obtain ⟨i, hi⟩ := ne_none_iff_exists'.1 h
  exact ⟨i, base64Bits_eq_some_iff.1 hi⟩

theorem eq_base64Output : ∀ {s b : Bytes}, unbase64Groups s = some b → s = base64Output b
  | [], b, h => by
    cases h
    rfl
  | [_], b, h => by cases h
  | [x, y], b, h => by
    obtain ⟨i, hi, rfl⟩ := exists_base64Char (c := x) fun hx => by simp [unbase64Groups, hx] at h
    obtain ⟨j, hj, rfl⟩ := exists_base64Char (c := y) fun hy => by simp [unbase64Groups, hy] at h
    rw [unbase64Groups_two hi hj] at h
    split at h
    · cases h
      rw [base64Output, sextet_first, sextet_second_last, toNat_ofNat_shiftRight]
      congr 2
      · omega
      · congr 1
        omega
    · cases h
  | [x, y, z], b, h => by
    obtain ⟨i, hi, rfl⟩ := exists_base64Char (c := x) fun hx => by simp [unbase64Groups, hx] at h
    obtain ⟨j, hj, rfl⟩ := exists_base64Char (c := y) fun hy => by simp [unbase64Groups, hy] at h
    obtain ⟨k, hk, rfl⟩ := exists_base64Char (c := z) fun hz => by simp [unbase64Groups, hz] at h
    rw [unbase64Groups_three hi hj hk] at h
    split at h
    · cases h
      rw [base64Output, sextet_first, sextet_second, sextet_third_last, toNat_ofNat_shiftRight,
        toNat_ofNat_shiftRight]
      congr 2
      · omega
      · congr 1
        omega
      · congr 2
        omega
    · cases h
  | x :: y :: z :: w :: cur, b, h => by
    obtain ⟨i, hi, rfl⟩ := exists_base64Char (c := x) fun hx => by simp [unbase64Groups, hx] at h
    obtain ⟨j, hj, rfl⟩ := exists_base64Char (c := y) fun hy => by simp [unbase64Groups, hy] at h
    obtain ⟨k, hk, rfl⟩ := exists_base64Char (c := z) fun hz => by simp [unbase64Groups, hz] at h
    obtain ⟨l, hl, rfl⟩ := exists_base64Char (c := w) fun hw => by simp [unbase64Groups, hw] at h
    rw [unbase64Groups_four hi hj hk hl] at h
    obtain ⟨out, hout, rfl⟩ := map_eq_some_iff.1 h
    rw [base64Output, ← eq_base64Output hout, sextet_first, sextet_second, sextet_third,
      sextet_fourth, toNat_ofNat_shiftRight, toNat_ofNat_shiftRight, UInt8.toNat_ofNat']
    congr 2
    · omega
    · congr 1
      omega
    · congr 2
      · omega
      · congr 2
        omega

theorem unbase64Groups_eq_some_iff {s b : Bytes} :
    unbase64Groups s = some b ↔ s = base64Output b :=
  ⟨eq_base64Output, fun h => h ▸ unbase64Groups_base64Output b⟩

/-! ## `Unbase64Loop` -/

/-- The text without the characters `=` at its end. -/
def withoutPadding (s : Bytes) : Bytes := (s.reverse.dropWhile (· = 0x3d)).reverse

theorem withoutPadding_base64Output (input : Bytes) :
    withoutPadding (base64Output input) = base64Output input := by
  have hnone : ∀ c ∈ (base64Output input).reverse, c ≠ 0x3d := by
    intro c hc
    rw [List.mem_reverse, base64Output_eq, List.mem_map] at hc
    obtain ⟨i, hi, rfl⟩ := hc
    exact base64Char_ne_pad (sextets_lt input i hi)
  unfold withoutPadding
  cases hrev : (base64Output input).reverse with
  | nil => rw [List.dropWhile_nil, ← hrev, List.reverse_reverse]
  | cons c l =>
    have hc : c ≠ 0x3d := hnone c (by rw [hrev]; exact List.mem_cons_self)
    rw [List.dropWhile_cons_of_neg (by simpa using hc), ← hrev, List.reverse_reverse]

/-- Every byte string is read as it was written, and a text is read exactly if it is the encoding of
the result and padding. -/
theorem base64_canonical :
    (∀ x : Bytes, ∃ e, base64Encode x = some e ∧ unbase64Loop e = some x) ∧
    (∀ s b : Bytes, unbase64Loop s = some b ↔ base64Encode b = some (withoutPadding s)) := by
  refine ⟨fun x => ⟨_, base64Encode_eq x, ?_⟩, fun s b => ?_⟩
  · change unbase64Groups (withoutPadding (base64Output x)) = some x
    rw [withoutPadding_base64Output, unbase64Groups_base64Output]
  · rw [base64Encode_eq, some.injEq, eq_comm (a := base64Output b)]
    exact unbase64Groups_eq_some_iff

end GrpcCore
