import GrpcCore.Json.RoundTrip

/-!
# Strings that are not UTF-8

The writer documents that it validates its strings and cuts them short before any invalid sequence.
It stops at a zero byte, at a byte that starts no character, at a character that is not complete, at
a surrogate and at a value from `0x110000` on. It does not ask whether a character is in its
shortest form: a longer one (`Overlong`) is written as the character it stands for and read back as
it, so that what is read is not a prefix of the string. `parse_dump_string_iff` says that nothing
else goes wrong.
-/

namespace GrpcCore

open Option Utf8

namespace JsonWriter

open List JsonReader Json JsonText

/-- The string starts with a character other than the zero byte. -/
def StartsChar (s : Octets) : Prop :=
  ∃ n r, Utf8.IsScalar n ∧ n ≠ 0 ∧ s = encode n ++ r

/-- The string starts with a scalar value in more bytes than its encoding has. -/
def Overlong (s : Octets) : Prop :=
  ∃ n k r, k ≤ 2 ∧ Utf8.IsScalar n ∧ n < bound k ∧ s = form n k ++ r

/-- The longest prefix of complete characters other than the zero byte. -/
structure LongestText (s p : Octets) : Prop where
  isPrefix : p <+: s
  isText : IsText p
  longest : ∀ q, q <+: s → IsText q → q <+: p

variable {p q r s t : Octets} {j k n u : Nat}

theorem LongestText.unique {p' : Octets} (h : LongestText s p) (h' : LongestText s p') :
    p = p' :=
  (h'.longest p h.isPrefix h.isText).eq_of_length_le
    (h.longest p' h'.isPrefix h'.isText).length_le

theorem isText_nil : IsText [] := ⟨[], by simp, rfl⟩

theorem isText_cons (hn : Utf8.IsScalar n) (h0 : n ≠ 0) (hp : IsText p) :
    IsText (encode n ++ p) := by
  obtain ⟨ns, hns, rfl⟩ := hp
  exact ⟨n :: ns, forall_mem_cons.2 ⟨⟨hn, h0⟩, hns⟩, by rw [flatMap_cons]⟩

/-! ## One character -/

theorem continuation_byte (h : continuation (j + 1) u q = some (n, r)) :
    ∃ x q', x < 64 ∧ q = UInt8.ofNat (0x80 + x) :: q' ∧
      continuation j (u * 64 + x) q' = some (n, r) := by
  cases q with
  | nil => cases h
  | cons c q' =>
    by_cases hmark : c.toNat &&& 0xc0 = 0x80
    · obtain ⟨hlo, hhi⟩ := (masks c.toNat c.toNat_lt).2.2.2.2.1 hmark
      have hc : c = UInt8.ofNat (0x80 + (c.toNat - 0x80)) := (ofNat_eq (by omega)).symm
      refine ⟨c.toNat - 0x80, q', by omega, by rw [← hc], ?_⟩
      rwa [hc, continuation_succ (by omega)] at h
    · rw [continuation, if_pos hmark] at h
      cases h

theorem continuation_eq (h : continuation j u q = some (n, r)) :
    n / 64 ^ j = u ∧ q = lastBytes n j ++ r := by
  induction j generalizing u q with
  | zero =>
    cases h
    simp [lastBytes]
  | succ j ih =>
    obtain ⟨x, q', hx, rfl, h'⟩ := continuation_byte h
    obtain ⟨hn, rfl⟩ := ih h'
    refine ⟨by rw [div_pow_succ, hn]; omega, ?_⟩
    rw [lastBytes, hn, show (u * 64 + x) % 64 = x by omega, cons_append]

theorem leadByte_eq {b : UInt8} (h : leadByte b.toNat = some (u, j)) :
    ∃ k ≤ 2, j = k + 1 ∧ u < 2 ^ (5 - k) ∧ b.toNat = mark k + u := by
  obtain ⟨-, m1, m2, m3, -⟩ := masks b.toNat b.toNat_lt
  rw [leadByte, Nat.and_two_pow_sub_one_eq_mod _ 5, Nat.and_two_pow_sub_one_eq_mod _ 4,
    Nat.and_two_pow_sub_one_eq_mod _ 3] at h
  split_ifs at h with h1 h2 h3 <;> obtain ⟨rfl, rfl⟩ := Prod.mk.inj (some.inj h)
  · have := m1.1 h1
    exact ⟨0, by decide, rfl, by omega, show _ = 0xc0 + _ by omega⟩
  · have := m2.1 h2
    exact ⟨1, by decide, rfl, by omega, show _ = 0xe0 + _ by omega⟩
  · have := m3.1 h3
    exact ⟨2, by decide, rfl, by omega, show _ = 0xf0 + _ by omega⟩

theorem exists_form {b : UInt8}
    (hlead : leadByte b.toNat = some (u, j)) (hcont : continuation j u q = some (n, r)) :
    ∃ k ≤ 2, n < bound (k + 1) ∧ b :: q = form n k ++ r := by
  obtain ⟨k, hk, rfl, hu, hb⟩ := leadByte_eq hlead
  obtain ⟨rfl, rfl⟩ := continuation_eq hcont
  refine ⟨k, hk, ?_, ?_⟩
  · rw [bound_succ k hk, Nat.mul_comm]
    exact Nat.lt_mul_of_div_lt hu (Nat.pow_pos (by decide))
  · rw [form_eq hk, ofNat_eq hb.symm, cons_append]

/-- The character at the start, in any of its forms. -/
def firstChar : Octets → Option (Nat × Octets)
  | [] => none
  | c :: s =>
    if c.toNat < 0x80 then some (c.toNat, s)
    else (leadByte c.toNat).bind fun lead => continuation lead.2 lead.1 s

theorem firstChar_form (s : Octets) (hk : k ≤ 2) (hlt : n < bound (k + 1)) :
    firstChar (form n k ++ s) = some (n, s) := by
  obtain ⟨b, q, u, hform, hb, hlead, hcont⟩ := decode_form hk hlt
  rw [hform, cons_append, firstChar, if_neg (Nat.not_lt_of_le hb), hlead, bind_some,
    hcont]

theorem firstChar_encode (s : Octets) (hn : Utf8.IsScalar n) :
    firstChar (encode n ++ s) = some (n, s) := by
  by_cases h80 : n < 0x80
  · have hb : (UInt8.ofNat n).toNat = n := toNat_ofNat (by omega)
    rw [encode_ascii h80, singleton_append, firstChar, hb, if_pos h80]
  · obtain ⟨k, hk, hle, hlt⟩ := exists_bound hn (Nat.le_of_not_lt h80)
    rw [encode_eq_form hk hle hlt, firstChar_form s hk hlt]

theorem encode_append_inj {m : Nat} (hn : Utf8.IsScalar n) (hm : Utf8.IsScalar m)
    (h : encode n ++ r = encode m ++ t) : n = m ∧ r = t := by
  have hfirst := firstChar_encode r hn
  rw [h, firstChar_encode t hm] at hfirst
  obtain ⟨rfl, rfl⟩ := Prod.mk.inj (some.inj hfirst)
  exact ⟨rfl, rfl⟩

theorem Overlong.not_startsChar (h : Overlong s) : ¬ StartsChar s := by
  obtain ⟨n, k, r, hk, hn, hlt, rfl⟩ := h
  rintro ⟨m, t, hm, -, heq⟩
  have hfirst := firstChar_form r hk (Nat.lt_of_lt_of_le hlt (bound_le_succ k))
  rw [heq, firstChar_encode t hm] at hfirst
  obtain ⟨rfl, rfl⟩ := Prod.mk.inj (some.inj hfirst)
  have hlength := length_encode_lt hk hlt
  rw [append_cancel_right heq] at hlength
  exact Nat.lt_irrefl _ hlength

/-- Nothing is written from a byte on that starts neither a character nor a longer form of one. -/
theorem escapeChars_stops (hchar : ¬ StartsChar s) (hlong : ¬ Overlong s) :
    escapeChars s = [] := by
  cases s with
  | nil => rw [escapeChars]
  | cons b q =>
    by_cases hzero : b = 0
    · rw [escapeChars, if_pos hzero]
    by_cases hb : b.toNat < 0x80
    · refine absurd ⟨b.toNat, q, .inl (by omega), fun h => hzero ?_, ?_⟩ hchar
      · rw [← UInt8.ofNat_toNat (x := b), h]
        rfl
      · rw [encode_ascii hb, ofNat_eq rfl, singleton_append]
    have hne : b ≠ 127 := by
      rintro rfl
      exact hb (by decide)
    rw [escapeChars, if_neg hzero, if_neg (by omega), if_neg (fun h => h.elim (by omega) hne)]
    split
    · rfl
    next u j hlead =>
      split
      · rfl
      next n r hcont =>
        rw [if_pos]
        by_contra hn
        have hscalar : Utf8.IsScalar n := by
          unfold Utf8.IsScalar
          omega
        obtain ⟨k, hk, hlt, heq⟩ := exists_form hlead hcont
        by_cases hle : n < bound k
        · exact hlong ⟨n, k, r, hk, hscalar, hle, heq⟩
        · have hle := Nat.le_of_not_lt hle
          have h80 := le_bound k
          refine hchar ⟨n, r, hscalar, by omega, ?_⟩
          rw [encode_eq_form hk hle hlt, heq]

/-! ## Whole strings -/

theorem encode_ne_nil (n : Nat) : encode n ≠ [] := by
  unfold encode
  split_ifs <;> simp

theorem longestText_append (hp : IsText p) (hr : ¬ StartsChar r) :
    LongestText (p ++ r) p := by
  refine ⟨prefix_append p r, hp, ?_⟩
  obtain ⟨ns, hns, rfl⟩ := hp
  rintro q ⟨t, hq⟩ ⟨ms, hms, rfl⟩
  induction ns generalizing ms with
  | nil =>
    cases ms with
    | nil => exact prefix_rfl
    | cons m ms =>
      obtain ⟨⟨hm, h0⟩, -⟩ := forall_mem_cons.1 hms
      rw [flatMap_cons, append_assoc] at hq
      exact absurd ⟨m, _, hm, h0, hq.symm⟩ hr
  | cons n ns ih =>
    cases ms with
    | nil => exact nil_prefix
    | cons m ms =>
      obtain ⟨⟨hm, -⟩, hms'⟩ := forall_mem_cons.1 hms
      obtain ⟨⟨hn, -⟩, hns'⟩ := forall_mem_cons.1 hns
      rw [flatMap_cons, flatMap_cons, append_assoc, append_assoc] at hq
      obtain ⟨rfl, hrest⟩ := encode_append_inj hm hn hq
      rw [flatMap_cons, flatMap_cons, prefix_append_right_inj]
      exact ih hns' ms hms' hrest

theorem exists_longestText (s : Octets) : ∃ p r, s = p ++ r ∧ IsText p ∧ ¬ StartsChar r := by
  induction hlen : s.length using Nat.strongRecOn generalizing s with
  | ind k ih =>
    by_cases hs : StartsChar s
    · obtain ⟨n, r, hn, h0, rfl⟩ := hs
      have hpos := length_pos_iff.2 (encode_ne_nil n)
      rw [length_append] at hlen
      obtain ⟨p, t, rfl, hp, ht⟩ := ih r.length (by omega) r rfl
      exact ⟨encode n ++ p, t, by rw [append_assoc], isText_cons hn h0 hp, ht⟩
    · exact ⟨[], s, rfl, isText_nil, hs⟩

theorem chars_overlong (hk : k ≤ 2) (hn : Utf8.IsScalar n)
    (hlt : n < bound k) (h : Chars false (escapeChars s) t) :
    Chars false (escapeChars (form n k ++ s)) (encode n ++ t) := by
  rw [escapeChars_form s hk hn (Nat.lt_of_lt_of_le hlt (bound_le_succ k))]
  exact chars_escapeUtf32 hn h

theorem chars_stops (hchar : ¬ StartsChar s) (hlong : ¬ Overlong s) :
    Chars false (escapeChars s) [] := by
  rw [escapeChars_stops hchar hlong]
  exact .nil

theorem exists_chars (s : Octets) : ∃ t, Chars false (escapeChars s) t := by
  induction hlen : s.length using Nat.strongRecOn generalizing s with
  | ind k ih =>
    obtain ⟨p, r, rfl, hp, hr⟩ := exists_longestText s
    by_cases hlong : Overlong r
    · obtain ⟨n, k, t, hk, hn, hlt, rfl⟩ := hlong
      have hlength := length_encode_lt hk hlt
      rw [length_append, length_append] at hlen
      obtain ⟨t', ht'⟩ := ih t.length (by omega) t rfl
      exact ⟨_, chars_escapeChars_append hp (chars_overlong hk hn hlt ht')⟩
    · exact ⟨_, chars_escapeChars_append hp (chars_stops hr hlong)⟩

theorem parse_dump_string (indent : Nat) (h : Chars false (escapeChars s) p) :
    parse (dump (.string s) indent) = .ok (.string p) :=
  parse_of_wrote (wrote_string ready_init h)

/-- What is read is the longest prefix of complete characters, unless a character follows it that is
not in its shortest form. -/
theorem parse_dump_string_iff (s : Octets) (indent : Nat) :
    (∃ p, LongestText s p ∧ parse (dump (.string s) indent) = .ok (.string p)) ↔
      ¬ ∃ p r, s = p ++ r ∧ IsText p ∧ Overlong r := by
  obtain ⟨p₀, r₀, rfl, hp₀, hr₀⟩ := exists_longestText s
  have hlongest := longestText_append hp₀ hr₀
  by_cases hlong : Overlong r₀
  · refine iff_of_false ?_ (not_not.2 ⟨p₀, r₀, rfl, hp₀, hlong⟩)
    rintro ⟨p, hp, hparse⟩
    obtain ⟨n, k, t, hk, hn, hlt, rfl⟩ := hlong
    obtain ⟨t', ht'⟩ := exists_chars t
    rw [parse_dump_string indent (chars_escapeChars_append hp₀ (chars_overlong hk hn hlt ht')),
      hp.unique hlongest] at hparse
    injection hparse with hparse
    injection hparse with hparse
    exact encode_ne_nil n (append_eq_nil_iff.1 (append_right_eq_self.1 hparse)).1
  · refine iff_of_true ⟨p₀, hlongest, ?_⟩ ?_
    · have hchars := chars_escapeChars_append hp₀ (chars_stops hr₀ hlong)
      rw [append_nil] at hchars
      exact parse_dump_string indent hchars
    · rintro ⟨p, r, heq, hp, hr⟩
      have hlongest' := longestText_append hp hr.not_startsChar
      rw [← heq] at hlongest'
      obtain rfl := hlongest.unique hlongest'
      exact hlong (append_cancel_left heq ▸ hr)

/-- The letter A in two bytes, which is not UTF-8, is read back as the letter in one byte. -/
theorem dump_overlong_letter :
    LongestText [0xc1, 0x81] [] ∧ parse (dump (.string [0xc1, 0x81]) 0) = .ok (.string [0x41]) := by
  have hlong : Overlong [0xc1, 0x81] := ⟨0x41, 0, [], by decide, by decide, by decide, rfl⟩
  refine ⟨longestText_append isText_nil hlong.not_startsChar, parse_dump_string 0 ?_⟩
  exact chars_overlong (n := 0x41) (k := 0) (s := []) (by decide) (by decide) (by decide)
    (chars_escapeChars isText_nil)

end JsonWriter

end GrpcCore
