import Mathlib.Algebra.Group.Nat.Defs
import Mathlib.Tactic.Common

/-!
# UTF-8

The encoding of a code point, and the same byte sequences as an automaton sees them: a first byte,
which says how many bytes follow, and the bytes that may follow it.
-/

namespace Utf8

/-- A Unicode scalar value: a code point that is not a surrogate. -/
def IsScalar (n : Nat) : Prop := n < 0xd800 ∨ (0xe000 ≤ n ∧ n < 0x110000)

instance (n : Nat) : Decidable (IsScalar n) := by unfold IsScalar; infer_instance

def encode (n : Nat) : List UInt8 :=
  if n < 0x80 then [.ofNat n]
  else if n < 0x800 then [.ofNat (0xc0 + n / 64), .ofNat (0x80 + n % 64)]
  else if n < 0x10000 then
    [.ofNat (0xe0 + n / 4096), .ofNat (0x80 + n / 64 % 64), .ofNat (0x80 + n % 64)]
  else
    [.ofNat (0xf0 + n / 262144), .ofNat (0x80 + n / 4096 % 64), .ofNat (0x80 + n / 64 % 64),
      .ofNat (0x80 + n % 64)]

/-- `c` is a first byte that `k` bytes follow. -/
def Lead (c k : Nat) : Prop :=
  (k = 0 ∧ c < 0x80) ∨ (k = 1 ∧ 0xc2 ≤ c ∧ c < 0xe0) ∨ (k = 2 ∧ 0xe0 ≤ c ∧ c < 0xf0) ∨
    (k = 3 ∧ 0xf0 ≤ c ∧ c ≤ 0xf4)

/-- `c` may be the next one where `k` bytes are missing after the first byte `f`. -/
def Cont (f k c : Nat) : Prop :=
  (0x80 ≤ c ∧ c < 0xc0) ∧ (k = 2 → (f = 0xe0 → 0xa0 ≤ c) ∧ (f = 0xed → c ≤ 0x9f)) ∧
    (k = 3 → (f = 0xf0 → 0x90 ≤ c) ∧ (f = 0xf4 → c ≤ 0x8f))

/-- The `k` bytes that are missing after the first byte `f`. -/
def Rest (f : Nat) : Nat → List UInt8 → Prop
  | 0, [] => True
  | k + 1, b :: q => Cont f (k + 1) b.toNat ∧ Rest f k q
  | _, _ => False

variable {a c f k n x y : Nat} {q : List UInt8} {b : UInt8}

@[simp]
theorem rest_zero : Rest f 0 q ↔ q = [] := by
  cases q <;> simp [Rest]

@[simp]
theorem rest_succ :
    Rest f (k + 1) q ↔ ∃ b q', q = b :: q' ∧ Cont f (k + 1) b.toNat ∧ Rest f k q' := by
  cases q with
  | nil => simp [Rest]
  | cons b q' =>
    constructor
    · exact fun h => ⟨b, q', rfl, h⟩
    · rintro ⟨_, _, heq, h⟩
      cases heq
      exact h

theorem Lead.le (h : Lead c k) : k ≤ 3 := by
  unfold Lead at h
  omega

theorem Lead.unique {k' : Nat} (h : Lead c k) (h' : Lead c k') : k = k' := by
  unfold Lead at h h'
  omega

theorem toNat_ofNat (h : n < 256) : (UInt8.ofNat n).toNat = n := by
  simpa using Nat.mod_eq_of_lt h

theorem ofNat_eq (h : n = b.toNat) : UInt8.ofNat n = b := by
  rw [h, UInt8.ofNat_toNat]

/-- The form of a code point in `k + 2` bytes, for `k` up to 2. -/
def form (n : Nat) : Nat → List UInt8
  | 0 => [.ofNat (0xc0 + n / 64), .ofNat (0x80 + n % 64)]
  | 1 => [.ofNat (0xe0 + n / 4096), .ofNat (0x80 + n / 64 % 64), .ofNat (0x80 + n % 64)]
  | _ =>
    [.ofNat (0xf0 + n / 262144), .ofNat (0x80 + n / 4096 % 64), .ofNat (0x80 + n / 64 % 64),
      .ofNat (0x80 + n % 64)]

/-- The code points below it have a form in `k + 1` bytes. -/
def bound : Nat → Nat
  | 0 => 0x80
  | 1 => 0x800
  | 2 => 0x10000
  | _ => 0x200000

/-- The first byte of a form has these bits before those of the code point. -/
def mark : Nat → Nat
  | 0 => 0xc0
  | 1 => 0xe0
  | _ => 0xf0

/-- The last `j` bytes of a form. -/
def lastBytes (n : Nat) : Nat → List UInt8
  | 0 => []
  | j + 1 => .ofNat (0x80 + n / 64 ^ j % 64) :: lastBytes n j

theorem form_eq (hk : k ≤ 2) :
    form n k = .ofNat (mark k + n / 64 ^ (k + 1)) :: lastBytes n (k + 1) := by
  match k, hk with
  | 0, _ | 1, _ | 2, _ => simp [form, mark, lastBytes]

theorem div_pow_succ (n j : Nat) : n / 64 ^ (j + 1) = n / 64 ^ j / 64 := by
  rw [Nat.pow_succ, Nat.div_div_eq_div_mul]

theorem bound_succ : ∀ k ≤ 2, bound (k + 1) = 64 ^ (k + 1) * 2 ^ (5 - k) := by decide

theorem le_bound (k : Nat) : 0x80 ≤ bound k := by
  match k with
  | 0 | 1 | 2 => decide
  | _ + 3 => exact (by decide : 0x80 ≤ 0x200000)

theorem bound_le_succ (k : Nat) : bound k ≤ bound (k + 1) := by
  match k with
  | 0 | 1 | 2 => decide
  | _ + 3 => exact Nat.le_refl _

theorem encode_eq_form (hk : k ≤ 2) (hle : bound k ≤ n) (hlt : n < bound (k + 1)) :
    encode n = form n k := by
  match k, hk with
  | 0, _ =>
    have hle : 0x80 ≤ n := hle
    have hlt : n < 0x800 := hlt
    rw [encode, if_neg (by omega), if_pos hlt, form]
  | 1, _ =>
    have hle : 0x800 ≤ n := hle
    have hlt : n < 0x10000 := hlt
    rw [encode, if_neg (by omega), if_neg (by omega), if_pos hlt, form]
  | 2, _ =>
    have hle : 0x10000 ≤ n := hle
    rw [encode, if_neg (by omega), if_neg (by omega), if_neg (by omega)]
    rfl

theorem exists_bound (hn : IsScalar n) (h80 : 0x80 ≤ n) :
    ∃ k ≤ 2, bound k ≤ n ∧ n < bound (k + 1) := by
  unfold IsScalar at hn
  by_cases h2 : n < 0x800
  · exact ⟨0, by decide, h80, h2⟩
  by_cases h3 : n < 0x10000
  · exact ⟨1, by decide, Nat.le_of_not_lt h2, h3⟩
  · exact ⟨2, by decide, Nat.le_of_not_lt h3, show n < 0x200000 by omega⟩

theorem length_encode_lt (hk : k ≤ 2) (hlt : n < bound k) :
    (encode n).length < (form n k).length := by
  match k, hk with
  | 0, _ =>
    have hlt : n < 0x80 := hlt
    simp [encode, form, hlt]
  | 1, _ =>
    have hlt : n < 0x800 := hlt
    unfold encode
    split_ifs <;> simp [form]
  | 2, _ =>
    have hlt : n < 0x10000 := hlt
    unfold encode
    split_ifs <;> simp [form]

theorem Cont.bits (h : Cont f k b.toNat) :
    ∃ x < 64, b = .ofNat (0x80 + x) ∧ b.toNat = 0x80 + x := by
  obtain ⟨⟨hlo, hhi⟩, -⟩ := h
  exact ⟨b.toNat - 0x80, by omega, (ofNat_eq (by omega)).symm, by omega⟩

theorem Rest.exists_lastBytes (h : Rest f k q) (a : Nat) :
    ∃ n, n / 64 ^ k = a ∧ q = lastBytes n k := by
  induction k generalizing a q with
  | zero => exact ⟨a, by simp, rest_zero.1 h⟩
  | succ k ih =>
    obtain ⟨b, q', rfl, hb, hr⟩ := rest_succ.1 h
    obtain ⟨x, hx, rfl, -⟩ := hb.bits
    obtain ⟨n, hn, rfl⟩ := ih hr (a * 64 + x)
    refine ⟨n, by rw [div_pow_succ]; omega, ?_⟩
    rw [lastBytes, hn, show (a * 64 + x) % 64 = x by omega]

/-- A sequence of bytes that the automaton takes is the encoding of a scalar value. -/
theorem exists_encode (hl : Lead b.toNat k)
    (hr : Rest b.toNat k q) : ∃ n, IsScalar n ∧ encode n = b :: q := by
  have hle := hl.le
  unfold Lead at hl
  cases k with
  | zero =>
    refine ⟨b.toNat, .inl (by omega), ?_⟩
    rw [encode, if_pos (by omega), rest_zero.1 hr, ofNat_eq rfl]
  | succ k =>
    have hk : k ≤ 2 := Nat.le_of_succ_le_succ hle
    obtain ⟨n, hn, rfl⟩ := hr.exists_lastBytes (b.toNat - mark k)
    have hcont : Cont b.toNat (k + 1) (UInt8.ofNat (0x80 + n / 64 ^ k % 64)).toNat := hr.1
    rw [toNat_ofNat (by omega)] at hcont
    have hn : IsScalar n ∧ bound k ≤ n ∧ n < bound (k + 1) ∧
        b.toNat = mark k + n / 64 ^ (k + 1) := by
      unfold IsScalar
      obtain rfl | rfl | rfl : k = 0 ∨ k = 1 ∨ k = 2 := by omega
      all_goals
        simp only [Cont, mark, bound, true_imp_iff] at hcont hn ⊢
        omega
    refine ⟨n, hn.1, ?_⟩
    rw [encode_eq_form hk hn.2.1 hn.2.2.1, form_eq hk, ofNat_eq hn.2.2.2.symm]

theorem encode_lead (h : IsScalar n) :
    ∃ b k q, encode n = b :: q ∧ Lead b.toNat k ∧ Rest b.toNat k q := by
  unfold IsScalar at h
  rw [encode]
  split_ifs with h1 h2 h3
  · refine ⟨_, 0, _, rfl, ?_, by simp⟩
    rw [toNat_ofNat (by omega)]
    exact .inl ⟨rfl, h1⟩
  · refine ⟨_, 1, _, rfl, ?_, ?_⟩
    · rw [toNat_ofNat (by omega)]
      exact .inr (.inl ⟨rfl, by omega, by omega⟩)
    · simp only [Rest, Cont, and_true]
      rw [toNat_ofNat (by omega)]
      omega
  · refine ⟨_, 2, _, rfl, ?_, ?_⟩
    · rw [toNat_ofNat (by omega)]
      exact .inr (.inr (.inl ⟨rfl, by omega, by omega⟩))
    · simp only [Rest, Cont, and_true]
      rw [toNat_ofNat (by omega), toNat_ofNat (by omega), toNat_ofNat (by omega)]
      omega
  · refine ⟨_, 3, _, rfl, ?_, ?_⟩
    · rw [toNat_ofNat (by omega)]
      exact .inr (.inr (.inr ⟨rfl, by omega, by omega⟩))
    · simp only [Rest, Cont, and_true]
      rw [toNat_ofNat (by omega), toNat_ofNat (by omega), toNat_ofNat (by omega),
        toNat_ofNat (by omega)]
      omega

theorem encode_ascii (h : n < 0x80) : encode n = [.ofNat n] := by
  rw [encode, if_pos h]

theorem encode_lead_le (hn : IsScalar n)
    (h : encode n = b :: q) (hb : b.toNat < 0x80) : n = b.toNat ∧ q = [] := by
  unfold IsScalar at hn
  rw [encode] at h
  split_ifs at h with h1 h2 h3 <;> obtain ⟨hbe, hq⟩ := List.cons.inj h <;> rw [← hbe] at hb ⊢ <;>
    rw [toNat_ofNat (by omega)] at hb ⊢
  · exact ⟨rfl, hq.symm⟩
  all_goals omega

end Utf8
