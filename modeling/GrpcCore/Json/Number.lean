import GrpcCore.Json.Grammar

/-!
# The number states of the reader

Between the first byte of a number and its end the reader is a finite automaton. Here it is on its
own, with the language of each of its states, and from these `ReaderNumber` as the language of the
whole.
-/

namespace GrpcCore

open Option JsonText List

namespace JsonReader

theorem forall_byte {P : UInt8 → Prop} (h : ∀ n < 256, P (UInt8.ofNat n)) (b : UInt8) : P b := by
  have := h b.toNat b.toNat_lt
  rwa [UInt8.ofNat_toNat] at this

variable {b : UInt8} {state : State} {s x : Octets}

set_option maxRecDepth 8000 in
theorem isDigit_iff : isDigit b.toNat = true ↔ Digit b :=
  forall_byte (P := fun b => isDigit b.toNat = true ↔ Digit b) (by decide) b

/-- The number state after a byte. `valueBegin` is the one before the first byte. -/
def numberNext (state : State) (c : Nat) : Option State :=
  match state with
  | .valueBegin =>
    if c = '0'.toNat then some .valueNumberZero
    else if isDigit c ∨ c = '-'.toNat then some .valueNumber
    else none
  | .valueNumber =>
    if isDigit c then some .valueNumber
    else if c = 'e'.toNat ∨ c = 'E'.toNat then some .valueNumberE
    else if c = '.'.toNat then some .valueNumberDot
    else none
  | .valueNumberWithDecimal =>
    if isDigit c then some .valueNumberWithDecimal
    else if c = 'e'.toNat ∨ c = 'E'.toNat then some .valueNumberE
    else none
  | .valueNumberZero => if c ≠ '.'.toNat then none else some .valueNumberDot
  | .valueNumberDot => if isDigit c then some .valueNumberWithDecimal else none
  | .valueNumberE =>
    if isDigit c ∨ c = '+'.toNat ∨ c = '-'.toNat then some .valueNumberEpm else none
  | .valueNumberEpm => if isDigit c then some .valueNumberEpm else none
  | _ => none

/-- The number states in which a number may end. -/
def numberDone : State → Bool
  | .valueNumber | .valueNumberWithDecimal | .valueNumberZero | .valueNumberEpm => true
  | _ => false

def numberRun (state : State) : Octets → Option State
  | [] => some state
  | b :: s => (numberNext state b.toNat).bind fun state => numberRun state s

/-- A number that is read from `state` to its end. -/
def NumberRest (state : State) (s : Octets) : Prop :=
  ∃ st, numberRun state s = some st ∧ numberDone st

theorem numberRest_nil : NumberRest state [] ↔ numberDone state := by
  simp [NumberRest, numberRun]

theorem numberRest_cons :
    NumberRest state (b :: s) ↔ ∃ st, numberNext state b.toNat = some st ∧ NumberRest st s := by
  simp only [NumberRest, numberRun, bind_eq_some_iff]
  grind

/-! ## The languages of the states -/

theorem numberNext_digit (hb : Digit b)
    (hs : state = .valueNumber ∨ state = .valueNumberWithDecimal ∨ state = .valueNumberEpm) :
    numberNext state b.toNat = some state := by
  have hb := isDigit_iff.2 hb
  rcases hs with rfl | rfl | rfl <;> simp [numberNext, hb]

theorem numberRest_digits {t : Octets} (ht : ∀ b ∈ t, Digit b)
    (hs : state = .valueNumber ∨ state = .valueNumberWithDecimal ∨ state = .valueNumberEpm)
    (h : NumberRest state s) : NumberRest state (t ++ s) := by
  induction t with
  | nil => exact h
  | cons b t ih =>
    exact numberRest_cons.2 ⟨state, numberNext_digit (ht b mem_cons_self) hs,
      ih fun x hx => ht x (mem_cons_of_mem _ hx)⟩

theorem numberRest_epm : NumberRest .valueNumberEpm s ↔ ∀ b ∈ s, Digit b := by
  induction s with
  | nil => simp [numberRest_nil, numberDone]
  | cons b s ih => simp [numberRest_cons, numberNext, isDigit_iff, ih]

set_option maxRecDepth 8000 in
theorem mem_letters_iff :
    b ∈ octets "eE" ↔ b.toNat = 'e'.toNat ∨ b.toNat = 'E'.toNat :=
  forall_byte (P := fun b => b ∈ octets "eE" ↔ b.toNat = 'e'.toNat ∨ b.toNat = 'E'.toNat)
    (by decide) b

set_option maxRecDepth 8000 in
theorem mem_signs_iff :
    b ∈ octets "+-" ↔ b.toNat = '+'.toNat ∨ b.toNat = '-'.toNat :=
  forall_byte (P := fun b => b ∈ octets "+-" ↔ b.toNat = '+'.toNat ∨ b.toNat = '-'.toNat)
    (by decide) b

theorem numberRest_e : NumberRest .valueNumberE s ↔
    ∃ b t, s = b :: t ∧ (Digit b ∨ b ∈ octets "+-") ∧ ∀ x ∈ t, Digit x := by
  cases s with
  | nil => simp [numberRest_nil, numberDone]
  | cons b s =>
    simp only [numberRest_cons, numberNext, isDigit_iff, ← mem_signs_iff,
      ite_none_right_eq_some, some.injEq, cons.injEq]
    constructor
    · rintro ⟨_, ⟨hb, rfl⟩, h⟩
      exact ⟨b, s, ⟨rfl, rfl⟩, hb, numberRest_epm.1 h⟩
    · rintro ⟨_, _, ⟨rfl, rfl⟩, hb, h⟩
      exact ⟨_, ⟨hb, rfl⟩, numberRest_epm.2 h⟩

theorem readerExponent_cons :
    ReaderExponent (b :: s) ↔ b ∈ octets "eE" ∧ NumberRest .valueNumberE s := by
  rw [numberRest_e]
  constructor
  · rintro ⟨l, c, t, h, hl, hc, ht⟩
    cases h
    exact ⟨hl, c, t, rfl, hc, ht⟩
  · rintro ⟨hl, c, t, rfl, hc, ht⟩
    exact ⟨b, c, t, rfl, hl, hc, ht⟩

set_option maxRecDepth 8000 in
theorem not_digit_of_letter : b ∈ octets "eE" → ¬ Digit b :=
  forall_byte (P := fun b => b ∈ octets "eE" → ¬ Digit b) (by decide) b

theorem numberRest_exponent (hs : state = .valueNumber ∨ state = .valueNumberWithDecimal)
    (h : x = [] ∨ ReaderExponent x) : NumberRest state x := by
  cases x with
  | nil => rcases hs with rfl | rfl <;> exact numberRest_nil.2 rfl
  | cons b x =>
    obtain ⟨hb, hx⟩ := readerExponent_cons.1 (h.resolve_left (by simp))
    have hd := mt isDigit_iff.1 (not_digit_of_letter hb)
    refine numberRest_cons.2 ⟨_, ?_, hx⟩
    have hb' := mem_letters_iff.1 hb
    rcases hs with rfl | rfl <;> simp only [numberNext, if_neg hd, if_pos hb']

theorem numberRest_withDecimal : NumberRest .valueNumberWithDecimal s ↔
    ∃ t x, s = t ++ x ∧ (∀ b ∈ t, Digit b) ∧ (x = [] ∨ ReaderExponent x) := by
  constructor
  · intro h
    induction s with
    | nil => exact ⟨[], [], rfl, by simp, .inl rfl⟩
    | cons b s ih =>
      obtain ⟨st, hst, hrest⟩ := numberRest_cons.1 h
      rw [numberNext] at hst
      split_ifs at hst with hd he
      · cases hst
        obtain ⟨t, x, rfl, ht, hx⟩ := ih hrest
        exact ⟨b :: t, x, rfl, by simpa using ⟨isDigit_iff.1 hd, ht⟩, hx⟩
      · cases hst
        exact ⟨[], b :: s, rfl, by simp,
          .inr (readerExponent_cons.2 ⟨mem_letters_iff.2 he, hrest⟩)⟩
  · rintro ⟨t, x, rfl, ht, hx⟩
    exact numberRest_digits ht (.inr (.inl rfl)) (numberRest_exponent (.inr rfl) hx)

/-- What may follow the integer part of a number, when something does: a fraction, and perhaps an
exponent after it. -/
theorem numberRest_dot : NumberRest .valueNumberDot s ↔
    ∃ f x, ch '.' :: s = f ++ x ∧ Fraction f ∧ (x = [] ∨ ReaderExponent x) := by
  constructor
  · intro h
    cases s with
    | nil => simp [numberRest_nil, numberDone] at h
    | cons b s =>
      obtain ⟨st, hst, hrest⟩ := numberRest_cons.1 h
      rw [numberNext] at hst
      split_ifs at hst with hd
      cases hst
      obtain ⟨t, x, rfl, ht, hx⟩ := numberRest_withDecimal.1 hrest
      exact ⟨ch '.' :: b :: t, x, rfl, ⟨b, t, rfl, by simpa using ⟨isDigit_iff.1 hd, ht⟩⟩, hx⟩
  · rintro ⟨_, x, hs, ⟨b, t, rfl, hd⟩, hx⟩
    cases hs
    refine numberRest_cons.2 ⟨.valueNumberWithDecimal, ?_, numberRest_withDecimal.2
      ⟨t, x, rfl, fun y hy => hd y (mem_cons_of_mem _ hy), hx⟩⟩
    rw [numberNext, if_pos (isDigit_iff.2 (hd b mem_cons_self))]

theorem eq_dot (h : b.toNat = '.'.toNat) : b = ch '.' := UInt8.toNat_inj.1 h

theorem numberRest_zero : NumberRest .valueNumberZero s ↔
    ∃ f x, s = f ++ x ∧ (f = [] ∧ x = [] ∨ Fraction f ∧ (x = [] ∨ ReaderExponent x)) := by
  constructor
  · intro h
    cases s with
    | nil => exact ⟨[], [], rfl, .inl ⟨rfl, rfl⟩⟩
    | cons b s =>
      obtain ⟨st, hst, hrest⟩ := numberRest_cons.1 h
      rw [numberNext] at hst
      split_ifs at hst with hd
      cases hst
      obtain ⟨f, x, hs, hf, hx⟩ := numberRest_dot.1 hrest
      rw [eq_dot (not_not.1 hd)]
      exact ⟨f, x, hs, .inr ⟨hf, hx⟩⟩
  · rintro ⟨f, x, rfl, ⟨rfl, rfl⟩ | ⟨⟨b, t, rfl, hd⟩, hx⟩⟩
    · exact numberRest_nil.2 rfl
    · exact numberRest_cons.2 ⟨_, rfl, numberRest_dot.2 ⟨_, x, rfl, ⟨b, t, rfl, hd⟩, hx⟩⟩

theorem numberRest_number : NumberRest .valueNumber s ↔
    ∃ t f x, s = t ++ f ++ x ∧ (∀ b ∈ t, Digit b) ∧ (f = [] ∨ Fraction f) ∧
      (x = [] ∨ ReaderExponent x) := by
  constructor
  · intro h
    induction s with
    | nil => exact ⟨[], [], [], rfl, by simp, .inl rfl, .inl rfl⟩
    | cons b s ih =>
      obtain ⟨st, hst, hrest⟩ := numberRest_cons.1 h
      rw [numberNext] at hst
      split_ifs at hst with hd he hdot
      · cases hst
        obtain ⟨t, f, x, rfl, ht, hf, hx⟩ := ih hrest
        exact ⟨b :: t, f, x, rfl, by simpa using ⟨isDigit_iff.1 hd, ht⟩, hf, hx⟩
      · cases hst
        exact ⟨[], [], b :: s, rfl, by simp, .inl rfl,
          .inr (readerExponent_cons.2 ⟨mem_letters_iff.2 he, hrest⟩)⟩
      · cases hst
        obtain ⟨f, x, hs, hf, hx⟩ := numberRest_dot.1 hrest
        exact ⟨[], f, x, by rw [eq_dot hdot, hs, nil_append], by simp, .inr hf, hx⟩
  · rintro ⟨t, f, x, rfl, ht, hf, hx⟩
    rw [append_assoc]
    refine numberRest_digits ht (.inl rfl) ?_
    rcases hf with rfl | ⟨b, t, rfl, hd⟩
    · exact numberRest_exponent (.inl rfl) hx
    · exact numberRest_cons.2 ⟨_, rfl, numberRest_dot.2 ⟨_, x, rfl, ⟨b, t, rfl, hd⟩, hx⟩⟩

/-! ## The language of the automaton -/

theorem readerNumber_iff : ReaderNumber s ↔ NumberRest .valueBegin s := by
  constructor
  · rintro ⟨int, frac, exp, rfl, hint, hfrac, hexp⟩
    rcases hint with ⟨rfl, hzero⟩ | ⟨b, t, rfl, hb0, hb, ht⟩
    · refine numberRest_cons.2 ⟨_, rfl, numberRest_zero.2 ⟨frac, exp, rfl, ?_⟩⟩
      rcases hfrac with rfl | hfrac
      · exact .inl ⟨rfl, hzero rfl⟩
      · exact .inr ⟨hfrac, hexp⟩
    · refine numberRest_cons.2 ⟨.valueNumber, ?_, numberRest_number.2
        ⟨t, frac, exp, rfl, ht, hfrac, hexp⟩⟩
      have hne : ¬ b.toNat = '0'.toNat := fun h => hb0 (UInt8.toNat_inj.1 h)
      rw [numberNext, if_neg hne, if_pos]
      rcases hb with hb | rfl
      · exact .inl (isDigit_iff.2 hb)
      · exact .inr rfl
  · intro h
    cases s with
    | nil => simp [numberRest_nil, numberDone] at h
    | cons b s =>
      obtain ⟨st, hst, hrest⟩ := numberRest_cons.1 h
      rw [numberNext] at hst
      split_ifs at hst with h0 hb
      · cases hst
        obtain ⟨f, x, rfl, hfx⟩ := numberRest_zero.1 hrest
        refine ⟨[b], f, x, rfl, .inl ⟨congrArg (· :: []) (UInt8.toNat_inj.1 h0), ?_⟩, ?_, ?_⟩
        · rintro rfl
          rcases hfx with ⟨-, rfl⟩ | ⟨⟨_, _, hf, -⟩, -⟩
          · rfl
          · cases hf
        · exact hfx.imp And.left And.left
        · rcases hfx with ⟨-, rfl⟩ | ⟨-, hx⟩
          · exact .inl rfl
          · exact hx
      · cases hst
        obtain ⟨t, f, x, rfl, ht, hf, hx⟩ := numberRest_number.1 hrest
        refine ⟨b :: t, f, x, rfl, .inr ⟨b, t, rfl, ?_, ?_, ht⟩, hf, hx⟩
        · rintro rfl
          exact h0 rfl
        · exact hb.imp isDigit_iff.1 UInt8.toNat_inj.1

theorem Exponent.reader (h : Exponent x) : ReaderExponent x := by
  obtain ⟨l, sign, b, t, rfl, hl, hsign, hd⟩ := h
  rcases hsign with rfl | rfl | rfl
  · exact ⟨l, b, t, rfl, hl, .inl (hd b mem_cons_self),
      fun y hy => hd y (mem_cons_of_mem _ hy)⟩
  · exact ⟨l, ch '+', b :: t, rfl, hl, .inr (by decide), hd⟩
  · exact ⟨l, ch '-', b :: t, rfl, hl, .inr (by decide), hd⟩

/-- The numbers of the standard are the reader's, but for a `0` with an exponent. -/
theorem Number.reader_or_refused (h : Number s) :
    ReaderNumber s ∨ ∃ l t, s = ch '0' :: l :: t ∧ l ∈ octets "eE" := by
  obtain ⟨sign, int, frac, exp, rfl, hsign, hint, hfrac, hexp⟩ := h
  have hexp' := hexp.imp_right Exponent.reader
  have hd0 : ∀ x ∈ octets "0", Digit x := forall_mem_singleton.2 (by decide)
  rcases hsign with rfl | rfl
  · rcases hint with rfl | ⟨b, t, rfl, hb0, hd⟩
    · rcases hfrac with rfl | hfrac
      · rcases hexp with rfl | ⟨l, sign, b, t, rfl, hl, -, -⟩
        · exact .inl ⟨octets "0", [], [], rfl, .inl ⟨rfl, fun _ => rfl⟩, .inl rfl, .inl rfl⟩
        · exact .inr ⟨l, _, rfl, hl⟩
      · refine .inl ⟨octets "0", frac, exp, rfl, .inl ⟨rfl, ?_⟩, .inr hfrac, hexp'⟩
        rintro rfl
        obtain ⟨_, _, hf, -⟩ := hfrac
        cases hf
    · exact .inl ⟨b :: t, frac, exp, rfl, .inr ⟨b, t, rfl, hb0, .inl (hd b mem_cons_self),
        fun y hy => hd y (mem_cons_of_mem _ hy)⟩, hfrac, hexp'⟩
  · have hdigits : ∀ x ∈ int, Digit x := by
      rcases hint with rfl | ⟨b, t, rfl, -, hd⟩
      · exact hd0
      · exact hd
    exact .inl ⟨ch '-' :: int, frac, exp, rfl,
      .inr ⟨ch '-', int, rfl, by decide, .inr rfl, hdigits⟩, hfrac, hexp'⟩

end JsonReader

end GrpcCore
