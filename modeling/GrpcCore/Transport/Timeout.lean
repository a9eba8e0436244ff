import GrpcCore.Gprpp.Time
import Mathlib.Tactic.Linarith

/-!
# The timeout header

`Timeout` of `timeout_encoding.cc`: a duration is rounded up to a count of one of eleven units,
printed, and parsed again by the peer.

`FromMillis`, `FromSeconds`, `FromMinutes` and `FromHours` pass a rounded count on to the next
larger unit. What each of them may rely on is `RoundsUp`: the count is the duration rounded up to
the unit, and the rounding adds at most one percent. A count that is passed on keeps both, as the
larger unit then divides the rounded value, or the value is above a hundred of the larger unit.

A failing assertion and a signed overflow have no result.
-/

namespace GrpcCore

open Option

/-- `DivideRoundingUp`. The sum that is one too large is computed first, and overflows. -/
def divideRoundingUp (dividend divisor : Int) : Option Int :=
  if InInt64 (dividend + divisor) then some ((dividend + divisor - 1).tdiv divisor) else none

theorem inInt64_of_lt {x : Int} (h₀ : 0 ≤ x) (h₁ : x < 2 ^ 32) : InInt64 x := by
  simp only [InInt64, int64Min, int64Max]
  omega

def kSecondsPerMinute : Int := 60

def kMinutesPerHour : Int := 60

def kMaxHours : Int := 27000

namespace Timeout

inductive Unit where
  | kNanoseconds
  | kMilliseconds
  | kTenMilliseconds
  | kHundredMilliseconds
  | kSeconds
  | kTenSeconds
  | kHundredSeconds
  | kMinutes
  | kTenMinutes
  | kHundredMinutes
  | kHours

end Timeout

/-- A timeout, with the argument of its constructor. -/
structure Timeout where
  value : Int
  unit : Timeout.Unit

namespace Timeout

def stored (t : Timeout) : Nat := (t.value % 2 ^ 16).toNat

theorem stored_lt (t : Timeout) : t.stored < 2 ^ 16 := by
  unfold stored
  omega

theorem stored_eq {t : Timeout} (h₀ : 0 ≤ t.value) (h₁ : t.value < 2 ^ 16) :
    (t.stored : Int) = t.value := by
  unfold stored
  omega

def asDuration (t : Timeout) : Duration :=
  have hlt := t.stored_lt
  match t.unit with
  | .kNanoseconds => .zero
  | .kMilliseconds => .milliseconds t.stored (inInt64_of_lt (by omega) (by omega))
  | .kTenMilliseconds => .milliseconds (t.stored * 10) (inInt64_of_lt (by omega) (by omega))
  | .kHundredMilliseconds => .milliseconds (t.stored * 100) (inInt64_of_lt (by omega) (by omega))
  | .kSeconds => .seconds t.stored
  | .kTenSeconds => .seconds (t.stored * 10)
  | .kHundredSeconds => .seconds (t.stored * 100)
  | .kMinutes => .minutes t.stored
  | .kTenMinutes => .minutes (t.stored * 10)
  | .kHundredMinutes => .minutes (t.stored * 100)
  | .kHours => .hours t.stored

/-! ## From a duration -/

def fromHours (hours : Int) : Option Timeout :=
  if hours = 0 then none
  else if hours < kMaxHours then some ⟨hours, .kHours⟩
  else some ⟨kMaxHours, .kHours⟩

/-- `FromSeconds` and `FromMinutes`: the units for one, ten and a hundred, how many make up the next
larger unit, and the function for that one. -/
def fromCount (one ten hundred : Unit) (perNext : Int) (next : Int → Option Timeout) (count : Int) :
    Option Timeout :=
  let larger := (divideRoundingUp count perNext).bind next
  if count = 0 then none
  else if count < 1000 then
    if count.tmod perNext ≠ 0 then some ⟨count, one⟩ else larger
  else if count < 10000 then
    (divideRoundingUp count 10).bind fun value =>
      if (value * 10).tmod perNext ≠ 0 then some ⟨value, ten⟩ else larger
  else if count < 100000 then
    (divideRoundingUp count 100).bind fun value =>
      if (value * 100).tmod perNext ≠ 0 then some ⟨value, hundred⟩ else larger
  else larger

def fromMinutes : Int → Option Timeout :=
  fromCount .kMinutes .kTenMinutes .kHundredMinutes kMinutesPerHour fromHours

def fromSeconds : Int → Option Timeout :=
  fromCount .kSeconds .kTenSeconds .kHundredSeconds kSecondsPerMinute fromMinutes

def fromMillis (millis : Int) : Option Timeout :=
  let larger := (divideRoundingUp millis 1000).bind fromSeconds
  if millis ≤ 0 then some ⟨1, .kNanoseconds⟩
  else if millis < 1000 then some ⟨millis, .kMilliseconds⟩
  else if millis < 10000 then
    (divideRoundingUp millis 10).bind fun value =>
      if value.tmod 100 ≠ 0 then some ⟨value, .kTenMilliseconds⟩ else larger
  else if millis < 100000 then
    (divideRoundingUp millis 100).bind fun value =>
      if value.tmod 10 ≠ 0 then some ⟨value, .kHundredMilliseconds⟩ else larger
  else larger

def fromDuration (duration : Duration) : Option Timeout := fromMillis duration.millis

/-! ## The text -/

def digits (n : Nat) : Nat :=
  if 10000 ≤ n then 5 else if 1000 ≤ n then 4 else if 100 ≤ n then 3 else if 10 ≤ n then 2 else 1

/-- The cases of the switch of `Encode` over the number of digits, from one of them on. -/
def writeDigits : Nat → Nat → List UInt8
  | 0, _ => []
  | k + 1, n => ('0'.toUInt8 + UInt8.ofNat (n / 10 ^ k)) :: writeDigits k (n % 10 ^ k)

/-- The zeros that stand for a factor of a unit, and the letter of the unit. -/
def Unit.suffix : Unit → List UInt8
  | .kNanoseconds => ['n'.toUInt8]
  | .kHundredMilliseconds => ['0'.toUInt8, '0'.toUInt8, 'm'.toUInt8]
  | .kTenMilliseconds => ['0'.toUInt8, 'm'.toUInt8]
  | .kMilliseconds => ['m'.toUInt8]
  | .kHundredSeconds => ['0'.toUInt8, '0'.toUInt8, 'S'.toUInt8]
  | .kTenSeconds => ['0'.toUInt8, 'S'.toUInt8]
  | .kSeconds => ['S'.toUInt8]
  | .kHundredMinutes => ['0'.toUInt8, '0'.toUInt8, 'M'.toUInt8]
  | .kTenMinutes => ['0'.toUInt8, 'M'.toUInt8]
  | .kMinutes => ['M'.toUInt8]
  | .kHours => ['H'.toUInt8]

def encode (t : Timeout) : List UInt8 := writeDigits (digits t.stored) t.stored ++ t.unit.suffix

end Timeout

namespace ParseTimeout

/-- The loop of `ParseTimeout` over the digits: the number read so far, whether there was a digit,
and the text that is left. `none` is the early return of infinity. -/
def parseDigits (x : Nat) (haveDigit : Bool) : List UInt8 → Option (Nat × Bool × List UInt8)
  | [] => some (x, haveDigit, [])
  | p :: text =>
    if '0'.toUInt8 ≤ p ∧ p ≤ '9'.toUInt8 then
      let digit := (p - '0'.toUInt8).toNat
      if 100 * 1000 * 1000 ≤ x ∧ (x ≠ 100 * 1000 * 1000 ∨ digit ≠ 0) then none
      else parseDigits (x * 10 + digit) true text
    else some (x, haveDigit, p :: text)

def skipSpace (text : List UInt8) : List UInt8 := text.dropWhile (· = ' '.toUInt8)

def isAllSpace (text : List UInt8) : Bool := (skipSpace text).isEmpty

/-- A quotient that is rounded up, as in the cases of the small units. -/
def roundUp (x perMs : Nat) : Nat := x / perMs + if x % perMs ≠ 0 then 1 else 0

variable {x : Nat}

theorem inInt64_roundUp (hx : x < 2 ^ 31) (perMs : Nat) : InInt64 (roundUp x perMs) := by
  have hdiv := Nat.div_le_self x perMs
  have hle : roundUp x perMs ≤ x + 1 := by
    unfold roundUp
    split <;> omega
  exact inInt64_of_lt (by omega) (by omega)

/-- The duration of a number of units. `x` is an `int32_t`. -/
def ofUnit (x : Nat) (hx : x < 2 ^ 31) (p : UInt8) : Option Duration :=
  if p = 'n'.toUInt8 then
    some (.milliseconds (roundUp x 1000000) (inInt64_roundUp hx _))
  else if p = 'u'.toUInt8 then
    some (.milliseconds (roundUp x 1000) (inInt64_roundUp hx _))
  else if p = 'm'.toUInt8 then
    some (.milliseconds x (inInt64_of_lt (by omega) (by omega)))
  else if p = 'S'.toUInt8 then some (.seconds x)
  else if p = 'M'.toUInt8 then some (.minutes x)
  else if p = 'H'.toUInt8 then some (.hours x)
  else none

theorem digit_le {p : UInt8} (h : '0'.toUInt8 ≤ p ∧ p ≤ '9'.toUInt8) :
    (p - '0'.toUInt8).toNat ≤ 9 := by
  have hle : p.toNat ≤ 57 := UInt8.le_iff_toNat_le.1 h.2
  have hzero : '0'.toUInt8.toNat = 48 := rfl
  rw [UInt8.toNat_sub_of_le _ _ h.1]
  omega

theorem parseDigits_lt {x' : Nat} {haveDigit haveDigit' : Bool} {text rest : List UInt8}
    (h : parseDigits x haveDigit text = some (x', haveDigit', rest)) (hx : x ≤ 10 ^ 9) :
    x' < 2 ^ 31 := by
  induction text generalizing x haveDigit with
  | nil =>
    cases h
    omega
  | cons p text ih =>
    rw [parseDigits] at h
    split at h
    · next hp =>
      have hdigit := digit_le hp
      dsimp only at h
      split at h
      · cases h
      · next hlimit => exact ih h (by omega)
    · cases h
      omega

end ParseTimeout

open ParseTimeout in
def parseTimeout (text : List UInt8) : Option Duration :=
  match h : parseDigits 0 false (skipSpace text) with
  | none => some .infinity
  | some (x, haveDigit, text) =>
    if !haveDigit then none
    else
      match skipSpace text with
      | [] => none
      | p :: rest =>
        match ofUnit x (parseDigits_lt h (by decide)) p with
        | none => none
        | some timeout => if isAllSpace rest then some timeout else none

/-! ## The text is read back -/

namespace Timeout

theorem length_writeDigits (k n : Nat) : (writeDigits k n).length = k := by
  induction k generalizing n with
  | zero => rfl
  | succ k ih => exact congrArg (· + 1) (ih _)

theorem length_encode_le (t : Timeout) : t.encode.length ≤ 8 := by
  have hdigits : digits t.stored ≤ 5 := by
    unfold digits
    split_ifs <;> omega
  have hsuffix : t.unit.suffix.length ≤ 3 := by cases t.unit <;> decide
  rw [encode, List.length_append, length_writeDigits]
  omega

theorem lt_pow_digits {n : Nat} (h : n < 2 ^ 16) : n < 10 ^ digits n := by
  unfold digits
  split_ifs <;> omega

theorem digits_pos (n : Nat) : digits n ≠ 0 := by
  unfold digits
  split_ifs <;> decide

open ParseTimeout

variable {count d n : Int} {c x : Nat} {haveDigit : Bool} {text : List UInt8}

theorem toNat_digit (hc : c < 10) : ('0'.toUInt8 + UInt8.ofNat c).toNat = 48 + c := by
  rw [UInt8.toNat_add, UInt8.toNat_ofNat']
  change (48 + c % 2 ^ 8) % 2 ^ 8 = 48 + c
  omega

theorem parseDigits_digit (hc : c < 10) (hx : x < 10 ^ 8) :
    parseDigits x haveDigit (('0'.toUInt8 + UInt8.ofNat c) :: text) =
      parseDigits (x * 10 + c) true text := by
  have hzero : '0'.toUInt8.toNat = 48 := rfl
  have hnat := toNat_digit hc
  have hle : '0'.toUInt8 ≤ '0'.toUInt8 + UInt8.ofNat c := by
    rw [UInt8.le_iff_toNat_le, hnat, hzero]
    omega
  have hge : '0'.toUInt8 + UInt8.ofNat c ≤ '9'.toUInt8 := by
    rw [UInt8.le_iff_toNat_le, hnat]
    exact Nat.add_le_add_left (Nat.le_of_lt_succ hc) 48
  have hdigit : ('0'.toUInt8 + UInt8.ofNat c - '0'.toUInt8).toNat = c := by
    rw [UInt8.toNat_sub_of_le _ _ hle, hnat, hzero]
    omega
  rw [parseDigits, if_pos ⟨hle, hge⟩, hdigit, if_neg (by omega)]

theorem parseDigits_writeDigits {k n : Nat} (haveDigit : Bool) (text : List UInt8)
    (hn : n < 10 ^ k) (hx : x * 10 ^ k + n < 10 ^ 8) :
    parseDigits x haveDigit (writeDigits k n ++ text) =
      parseDigits (x * 10 ^ k + n) (haveDigit || k != 0) text := by
  induction k generalizing n x haveDigit with
  | zero =>
    have hn : n = 0 := by simpa using hn
    simp [writeDigits, hn]
  | succ k ih =>
    have hpow : 0 < 10 ^ k := Nat.pow_pos (by decide)
    have hlast : n / 10 ^ k < 10 := Nat.div_lt_of_lt_mul (by rwa [← Nat.pow_succ])
    have hsplit : 10 ^ k * (n / 10 ^ k) + n % 10 ^ k = n := Nat.div_add_mod n (10 ^ k)
    have hvalue : (x * 10 + n / 10 ^ k) * 10 ^ k + n % 10 ^ k = x * 10 ^ (k + 1) + n := by
      rw [Nat.add_mul, Nat.mul_assoc, ← Nat.pow_succ', Nat.mul_comm (n / 10 ^ k), Nat.add_assoc,
        hsplit]
    have hx' : x < 10 ^ 8 := by
      have : x ≤ x * 10 ^ (k + 1) := Nat.le_mul_of_pos_right x (Nat.pow_pos (by decide))
      omega
    rw [writeDigits, List.cons_append, parseDigits_digit hlast hx',
      ih true (Nat.mod_lt n hpow) (hvalue ▸ hx), hvalue]
    simp

theorem parseDigits_zero (hx : x < 10 ^ 8) :
    parseDigits x haveDigit ('0'.toUInt8 :: text) = parseDigits (x * 10) true text :=
  parseDigits_digit (c := 0) (by decide) hx

theorem parseDigits_letter {p : UInt8} (hp : ¬ ('0'.toUInt8 ≤ p ∧ p ≤ '9'.toUInt8)) :
    parseDigits x haveDigit (p :: text) = some (x, haveDigit, p :: text) := by
  rw [parseDigits, if_neg hp]

theorem parseDigits_encode (t : Timeout) (hunit : t.unit ≠ .kNanoseconds) :
    ∃ x c, parseDigits 0 false t.encode = some (x, true, [c]) ∧ c ≠ ' '.toUInt8 ∧
      ∀ hx, ofUnit x hx c = some t.asDuration := by
  have hlt := t.stored_lt
  have hread : parseDigits 0 false t.encode = parseDigits t.stored true t.unit.suffix := by
    rw [encode, parseDigits_writeDigits false _ (lt_pow_digits hlt) (by omega)]
    simp [bne_iff_ne.2 (digits_pos t.stored)]
  rw [hread]
  obtain ⟨value, unit⟩ := t
  -- A letter without zeros, with one zero and with two zeros in front of it.
  have hone {p : UInt8} (hp : ¬ ('0'.toUInt8 ≤ p ∧ p ≤ '9'.toUInt8)) :
      parseDigits (stored ⟨value, unit⟩) true [p] = some (stored ⟨value, unit⟩, true, [p]) :=
    parseDigits_letter hp
  have hten {p : UInt8} (hp : ¬ ('0'.toUInt8 ≤ p ∧ p ≤ '9'.toUInt8)) :
      parseDigits (stored ⟨value, unit⟩) true ['0'.toUInt8, p] =
        some (stored ⟨value, unit⟩ * 10, true, [p]) :=
    (parseDigits_zero (by omega)).trans (parseDigits_letter hp)
  have hhundred {p : UInt8} (hp : ¬ ('0'.toUInt8 ≤ p ∧ p ≤ '9'.toUInt8)) :
      parseDigits (stored ⟨value, unit⟩) true ['0'.toUInt8, '0'.toUInt8, p] =
        some (stored ⟨value, unit⟩ * 100, true, [p]) := by
    rw [parseDigits_zero (by omega), parseDigits_zero (by omega), parseDigits_letter hp,
      Nat.mul_assoc]
  cases unit with
  | kNanoseconds => exact absurd rfl hunit
  | kMilliseconds | kSeconds | kMinutes | kHours =>
    exact ⟨_, _, hone (by decide), by decide, fun _ => rfl⟩
  | kTenMilliseconds | kTenSeconds | kTenMinutes =>
    exact ⟨_, _, hten (by decide), by decide, fun _ => rfl⟩
  | kHundredMilliseconds | kHundredSeconds | kHundredMinutes =>
    exact ⟨_, _, hhundred (by decide), by decide, fun _ => rfl⟩

theorem skipSpace_encode (t : Timeout) : skipSpace t.encode = t.encode := by
  obtain ⟨k, hk⟩ := Nat.exists_eq_succ_of_ne_zero (digits_pos t.stored)
  have hlt : t.stored < 10 ^ k * 10 := by
    rw [← Nat.pow_succ, ← hk]
    exact lt_pow_digits t.stored_lt
  have hc : t.stored / 10 ^ k < 10 := Nat.div_lt_of_lt_mul hlt
  have hne : '0'.toUInt8 + UInt8.ofNat (t.stored / 10 ^ k) ≠ ' '.toUInt8 := fun h => by
    have h := congrArg UInt8.toNat h
    rw [toNat_digit hc] at h
    exact absurd (Nat.le_of_eq h) (Nat.not_le.2 (Nat.lt_add_right _ (by decide)))
  rw [encode, hk, writeDigits, List.cons_append, skipSpace, List.dropWhile_cons_of_neg (by simpa)]

theorem parseTimeout_encode (t : Timeout) (hunit : t.unit ≠ .kNanoseconds) :
    parseTimeout t.encode = some t.asDuration := by
  obtain ⟨x, c, hread, hc, hof⟩ := parseDigits_encode t hunit
  have hskip : skipSpace [c] = [c] := List.dropWhile_cons_of_neg (by simpa)
  unfold parseTimeout
  split
  · next h =>
    rw [skipSpace_encode, hread] at h
    cases h
  · next h =>
    rw [skipSpace_encode, hread] at h
    cases h
    simp only [hskip, hof]
    rfl

/-! ## The rounding -/

/-- The milliseconds that one unit stands for. -/
def Unit.millis : Unit → Int
  | .kNanoseconds => 0
  | .kMilliseconds => 1
  | .kTenMilliseconds => 10
  | .kHundredMilliseconds => 100
  | .kSeconds => 1000
  | .kTenSeconds => 10000
  | .kHundredSeconds => 100000
  | .kMinutes => 60000
  | .kTenMinutes => 600000
  | .kHundredMinutes => 6000000
  | .kHours => 3600000

theorem millis_seconds (h₀ : 0 ≤ n) (h₁ : n < 2 ^ 32) :
    (Duration.seconds n).millis = n * 1000 := by
  have hmin : int64Min.tdiv 1000 = -9223372036854775 := by decide
  have hmax : int64Max.tdiv 1000 = 9223372036854775 := by decide
  exact millisMul_eq (by omega) (by omega)

theorem millisMul_sixty (h₀ : 0 ≤ n) (h₁ : n < 2 ^ 32) : millisMul n 60 = n * 60 := by
  have hmin : int64Min.tdiv 60 = -153722867280912930 := by decide
  have hmax : int64Max.tdiv 60 = 153722867280912930 := by decide
  exact millisMul_eq (by omega) (by omega)

theorem millis_minutes (h₀ : 0 ≤ n) (h₁ : n < 2 ^ 24) :
    (Duration.minutes n).millis = n * 60000 := by
  rw [Duration.minutes, millisMul_sixty h₀ (by omega), millis_seconds (by omega) (by omega)]
  omega

theorem millis_hours (h₀ : 0 ≤ n) (h₁ : n < 2 ^ 16) :
    (Duration.hours n).millis = n * 3600000 := by
  rw [Duration.hours, millisMul_sixty h₀ (by omega), millis_minutes (by omega) (by omega)]
  omega

theorem millis_asDuration (t : Timeout) : t.asDuration.millis = t.stored * t.unit.millis := by
  have hlt := t.stored_lt
  obtain ⟨value, unit⟩ := t
  cases unit with
  | kNanoseconds => exact (Int.mul_zero _).symm
  | kMilliseconds => exact (Int.mul_one _).symm
  | kTenMilliseconds | kHundredMilliseconds => rfl
  | kSeconds => exact millis_seconds (by omega) (by omega)
  | kTenSeconds | kHundredSeconds =>
    refine (millis_seconds (by omega) (by omega)).trans ?_
    rw [Int.mul_assoc]
    rfl
  | kMinutes => exact millis_minutes (by omega) (by omega)
  | kTenMinutes | kHundredMinutes =>
    refine (millis_minutes (by omega) (by omega)).trans ?_
    rw [Int.mul_assoc]
    rfl
  | kHours => exact millis_hours (by omega) (by omega)

theorem divideRoundingUp_eq {dividend : Int} (h₀ : 0 < dividend) (divisor : Int)
    (hdiv : 0 < divisor) (hmax : dividend + divisor ≤ int64Max) :
    ∃ q, divideRoundingUp dividend divisor = some q ∧ dividend ≤ divisor * q ∧
      divisor * q < dividend + divisor := by
  have hmin : int64Min ≤ 0 := by decide
  have hmod := Int.emod_lt_of_pos (dividend + divisor - 1) hdiv
  have hpos := Int.emod_nonneg (dividend + divisor - 1) hdiv.ne'
  have hdecomp := Int.mul_ediv_add_emod (dividend + divisor - 1) divisor
  refine ⟨_, if_pos ⟨by omega, hmax⟩, ?_⟩
  rw [Int.tdiv_eq_ediv_of_nonneg (by omega)]
  constructor <;> omega

/-- The largest duration that can be stored. -/
def maxMillis : Int := 27000 * 3600000

/-- A count of units is the duration `d`, rounded up, and not more than one percent above it. -/
structure RoundsUp (d count unit : Int) : Prop where
  lt : count * unit - unit < d
  le : d ≤ count * unit
  percent : 100 * (count * unit - d) ≤ d

structure Approximates (d : Int) (t : Timeout) : Prop where
  nonneg : 0 ≤ t.value
  lt : t.value < 2 ^ 16
  unit_ne : t.unit ≠ .kNanoseconds
  percent : d ≤ maxMillis →
    d ≤ t.value * t.unit.millis ∧ 100 * (t.value * t.unit.millis - d) ≤ d
  max : maxMillis < d → t.value * t.unit.millis = maxMillis

section
variable {d count unit : Int}

/-- A larger count is still close enough, if it adds little to a count that is not small. -/
theorem RoundsUp.percent_of_le (h : RoundsUp d count unit) (hunit : 0 < unit) {m : Int}
    (hm : m = count ∨ 100 * (m + 1 - count) ≤ count - 1) : 100 * (m * unit - d) ≤ d := by
  rcases hm with rfl | hm
  · exact h.percent
  · have hmul := Int.mul_le_mul_of_nonneg_right hm hunit.le
    have hlt := h.lt
    linarith

theorem RoundsUp.larger (h : RoundsUp d count unit) (hunit : 0 < unit) {q : Int}
    (hle : count ≤ 60 * q) (hlt : 60 * q < count + 60)
    (hm : 60 * q = count ∨ 100 * (60 * q + 1 - count) ≤ count - 1) :
    RoundsUp d q (60 * unit) := by
  have heq : q * (60 * unit) = 60 * q * unit := by
    rw [← Int.mul_assoc, Int.mul_comm q]
  have h₁ := Int.mul_le_mul_of_nonneg_right hle hunit.le
  have h₂ := Int.mul_le_mul_of_nonneg_right (show 60 * q ≤ count + 59 by omega) hunit.le
  have h₃ := h.lt
  constructor
  · rw [heq]
    linarith
  · rw [heq]
    exact h.le.trans h₁
  · rw [heq]
    exact h.percent_of_le hunit hm

theorem RoundsUp.approximates (h : RoundsUp d count unit) (hunit : 0 < unit) (hmax : unit ≤ 60000)
    {value k : Int} {u : Unit} (hu : u.millis = k * unit) (hk : 0 < k) (hle : count ≤ value * k)
    (hvalue : value ≤ 1000) (hk' : k ≤ 100)
    (hm : value * k = count ∨ 100 * (value * k + 1 - count) ≤ count - 1) (hcount : 0 < count) :
    Approximates d ⟨value, u⟩ := by
  have heq : value * u.millis = value * k * unit := by rw [hu, Int.mul_assoc]
  have hpos : 0 < value := by
    by_contra hneg
    have := Int.mul_nonpos_of_nonpos_of_nonneg (not_lt.1 hneg) hk.le
    omega
  have hsmall : value * k * unit ≤ 100000 * 60000 := by
    have h₁ : value * k ≤ 1000 * 100 := Int.mul_le_mul hvalue hk' hk.le (by decide)
    exact Int.mul_le_mul h₁ hmax hunit.le (by decide)
  have hd : d ≤ value * k * unit := h.le.trans (Int.mul_le_mul_of_nonneg_right hle hunit.le)
  refine ⟨hpos.le, hvalue.trans_lt (by decide), ?_, fun _ => ?_, fun hgt => ?_⟩
  · rintro rfl
    have := Int.mul_pos hk hunit
    exact absurd hu this.ne
  · rw [heq]
    exact ⟨hd, h.percent_of_le hunit hm⟩
  · rw [maxMillis] at hgt
    omega

theorem fromHours_approximates (h : RoundsUp d count 3600000) (hd : 0 < d) :
    ∃ t, fromHours count = some t ∧ Approximates d t := by
  obtain ⟨hlt, hle, hpercent⟩ := h
  have hpos : 0 < count := by omega
  unfold fromHours
  rw [if_neg hpos.ne']
  split_ifs with hmax
  · refine ⟨_, rfl, hpos.le, ?_, nofun, fun _ => ⟨hle, hpercent⟩, fun hgt => ?_⟩
    · exact hmax.trans (by decide)
    · simp only [kMaxHours, maxMillis] at hmax hgt
      omega
  · refine ⟨_, rfl, by decide, by decide, nofun, fun hle' => ?_, fun _ => rfl⟩
    have hcount : count = kMaxHours := by
      simp only [kMaxHours, maxMillis] at *
      omega
    exact hcount ▸ ⟨hle, hpercent⟩

/-- `FromSeconds` and `FromMinutes`, for a unit of which ten and a hundred are units as well. -/
theorem fromCount_approximates {one ten hundred : Unit} {next : Int → Option Timeout}
    (h : RoundsUp d count unit) (hd : 0 < d) (hunit : 0 < unit) (hmax : unit ≤ 60000)
    (hcount : count ≤ 2 ^ 62) (hone : one.millis = 1 * unit) (hten : ten.millis = 10 * unit)
    (hhundred : hundred.millis = 100 * unit)
    (hnext : ∀ q, q ≤ count → RoundsUp d q (60 * unit) → ∃ t, next q = some t ∧ Approximates d t) :
    ∃ t, fromCount one ten hundred 60 next count = some t ∧ Approximates d t := by
  have hpos : 0 < count := by
    by_contra hneg
    have := Int.mul_nonpos_of_nonpos_of_nonneg (not_lt.1 hneg) hunit.le
    exact absurd h.le (by omega)
  have hint : (2 : Int) ^ 62 + 100 ≤ int64Max := by decide
  obtain ⟨q, hq, hq₁, hq₂⟩ := divideRoundingUp_eq hpos 60 (by decide) (by omega)
  -- The next larger unit, if its count adds little.
  have hlarger (hm : 60 * q = count ∨ 100 * (60 * q + 1 - count) ≤ count - 1) :
      ∃ t, (divideRoundingUp count 60).bind next = some t ∧ Approximates d t := by
    rw [hq]
    exact hnext q (by omega) (h.larger hunit hq₁ hq₂ hm)
  unfold fromCount
  rw [if_neg hpos.ne']
  split_ifs with h₁ h₂ h₃ h₄
  · exact ⟨_, rfl, h.approximates hunit hmax hone (by decide) (by omega) (by omega) (by decide)
      (by omega) hpos⟩
  · refine hlarger ?_
    rw [Int.tmod_eq_emod_of_nonneg hpos.le] at h₂
    omega
  · obtain ⟨value, hv, hv₁, hv₂⟩ := divideRoundingUp_eq hpos 10 (by decide) (by omega)
    rw [hv, bind_some]
    rw [Int.tmod_eq_emod_of_nonneg (by omega)]
    split_ifs with h₅
    · exact ⟨_, rfl, h.approximates hunit hmax hten (by decide) (by omega) (by omega) (by decide)
        (by omega) hpos⟩
    · exact hlarger (by omega)
  · obtain ⟨value, hv, hv₁, hv₂⟩ := divideRoundingUp_eq hpos 100 (by decide) (by omega)
    rw [hv, bind_some]
    rw [Int.tmod_eq_emod_of_nonneg (by omega)]
    split_ifs with h₅
    · exact ⟨_, rfl, h.approximates hunit hmax hhundred (by decide) (by omega)
        (by omega) (by decide)
        (by omega) hpos⟩
    · exact hlarger (by omega)
  · exact hlarger (by omega)

end

theorem fromMinutes_approximates (h : RoundsUp d count 60000) (hd : 0 < d)
    (hcount : count ≤ 2 ^ 62) : ∃ t, fromMinutes count = some t ∧ Approximates d t :=
  fromCount_approximates h hd (by decide) (by decide) hcount rfl rfl rfl
    fun _ _ hq => fromHours_approximates hq hd

theorem fromSeconds_approximates (h : RoundsUp d count 1000) (hd : 0 < d)
    (hcount : count ≤ 2 ^ 62) : ∃ t, fromSeconds count = some t ∧ Approximates d t :=
  fromCount_approximates h hd (by decide) (by decide) hcount rfl rfl rfl
    fun _ hle hq => fromMinutes_approximates hq hd (hle.trans hcount)

theorem fromMillis_approximates (hd : 0 < d) (hmax : d ≤ 2 ^ 63 - 1001) :
    ∃ t, fromMillis d = some t ∧ Approximates d t := by
  have hint : int64Max = 2 ^ 63 - 1 := rfl
  obtain ⟨q, hq, hq₁, hq₂⟩ := divideRoundingUp_eq hd 1000 (by decide) (by omega)
  have hlarger (hm : 100 * (1000 * q - d) ≤ d) :
      ∃ t, (divideRoundingUp d 1000).bind fromSeconds = some t ∧ Approximates d t := by
    rw [hq]
    exact fromSeconds_approximates ⟨by omega, by omega, by omega⟩ hd (by omega)
  have hself : RoundsUp d d 1 := ⟨by omega, by omega, by omega⟩
  unfold fromMillis
  rw [if_neg (not_le.2 hd)]
  split_ifs with h₁ h₂ h₃
  · exact ⟨_, rfl, hself.approximates (by decide) (by decide) (k := 1) rfl (by decide) (by omega)
      (by omega) (by decide) (by omega) hd⟩
  · obtain ⟨value, hv, hv₁, hv₂⟩ := divideRoundingUp_eq hd 10 (by decide) (by omega)
    rw [hv, bind_some, Int.tmod_eq_emod_of_nonneg (by omega)]
    split_ifs with h₅
    · exact ⟨_, rfl, hself.approximates (by decide) (by decide) (k := 10) rfl (by decide) (by omega)
        (by omega) (by decide) (by omega) hd⟩
    · exact hlarger (by omega)
  · obtain ⟨value, hv, hv₁, hv₂⟩ := divideRoundingUp_eq hd 100 (by decide) (by omega)
    rw [hv, bind_some, Int.tmod_eq_emod_of_nonneg (by omega)]
    split_ifs with h₅
    · exact ⟨_, rfl, hself.approximates (by decide) (by decide) (k := 100) rfl
        (by decide) (by omega)
        (by omega) (by decide) (by omega) hd⟩
    · exact hlarger (by omega)
  · exact hlarger (by omega)

/-- A duration that is sent arrives rounded up by at most one percent, or cut to the largest one. -/
theorem sent_timeout_within_one_percent (d : Duration) (hmin : 1 ≤ d.millis)
    (hmax : d.millis ≤ 2 ^ 63 - 1001) :
    ∃ t r, fromDuration d = some t ∧ parseTimeout t.encode = some r ∧ r = t.asDuration ∧
      0 ≤ t.value ∧ t.value < 2 ^ 16 ∧ t.encode.length ≤ 8 ∧
      (d.millis ≤ maxMillis → d.millis ≤ r.millis ∧ 100 * (r.millis - d.millis) ≤ d.millis) ∧
      (maxMillis < d.millis → r.millis = maxMillis) := by
  obtain ⟨t, ht, h⟩ := fromMillis_approximates (by omega) hmax
  have hmillis : t.asDuration.millis = t.value * t.unit.millis := by
    rw [millis_asDuration, stored_eq h.nonneg h.lt]
  refine ⟨t, t.asDuration, ht, parseTimeout_encode t h.unit_ne, rfl, h.nonneg, h.lt,
    t.length_encode_le, ?_, ?_⟩
  · rw [hmillis]
    exact h.percent
  · rw [hmillis]
    exact h.max

/-- 1001 milliseconds arrive as 1010. -/
theorem sent_timeout_1001 : ∃ t r, fromDuration ⟨1001, by decide⟩ = some t ∧
    parseTimeout t.encode = some r ∧ r.millis = 1010 := by
  obtain ⟨t, r, ht, hr, hrt, -⟩ :=
    sent_timeout_within_one_percent ⟨1001, by decide⟩ (by decide) (by decide)
  have hmillis : (fromDuration ⟨1001, by decide⟩).map (·.asDuration.millis) = some 1010 := by decide
  rw [ht] at hmillis
  exact ⟨t, r, ht, hr, hrt ▸ some.inj hmillis⟩

/-- The sum in `DivideRoundingUp` overflows one step earlier than its result. -/
theorem fromDuration_overflow : fromDuration ⟨2 ^ 63 - 1000, by decide⟩ = none := by decide

end Timeout

end GrpcCore
