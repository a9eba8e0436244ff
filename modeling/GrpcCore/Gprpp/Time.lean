import Mathlib.Algebra.Order.Ring.Int

/-!
# Durations and points in time

`Duration` and `Timestamp` of `time.h` count milliseconds in an `int64_t`, whose least and greatest
value stand for minus and plus infinity. A signed overflow has no result; the functions that can run
into one return an `Option`.

`Extended` says what the operators are for: an exact sum of integers and infinities, which is
`saturate`d. `MillisAdd` computes it for every two operands (`saturates_millisAdd`). The
subtractions add the negated right operand, and negation takes the greatest value to a finite one
and the value next to the least one to infinity, so that they are right on a part of the operands
only (`saturates_add_neg_iff`). `Duration::operator+=` adds the two counts as they are
(`saturates_addAssign_iff`).
-/

namespace GrpcCore

open Option

/-! ## `int64_t` -/

/-- `std::numeric_limits<int64_t>::max()`, also `Timestamp::InfFuture`. -/
def int64Max : Int := 2 ^ 63 - 1

/-- `std::numeric_limits<int64_t>::min()`, also `Timestamp::InfPast`. -/
def int64Min : Int := -2 ^ 63

/-- The values of an `int64_t`. -/
abbrev InInt64 (x : Int) : Prop := int64Min ≤ x ∧ x ≤ int64Max

/-- `-x`, which overflows at the least value. -/
def negInt64 (x : Int) : Option Int := if x = int64Min then none else some (-x)

/-- `-n` of a `uint64_t`. -/
def negUint64 (n : Nat) : Nat := (2 ^ 64 - n) % 2 ^ 64

/-- The conversion of an `int64_t` to `uint64_t`. -/
def toUint64 (x : Int) : Nat := (x % 2 ^ 64).toNat

/-- The conversion of a `uint64_t` to `int64_t`. -/
def toInt64 (n : Nat) : Int := if n < 2 ^ 63 then n else n - 2 ^ 64

def saturatingAdd (a b : Int) : Int :=
  if 0 < a then if int64Max - a < b then int64Max else a + b
  else if b < int64Min - a then int64Min
  else a + b

def millisAdd (a b : Int) : Int :=
  if a = int64Max ∨ b = int64Max then int64Max
  else if a = int64Min ∨ b = int64Min then int64Min
  else saturatingAdd a b

def millisMul (millis mul : Int) : Int :=
  if int64Max.tdiv mul ≤ millis then int64Max
  else if millis ≤ int64Min.tdiv mul then int64Min
  else millis * mul

theorem inInt64_millisAdd {a b : Int} (ha : InInt64 a) (hb : InInt64 b) :
    InInt64 (millisAdd a b) := by
  simp only [InInt64, millisAdd, saturatingAdd, int64Max, int64Min] at *
  split_ifs <;> omega

variable {millis mul x y : Int}

theorem inInt64_millisMul (hmul : 0 < mul) : InInt64 (millisMul millis mul) := by
  have hmax : int64Max.tdiv mul * mul ≤ int64Max := by
    rw [Int.tdiv_eq_ediv_of_nonneg (by decide)]
    exact Int.ediv_mul_le _ hmul.ne'
  have hmin : int64Min ≤ int64Min.tdiv mul * mul := by
    have h := Int.ediv_mul_le (2 ^ 63) hmul.ne'
    rw [int64Min, Int.neg_tdiv, Int.tdiv_eq_ediv_of_nonneg (by decide), Int.neg_mul]
    omega
  unfold millisMul
  split_ifs with h₁ h₂
  · exact ⟨by decide, le_rfl⟩
  · exact ⟨le_rfl, by decide⟩
  · exact ⟨hmin.trans (Int.mul_le_mul_of_nonneg_right (not_le.1 h₂).le hmul.le),
      (Int.mul_le_mul_of_nonneg_right (not_le.1 h₁).le hmul.le).trans hmax⟩

theorem millisMul_eq (hmin : int64Min.tdiv mul < millis)
    (hmax : millis < int64Max.tdiv mul) : millisMul millis mul = millis * mul := by
  rw [millisMul, if_neg (not_le.2 hmax), if_neg (not_le.2 hmin)]

theorem toInt64_toUint64 (h : InInt64 x) : toInt64 (toUint64 x) = x := by
  simp only [InInt64, int64Max, int64Min] at h
  unfold toInt64 toUint64
  split <;> omega

/-- The negation of a `uint64_t` that comes from an `int64_t` wraps where that of the `int64_t`
overflows. -/
theorem toInt64_negUint64 (h : InInt64 x) :
    toInt64 (negUint64 (toUint64 x)) = if x = int64Min then int64Min else -x := by
  simp only [InInt64, int64Max, int64Min] at h ⊢
  unfold toInt64 negUint64 toUint64
  split_ifs <;> omega

/-! ## The classes -/

@[ext] structure Duration where
  millis : Int
  inInt64 : InInt64 millis
  deriving DecidableEq

@[ext] structure Timestamp where
  millis : Int
  inInt64 : InInt64 millis

namespace Duration

def zero : Duration := ⟨0, by decide⟩

def infinity : Duration := ⟨int64Max, by decide⟩

def negativeInfinity : Duration := ⟨int64Min, by decide⟩

def milliseconds (millis : Int) (h : InInt64 millis) : Duration := ⟨millis, h⟩

def seconds (seconds : Int) : Duration :=
  milliseconds (millisMul seconds 1000) (inInt64_millisMul (by decide))

def minutes (minutes : Int) : Duration := seconds (millisMul minutes 60)

def hours (hours : Int) : Duration := minutes (millisMul hours 60)

/-- `Duration + Duration`. -/
def add (lhs rhs : Duration) : Duration :=
  milliseconds (millisAdd lhs.millis rhs.millis) (inInt64_millisAdd lhs.inInt64 rhs.inInt64)

end Duration

theorem inInt64_neg (hx : InInt64 x) (h : negInt64 x = some y) : InInt64 y := by
  simp only [InInt64, int64Max, int64Min] at *
  unfold negInt64 at h
  split_ifs at h with hmin
  cases h
  rw [int64Min] at hmin
  omega

/-- The left operand plus the negated right operand, as both subtractions of a `Duration` compute
it. -/
def subMillis {α : Type} (make : (millis : Int) → InInt64 millis → α) (lhs : Int)
    (hl : InInt64 lhs) (rhs : Duration) : Option α :=
  match h : negInt64 rhs.millis with
  | none => none
  | some n => some (make (millisAdd lhs n) (inInt64_millisAdd hl (inInt64_neg rhs.inInt64 h)))

namespace Duration

/-- `Duration - Duration`. -/
def sub (lhs rhs : Duration) : Option Duration := subMillis milliseconds lhs.millis lhs.inInt64 rhs

/-- `Duration += Duration`. -/
def addAssign (self other : Duration) : Option Duration :=
  if h : InInt64 (self.millis + other.millis) then some ⟨self.millis + other.millis, h⟩ else none

end Duration

namespace Timestamp

/-- `milliseconds_after_process_epoch`, a `uint64_t`. -/
def millisecondsAfterProcessEpoch (t : Timestamp) : Nat := toUint64 t.millis

def fromMillisecondsAfterProcessEpoch (millis : Int) (h : InInt64 millis) : Timestamp := ⟨millis, h⟩

theorem inInt64_epoch (t : Timestamp) : InInt64 (toInt64 t.millisecondsAfterProcessEpoch) := by
  rw [millisecondsAfterProcessEpoch, toInt64_toUint64 t.inInt64]
  exact t.inInt64

theorem inInt64_neg_epoch (t : Timestamp) :
    InInt64 (toInt64 (negUint64 t.millisecondsAfterProcessEpoch)) := by
  have h := t.inInt64
  rw [millisecondsAfterProcessEpoch, toInt64_negUint64 h]
  simp only [InInt64, int64Max, int64Min] at h ⊢
  split_ifs <;> omega

/-- `Timestamp + Duration`. -/
def add (lhs : Timestamp) (rhs : Duration) : Timestamp :=
  fromMillisecondsAfterProcessEpoch
    (millisAdd (toInt64 lhs.millisecondsAfterProcessEpoch) rhs.millis)
    (inInt64_millisAdd lhs.inInt64_epoch rhs.inInt64)

/-- `Timestamp - Duration`. -/
def sub (lhs : Timestamp) (rhs : Duration) : Option Timestamp :=
  subMillis fromMillisecondsAfterProcessEpoch (toInt64 lhs.millisecondsAfterProcessEpoch)
    lhs.inInt64_epoch rhs

/-- `Timestamp - Timestamp`, which negates the `uint64_t`. -/
def diff (lhs rhs : Timestamp) : Duration :=
  .milliseconds
    (millisAdd (toInt64 lhs.millisecondsAfterProcessEpoch)
      (toInt64 (negUint64 rhs.millisecondsAfterProcessEpoch)))
    (inInt64_millisAdd lhs.inInt64_epoch rhs.inInt64_neg_epoch)

/-- `Timestamp += Duration`. -/
def addAssign (self : Timestamp) (duration : Duration) : Timestamp := self.add duration

end Timestamp

/-! ## Exact results -/

/-- The integers with two infinities. -/
inductive Extended where
  | negInf
  | fin (n : Int)
  | posInf
  deriving DecidableEq

namespace Extended

/-- The sum, which opposite infinities do not have. -/
def add : Extended → Extended → Option Extended
  | .posInf, .negInf => none
  | .negInf, .posInf => none
  | .posInf, _ => some .posInf
  | _, .posInf => some .posInf
  | .negInf, _ => some .negInf
  | _, .negInf => some .negInf
  | .fin a, .fin b => some (.fin (a + b))

def neg : Extended → Extended
  | .negInf => .posInf
  | .fin n => .fin (-n)
  | .posInf => .negInf

/-- The difference, which equal infinities do not have. -/
def sub (a b : Extended) : Option Extended := a.add b.neg

def ofInt64 (x : Int) : Extended :=
  if x = int64Max then .posInf else if x = int64Min then .negInf else .fin x

/-- A finite value that no `int64_t` stands for becomes the infinity of its sign. -/
def saturate : Extended → Extended
  | .fin n => if int64Max ≤ n then .posInf else if n ≤ int64Min then .negInf else .fin n
  | e => e

theorem saturate_posInf : saturate .posInf = .posInf := rfl

theorem saturate_negInf : saturate .negInf = .negInf := rfl

theorem ofInt64_max : ofInt64 int64Max = .posInf := rfl

theorem ofInt64_min : ofInt64 int64Min = .negInf := rfl

variable {n x : Int}

theorem ofInt64_fin (hmin : int64Min < x) (hmax : x < int64Max) : ofInt64 x = .fin x := by
  rw [ofInt64, if_neg hmax.ne, if_neg hmin.ne']

theorem ofInt64_eq_posInf_iff : ofInt64 x = .posInf ↔ x = int64Max := by
  unfold ofInt64
  split_ifs with h h' <;> simp [h]

theorem ofInt64_eq_negInf_iff : ofInt64 x = .negInf ↔ x = int64Min := by
  unfold ofInt64
  split_ifs with h h'
  · exact iff_of_false nofun (h ▸ by decide)
  · simp [h']
  · simp [h']

theorem ofInt64_eq_saturate (h : InInt64 x) : ofInt64 x = saturate (.fin x) := by
  simp only [InInt64, ofInt64, saturate] at h ⊢
  split_ifs <;> first | rfl | omega

theorem saturate_fin_eq_posInf_iff : saturate (.fin n) = .posInf ↔ int64Max ≤ n := by
  change (if int64Max ≤ n then posInf else if n ≤ int64Min then negInf else fin n) = posInf ↔ _
  split_ifs with h <;> simp [h]

theorem saturate_fin_eq_negInf_iff : saturate (.fin n) = .negInf ↔ n ≤ int64Min := by
  have hlt : int64Min < int64Max := by decide
  change (if int64Max ≤ n then posInf else if n ≤ int64Min then negInf else fin n) = negInf ↔ _
  split_ifs with h h'
  · exact iff_of_false nofun (by omega)
  · simp [h']
  · simp [h']

end Extended

open Extended

theorem InInt64.cases (h : InInt64 x) :
    x = int64Max ∨ x = int64Min ∨ int64Min < x ∧ x < int64Max := by
  omega

/-- A result is right for an exact result: there is one, and it reads as the exact one after
saturation. Where there is no exact result, every result is right. -/
def Saturates (result : Option Int) (exact : Option Extended) : Prop :=
  ∀ e ∈ exact, result.map ofInt64 = some e.saturate

instance (result : Option Int) (exact : Option Extended) : Decidable (Saturates result exact) :=
  inferInstanceAs (Decidable (∀ e ∈ exact, result.map ofInt64 = some e.saturate))

@[simp] theorem saturates_some (result : Option Int) (e : Extended) :
    Saturates result (some e) ↔ result.map ofInt64 = some e.saturate :=
  ⟨fun h => h e rfl, fun h _ he => some.inj he ▸ h⟩

/-! ## What the operators compute -/

theorem ofInt64_saturatingAdd (hx : InInt64 x) (hy : InInt64 y) :
    ofInt64 (saturatingAdd x y) = saturate (.fin (x + y)) := by
  unfold saturatingAdd
  split_ifs with hpos hover hunder
  · rw [ofInt64_max, eq_comm, saturate_fin_eq_posInf_iff]
    omega
  · exact ofInt64_eq_saturate ⟨by omega, by omega⟩
  · rw [ofInt64_min, eq_comm, saturate_fin_eq_negInf_iff]
    omega
  · exact ofInt64_eq_saturate ⟨by omega, by omega⟩

theorem saturates_millisAdd (hx : InInt64 x) (hy : InInt64 y) :
    Saturates (some (millisAdd x y)) ((ofInt64 x).add (ofInt64 y)) := by
  rcases InInt64.cases hx with rfl | rfl | ⟨hx₁, hx₂⟩
  · rcases InInt64.cases hy with rfl | rfl | ⟨hy₁, hy₂⟩
    · decide
    · decide
    · rw [ofInt64_max, ofInt64_fin hy₁ hy₂, millisAdd, if_pos (.inl rfl)]
      exact (saturates_some ..).2 rfl
  · rcases InInt64.cases hy with rfl | rfl | ⟨hy₁, hy₂⟩
    · decide
    · decide
    · rw [ofInt64_min, ofInt64_fin hy₁ hy₂, millisAdd, if_neg (by omega), if_pos (.inl rfl)]
      exact (saturates_some ..).2 rfl
  · rw [ofInt64_fin hx₁ hx₂]
    rcases InInt64.cases hy with rfl | rfl | ⟨hy₁, hy₂⟩
    · rw [ofInt64_max, millisAdd, if_pos (.inr rfl)]
      exact (saturates_some ..).2 rfl
    · rw [ofInt64_min, millisAdd, if_neg (by omega), if_pos (.inr rfl)]
      exact (saturates_some ..).2 rfl
    · rw [ofInt64_fin hy₁ hy₂, millisAdd, if_neg (by omega), if_neg (by omega)]
      exact (saturates_some ..).2 (congrArg some (ofInt64_saturatingAdd hx hy))

theorem saturates_sub_fin (hx : InInt64 x) (hmin : int64Min + 1 < y)
    (hmax : y < int64Max) : Saturates (some (millisAdd x (-y))) ((ofInt64 x).sub (ofInt64 y)) := by
  have hsum : int64Min + int64Max = -1 := by decide
  have hneg : int64Min < -y ∧ -y < int64Max := by omega
  have h := saturates_millisAdd hx (y := -y) ⟨hneg.1.le, hneg.2.le⟩
  rw [ofInt64_fin hneg.1 hneg.2] at h
  rw [ofInt64_fin (by omega) hmax]
  exact h

/-- Minus infinity is the result for a negative left operand only: the greatest value is negated to
the value next to the least one. -/
theorem saturates_sub_max_iff (hx : InInt64 x) :
    Saturates (some (millisAdd x (-int64Max))) ((ofInt64 x).sub (ofInt64 int64Max)) ↔
      x < 0 ∨ x = int64Max := by
  have hval : -int64Max = int64Min + 1 := by decide
  rcases InInt64.cases hx with rfl | rfl | ⟨hx₁, hx₂⟩
  · decide
  · decide
  · have hmillis : millisAdd x (-int64Max) = saturatingAdd x (int64Min + 1) := by
      rw [hval, millisAdd, if_neg (by omega), if_neg (by omega)]
    rw [hmillis, ofInt64_fin hx₁ hx₂]
    refine (saturates_some ..).trans ?_
    rw [map_some, ofInt64_saturatingAdd hx (by decide), some.injEq]
    change saturate (.fin (x + (int64Min + 1))) = .negInf ↔ _
    rw [saturate_fin_eq_negInf_iff]
    omega

theorem saturates_sub_min_succ_iff (hx : InInt64 x) :
    Saturates (some (millisAdd x (-(int64Min + 1)))) ((ofInt64 x).sub (ofInt64 (int64Min + 1))) ↔
      0 ≤ x := by
  have hval : -(int64Min + 1) = int64Max := by decide
  rw [millisAdd, if_pos (.inr rfl)]
  rcases InInt64.cases hx with rfl | rfl | ⟨hx₁, hx₂⟩
  · decide
  · decide
  · rw [ofInt64_fin hx₁ hx₂, ofInt64_fin (x := int64Min + 1) (by decide) (by decide)]
    refine (saturates_some ..).trans ?_
    rw [map_some, ofInt64_max, some.injEq, eq_comm, saturate_fin_eq_posInf_iff]
    omega

/-- Where adding the negated right operand is the same as subtracting. -/
def SubtractsAs (x y : Int) : Prop :=
  (y = int64Max → x < 0 ∨ x = int64Max) ∧ (y = int64Min + 1 → 0 ≤ x)

instance (x y : Int) : Decidable (SubtractsAs x y) := inferInstanceAs (Decidable (_ ∧ _))

theorem saturates_add_neg_iff (hx : InInt64 x) (hy : InInt64 y) (hmin : y ≠ int64Min) :
    Saturates (some (millisAdd x (-y))) ((ofInt64 x).sub (ofInt64 y)) ↔ SubtractsAs x y := by
  have hlt : int64Min + 1 < int64Max := by decide
  by_cases hmax : y = int64Max
  · subst hmax
    rw [saturates_sub_max_iff hx]
    exact ⟨fun h => ⟨fun _ => h, fun h' => absurd h' hlt.ne'⟩, fun h => h.1 rfl⟩
  · by_cases hsucc : y = int64Min + 1
    · subst hsucc
      rw [saturates_sub_min_succ_iff hx]
      exact ⟨fun h => ⟨fun h' => absurd h' hlt.ne, fun _ => h⟩, fun h => h.2 rfl⟩
    · exact iff_of_true (saturates_sub_fin hx (by omega) (by omega))
        ⟨fun h => absurd h hmax, fun h => absurd h hsucc⟩

theorem saturates_none_sub_min_iff (hx : InInt64 x) :
    Saturates none ((ofInt64 x).sub (ofInt64 int64Min)) ↔ x = int64Min := by
  rcases InInt64.cases hx with rfl | rfl | ⟨hx₁, hx₂⟩
  · decide
  · decide
  · rw [ofInt64_fin hx₁ hx₂, ofInt64_min]
    exact iff_of_false (fun h => by cases h _ rfl) hx₁.ne'

/-- The subtraction of a `Duration`: the least value cannot be negated. -/
theorem saturates_subMillis_iff {α : Type} {make : (millis : Int) → InInt64 millis → α}
    {millis : α → Int} (hmake : ∀ x h, millis (make x h) = x) (hx : InInt64 x)
    (rhs : Duration) :
    Saturates ((subMillis make x hx rhs).map millis) ((ofInt64 x).sub (ofInt64 rhs.millis)) ↔
      (rhs.millis = int64Min → x = int64Min) ∧ SubtractsAs x rhs.millis := by
  by_cases hmin : rhs.millis = int64Min
  · have hnone : subMillis make x hx rhs = none := by
      unfold subMillis
      split
      · rfl
      · next n h =>
        rw [negInt64, if_pos hmin] at h
        cases h
    have hne : SubtractsAs x int64Min :=
      ⟨fun h => absurd h (by decide), fun h => absurd h (by decide)⟩
    rw [hnone, hmin, map_none, saturates_none_sub_min_iff hx]
    exact ⟨fun h => ⟨fun _ => h, hne⟩, fun h => h.1 rfl⟩
  · have hsome : (subMillis make x hx rhs).map millis = some (millisAdd x (-rhs.millis)) := by
      unfold subMillis
      split
      · next h =>
        rw [negInt64, if_neg hmin] at h
        cases h
      · next n h =>
        rw [negInt64, if_neg hmin] at h
        cases h
        exact congrArg some (hmake ..)
    rw [hsome, saturates_add_neg_iff hx rhs.inInt64 hmin]
    exact ⟨fun h => ⟨fun h' => absurd h' hmin, h⟩, And.right⟩

/-- The subtraction of a `Timestamp`: the negation of the least value wraps around. -/
theorem saturates_diff_iff (s t : Timestamp) :
    Saturates (some (s.diff t).millis) ((ofInt64 s.millis).sub (ofInt64 t.millis)) ↔
      (t.millis = int64Min → s.millis = int64Min ∨ s.millis = int64Max) ∧
        SubtractsAs s.millis t.millis := by
  have hdiff : (s.diff t).millis =
      millisAdd s.millis (if t.millis = int64Min then int64Min else -t.millis) := by
    change millisAdd (toInt64 (toUint64 s.millis)) (toInt64 (negUint64 (toUint64 t.millis))) = _
    rw [toInt64_toUint64 s.inInt64, toInt64_negUint64 t.inInt64]
  rw [hdiff]
  by_cases hmin : t.millis = int64Min
  · rw [hmin]
    rcases InInt64.cases s.inInt64 with hs | hs | ⟨hs₁, hs₂⟩
    · rw [hs]
      decide
    · rw [hs]
      decide
    · rw [ofInt64_fin hs₁ hs₂, ofInt64_min, millisAdd, if_neg (by simp [hs₂.ne]; decide),
        if_pos (.inr rfl)]
      refine iff_of_false (fun h => by cases h _ rfl) fun h => ?_
      omega
  · rw [if_neg hmin, saturates_add_neg_iff s.inInt64 t.inInt64 hmin]
    exact ⟨fun h => ⟨fun h' => absurd h' hmin, h⟩, And.right⟩

/-- Where the sum of the counts is the sum of the durations: opposite infinities apart, it does not
overflow and an infinite operand stays as it is. -/
def AddsAs (x y : Int) : Prop :=
  x = int64Max ∧ y = int64Min ∨ x = int64Min ∧ y = int64Max ∨
    InInt64 (x + y) ∧ (x = int64Max ∨ x = int64Min → y = 0) ∧ (y = int64Max ∨ y = int64Min → x = 0)

instance (x y : Int) : Decidable (AddsAs x y) := inferInstanceAs (Decidable (_ ∨ _ ∨ _ ∧ _ ∧ _))

theorem AddsAs.comm (h : AddsAs x y) : AddsAs y x := by
  rcases h with ⟨hx, hy⟩ | ⟨hx, hy⟩ | ⟨hsum, hx, hy⟩
  · exact .inr (.inl ⟨hy, hx⟩)
  · exact .inl ⟨hy, hx⟩
  · exact .inr (.inr ⟨Int.add_comm x y ▸ hsum, hy, hx⟩)

theorem addsAs_inf_iff (hx : x = int64Max ∨ x = int64Min) (hmin : int64Min < y)
    (hmax : y < int64Max) : AddsAs x y ↔ y = 0 := by
  constructor
  · rintro (⟨-, hy⟩ | ⟨-, hy⟩ | ⟨-, hy, -⟩)
    · exact absurd hy hmin.ne'
    · exact absurd hy hmax.ne
    · exact hy hx
  · rintro rfl
    rcases hx with rfl | rfl <;> decide

/-- The sum as `Duration::operator+=` computes it. -/
def checkedSum (x y : Int) : Option Int := if InInt64 (x + y) then some (x + y) else none

theorem saturates_checkedSum_iff {e : Extended} :
    Saturates (checkedSum x y) (some e) ↔ InInt64 (x + y) ∧ ofInt64 (x + y) = e.saturate := by
  rw [saturates_some, checkedSum]
  by_cases h : InInt64 (x + y)
  · rw [if_pos h, map_some, some.injEq]
    exact ⟨fun he => ⟨h, he⟩, And.right⟩
  · rw [if_neg h]
    exact iff_of_false nofun fun h' => h h'.1

theorem saturates_checkedSum_inf_iff (hx : x = int64Max ∨ x = int64Min)
    (hmin : int64Min < y) (hmax : y < int64Max) :
    Saturates (checkedSum x y) ((ofInt64 x).add (.fin y)) ↔ y = 0 := by
  rcases hx with rfl | rfl
  · refine saturates_checkedSum_iff (e := .posInf) |>.trans ?_
    rw [saturate_posInf, ofInt64_eq_posInf_iff]
    omega
  · refine saturates_checkedSum_iff (e := .negInf) |>.trans ?_
    rw [saturate_negInf, ofInt64_eq_negInf_iff]
    omega

theorem saturates_addAssign_iff (a b : Duration) :
    Saturates ((a.addAssign b).map (·.millis)) ((ofInt64 a.millis).add (ofInt64 b.millis)) ↔
      AddsAs a.millis b.millis := by
  obtain ⟨x, hx⟩ := a
  obtain ⟨y, hy⟩ := b
  have hresult : ((Duration.mk x hx).addAssign ⟨y, hy⟩).map (·.millis) = checkedSum x y := by
    unfold Duration.addAssign checkedSum
    split_ifs <;> rfl
  rw [hresult]
  change Saturates _ ((ofInt64 x).add (ofInt64 y)) ↔ AddsAs x y
  rcases hx.cases with hx' | hx' | ⟨hx₁, hx₂⟩
  · rcases hy.cases with hy' | hy' | ⟨hy₁, hy₂⟩
    · subst hx' hy'
      decide
    · subst hx' hy'
      decide
    · rw [ofInt64_fin hy₁ hy₂, addsAs_inf_iff (.inl hx') hy₁ hy₂]
      exact saturates_checkedSum_inf_iff (.inl hx') hy₁ hy₂
  · rcases hy.cases with hy' | hy' | ⟨hy₁, hy₂⟩
    · subst hx' hy'
      decide
    · subst hx' hy'
      decide
    · rw [ofInt64_fin hy₁ hy₂, addsAs_inf_iff (.inr hx') hy₁ hy₂]
      exact saturates_checkedSum_inf_iff (.inr hx') hy₁ hy₂
  · rw [ofInt64_fin hx₁ hx₂]
    -- The right operand is infinite: the sum and its conditions are symmetric.
    have hinf (hy' : y = int64Max ∨ y = int64Min) :
        Saturates (checkedSum x y) ((Extended.fin x).add (ofInt64 y)) ↔ AddsAs x y := by
      have hsymm : (Extended.fin x).add (ofInt64 y) = (ofInt64 y).add (.fin x) := by
        rcases hy' with rfl | rfl <;> rfl
      rw [hsymm, checkedSum, Int.add_comm, ← checkedSum,
        saturates_checkedSum_inf_iff hy' hx₁ hx₂, ← addsAs_inf_iff hy' hx₁ hx₂]
      exact ⟨AddsAs.comm, AddsAs.comm⟩
    rcases hy.cases with hy' | hy' | ⟨hy₁, hy₂⟩
    · exact hinf (.inl hy')
    · exact hinf (.inr hy')
    · rw [ofInt64_fin hy₁ hy₂]
      refine (saturates_checkedSum_iff (e := .fin (x + y))).trans ⟨fun h => ?_, fun h => ?_⟩
      · exact .inr (.inr ⟨h.1, fun _ => by omega, fun _ => by omega⟩)
      · have hsum : InInt64 (x + y) := by
          rcases h with h | h | h
          · exact absurd h.1 hx₂.ne
          · exact absurd h.1 hx₁.ne'
          · exact h.1
        exact ⟨hsum, ofInt64_eq_saturate hsum⟩

/-- Each operator, for every two operands: the additions are always right, the subtractions and
`Duration::operator+=` under the stated conditions only. -/
theorem time_operators_saturate_iff (a b : Duration) (s t : Timestamp) :
    Saturates (some (a.add b).millis) ((ofInt64 a.millis).add (ofInt64 b.millis)) ∧
    Saturates (some (s.add a).millis) ((ofInt64 s.millis).add (ofInt64 a.millis)) ∧
    Saturates (some (s.addAssign a).millis) ((ofInt64 s.millis).add (ofInt64 a.millis)) ∧
    (Saturates ((a.sub b).map (·.millis)) ((ofInt64 a.millis).sub (ofInt64 b.millis)) ↔
      (b.millis = int64Min → a.millis = int64Min) ∧ SubtractsAs a.millis b.millis) ∧
    (Saturates ((s.sub a).map (·.millis)) ((ofInt64 s.millis).sub (ofInt64 a.millis)) ↔
      (a.millis = int64Min → s.millis = int64Min) ∧ SubtractsAs s.millis a.millis) ∧
    (Saturates (some (s.diff t).millis) ((ofInt64 s.millis).sub (ofInt64 t.millis)) ↔
      (t.millis = int64Min → s.millis = int64Min ∨ s.millis = int64Max) ∧
        SubtractsAs s.millis t.millis) ∧
    (Saturates ((a.addAssign b).map (·.millis)) ((ofInt64 a.millis).add (ofInt64 b.millis)) ↔
      AddsAs a.millis b.millis) := by
  have hepoch : toInt64 s.millisecondsAfterProcessEpoch = s.millis := toInt64_toUint64 s.inInt64
  have hadd : Saturates (some (s.add a).millis) ((ofInt64 s.millis).add (ofInt64 a.millis)) := by
    change Saturates (some (millisAdd (toInt64 s.millisecondsAfterProcessEpoch) a.millis)) _
    rw [hepoch]
    exact saturates_millisAdd s.inInt64 a.inInt64
  have hsub : Saturates ((s.sub a).map (·.millis))
      ((ofInt64 (toInt64 s.millisecondsAfterProcessEpoch)).sub (ofInt64 a.millis)) ↔ _ :=
    saturates_subMillis_iff (fun _ _ => rfl) s.inInt64_epoch a
  rw [hepoch] at hsub
  exact ⟨saturates_millisAdd a.inInt64 b.inInt64, hadd, hadd,
    saturates_subMillis_iff (fun _ _ => rfl) a.inInt64 b, hsub, saturates_diff_iff s t,
    saturates_addAssign_iff a b⟩

/-- Zero minus infinity is a finite value, and a finite value minus minus infinity has no result. -/
theorem zero_sub_infinity_finite :
    ¬ Saturates ((Duration.zero.sub .infinity).map (·.millis))
        ((ofInt64 Duration.zero.millis).sub (ofInt64 Duration.infinity.millis)) ∧
      (Duration.zero.sub .infinity).map (·.millis) = some (int64Min + 1) ∧
      Duration.zero.sub .negativeInfinity = none ∧
      Duration.infinity.addAssign ⟨-1, by decide⟩ = some ⟨int64Max - 1, by decide⟩ := by
  decide

end GrpcCore
