import GrpcCore.Gprpp.Time

/-!
# gpr_timespec

Addition, subtraction and comparison of `gpr_timespec` in `lib/gpr/time.cc`: seconds in an
`int64_t`, whose least and greatest value stand for the infinities, nanoseconds, and a clock. A
failed assertion is `none`.

The tests for saturation are made before the carry or the borrow is applied, so a result one second
away from the limits can become an infinity; and the infinities that `gpr_time_sub` returns are of
the real-time clock, on which the comparison in `gpr_time_similar` aborts (`timespec_right_iff`).
-/

namespace GrpcCore

/-- `gpr_clock_type`. -/
inductive ClockType where
  | monotonic
  | realtime
  | precise
  | timespan
  deriving DecidableEq

/-- `gpr_timespec`. -/
structure Timespec where
  tvSec : Int
  tvNsec : Int
  clockType : ClockType

def gprInfFuture (type : ClockType) : Timespec := ⟨int64Max, 0, type⟩

def gprInfPast (type : ClockType) : Timespec := ⟨int64Min, 0, type⟩

/-- The comparison of two numbers as `(a > b) - (a < b)`. -/
def threeWay (a b : Int) : Int := (if b < a then 1 else 0) - if a < b then 1 else 0

def gprTimeCmp (a b : Timespec) : Option Int :=
  if a.clockType ≠ b.clockType then none
  else
    let cmp := threeWay a.tvSec b.tvSec
    some (if cmp = 0 ∧ a.tvSec ≠ int64Max ∧ a.tvSec ≠ int64Min then threeWay a.tvNsec b.tvNsec
      else cmp)

/-- `gpr_time_add`; `GPR_NS_PER_SEC` is 1000000000. -/
def gprTimeAdd (a b : Timespec) : Option Timespec :=
  if b.clockType ≠ .timespan ∨ b.tvNsec < 0 then none
  else
    let nsec := a.tvNsec + b.tvNsec
    let inc := if 1000000000 ≤ nsec then 1 else 0
    let nsec := if 1000000000 ≤ nsec then nsec - 1000000000 else nsec
    some <|
      if a.tvSec = int64Max ∨ a.tvSec = int64Min then a
      else if b.tvSec = int64Max ∨ 0 ≤ b.tvSec ∧ int64Max - b.tvSec ≤ a.tvSec then
        gprInfFuture a.clockType
      else if b.tvSec = int64Min ∨ b.tvSec ≤ 0 ∧ a.tvSec ≤ int64Min - b.tvSec then
        gprInfPast a.clockType
      else if inc ≠ 0 ∧ a.tvSec + b.tvSec = int64Max - 1 then gprInfFuture a.clockType
      else ⟨a.tvSec + b.tvSec + inc, nsec, a.clockType⟩

def gprTimeSub (a b : Timespec) : Option Timespec :=
  if (if b.clockType = .timespan then b.tvNsec < 0 else a.clockType ≠ b.clockType) then none
  else
    let clockType := if b.clockType = .timespan then a.clockType else .timespan
    let nsec := a.tvNsec - b.tvNsec
    let dec := if nsec < 0 then 1 else 0
    let nsec := if nsec < 0 then nsec + 1000000000 else nsec
    some <|
      if a.tvSec = int64Max ∨ a.tvSec = int64Min then ⟨a.tvSec, a.tvNsec, clockType⟩
      else if b.tvSec = int64Min ∨ b.tvSec ≤ 0 ∧ int64Max + b.tvSec ≤ a.tvSec then
        gprInfFuture .realtime
      else if b.tvSec = int64Max ∨ 0 ≤ b.tvSec ∧ a.tvSec ≤ int64Min + b.tvSec then
        gprInfPast .realtime
      else if dec ≠ 0 ∧ a.tvSec - b.tvSec = int64Min + 1 then gprInfPast .realtime
      else ⟨a.tvSec - b.tvSec - dec, nsec, clockType⟩

def gprTimeSimilar (a b threshold : Timespec) : Option Bool :=
  if a.clockType ≠ b.clockType ∨ threshold.clockType ≠ .timespan then none
  else
    (gprTimeCmp a b).bind fun cmp =>
      if cmp = 0 then some true
      else
        (if cmp < 0 then gprTimeSub b a else gprTimeSub a b).bind fun diff =>
          (gprTimeCmp diff threshold).map fun cmp => decide (cmp ≤ 0)

/-! ## Exact results -/

namespace Timespec

/-- The seconds fit into their type and the nanoseconds are less than a second. -/
structure Normalised (t : Timespec) : Prop where
  sec : InInt64 t.tvSec
  nonneg : 0 ≤ t.tvNsec
  lt : t.tvNsec < 1000000000

/-- The seconds do not stand for an infinity. -/
def Finite (t : Timespec) : Prop := int64Min < t.tvSec ∧ t.tvSec < int64Max

/-- The nanoseconds that a timespec stands for. -/
def value (t : Timespec) : Extended :=
  if t.tvSec = int64Max then .posInf
  else if t.tvSec = int64Min then .negInf
  else .fin (t.tvSec * 1000000000 + t.tvNsec)

/-- Nanoseconds whose seconds are not strictly between the limits become the infinity of their
sign. -/
def saturate : Extended → Extended
  | .fin n =>
    if int64Max ≤ n / 1000000000 then .posInf else if n / 1000000000 ≤ int64Min then .negInf
    else .fin n
  | e => e

/-- The result is normalised, of this clock, and stands for the saturated exact result, if there is
one: opposite infinities have no sum. -/
def Right (clockType : ClockType) (exact : Option Extended) (result : Option Timespec) : Prop :=
  ∃ t, result = some t ∧ t.clockType = clockType ∧ t.Normalised ∧ ∀ e ∈ exact, t.value = saturate e

variable {a b t : Timespec} {clockType : ClockType}

theorem right_some {e : Extended} : Right clockType (some e) (some t) ↔
    t.clockType = clockType ∧ t.Normalised ∧ t.value = saturate e := by
  simp [Right]

theorem value_fin (h : t.Finite) : t.value = .fin (t.tvSec * 1000000000 + t.tvNsec) := by
  rw [value, if_neg h.2.ne, if_neg h.1.ne']

theorem int64Max_eq : int64Max = 9223372036854775807 := rfl

theorem int64Min_eq : int64Min = -9223372036854775808 := rfl

section

variable {n : Int} {c : ClockType}

theorem saturate_fin_eq_posInf : saturate (.fin n) = .posInf ↔ int64Max ≤ n / 1000000000 := by
  simp only [saturate]
  split_ifs with h <;> simp [h]

theorem saturate_fin_eq_negInf : saturate (.fin n) = .negInf ↔ n / 1000000000 ≤ int64Min := by
  have := int64Max_eq
  have := int64Min_eq
  simp only [saturate]
  split_ifs with h h'
  · exact iff_of_false nofun (by omega)
  · simp [h']
  · simp [h']

theorem normalised_infFuture : (gprInfFuture c).Normalised := by
  cases c <;> constructor <;> decide

theorem normalised_infPast : (gprInfPast c).Normalised := by
  cases c <;> constructor <;> decide

theorem right_infFuture :
    Right clockType (some (.fin n)) (some (gprInfFuture c)) ↔
      c = clockType ∧ int64Max ≤ n / 1000000000 := by
  rw [right_some, ← saturate_fin_eq_posInf]
  exact ⟨fun h => ⟨h.1, h.2.2.symm⟩, fun h => ⟨h.1, normalised_infFuture, h.2.symm⟩⟩

theorem right_infPast :
    Right clockType (some (.fin n)) (some (gprInfPast c)) ↔
      c = clockType ∧ n / 1000000000 ≤ int64Min := by
  rw [right_some, ← saturate_fin_eq_negInf]
  exact ⟨fun h => ⟨h.1, h.2.2.symm⟩, fun h => ⟨h.1, normalised_infPast, h.2.symm⟩⟩

theorem right_finite {s ns : Int} (hs : int64Min < s) (hs' : s < int64Max) (hns : 0 ≤ ns)
    (hns' : ns < 1000000000) (hn : s * 1000000000 + ns = n) :
    Right clockType (some (.fin n)) (some ⟨s, ns, c⟩) ↔ c = clockType := by
  have hnorm : (⟨s, ns, c⟩ : Timespec).Normalised := ⟨⟨hs.le, hs'.le⟩, hns, hns'⟩
  have hdiv : n / 1000000000 = s := by omega
  rw [right_some, value_fin ⟨hs, hs'⟩, hn, saturate, hdiv, if_neg hs'.not_ge, if_neg hs.not_ge]
  exact ⟨fun h => h.1, fun h => ⟨h, hnorm, rfl⟩⟩

end

/-- The sum of two finite timespecs is right unless the carry brings it back from the least
value. -/
theorem right_add_finite (ha : a.Normalised) (hb : b.Normalised) (hfa : a.Finite) (hfb : b.Finite)
    (hclock : b.clockType = .timespan) :
    Right a.clockType (a.value.add b.value) (gprTimeAdd a b) ↔
      ¬ (a.tvSec + b.tvSec = int64Min ∧ 1000000000 ≤ a.tvNsec + b.tvNsec) := by
  obtain ⟨-, hna, hna'⟩ := ha
  obtain ⟨-, hnb, hnb'⟩ := hb
  rw [value_fin hfa, value_fin hfb]
  obtain ⟨ha, ha'⟩ := hfa
  obtain ⟨hb, hb'⟩ := hfb
  have := int64Max_eq
  have := int64Min_eq
  rw [gprTimeAdd, if_neg (by simp [hclock, hnb])]
  dsimp only [Extended.add]
  split_ifs
  all_goals
    first
    | omega
    | rw [right_infFuture, eq_self_iff_true, true_and]; omega
    | rw [right_infPast, eq_self_iff_true, true_and]; omega
    | rw [right_finite (by omega) (by omega) (by omega) (by omega) (by omega), eq_self_iff_true,
        true_iff]; omega

theorem value_posInf (h : t.tvSec = int64Max) : t.value = .posInf := by rw [value, if_pos h]

theorem value_negInf (h : t.tvSec = int64Min) : t.value = .negInf := by
  rw [value, if_neg (by rw [h]; decide), if_pos h]

theorem infinite_iff (h : t.Normalised) :
    ¬ t.Finite ↔ t.tvSec = int64Max ∨ t.tvSec = int64Min := by
  obtain ⟨⟨h₁, h₂⟩, -⟩ := h
  unfold Finite
  omega

theorem value_of_infinite (h : t.Normalised) (hinf : ¬ t.Finite) {x : Extended} :
    ∀ e ∈ t.value.add x, t.value = saturate e := by
  intro e he
  rcases (infinite_iff h).1 hinf with hmax | hmin
  · rw [value_posInf hmax] at he ⊢
    cases x <;> cases he <;> rfl
  · rw [value_negInf hmin] at he ⊢
    cases x <;> cases he <;> rfl

theorem right_add_infinite (ha : a.Normalised) (hb : b.Normalised) (hinf : ¬ (a.Finite ∧ b.Finite))
    (hclock : b.clockType = .timespan) :
    Right a.clockType (a.value.add b.value) (gprTimeAdd a b) := by
  have := int64Max_eq
  have := int64Min_eq
  rw [gprTimeAdd, if_neg (by simp [hclock, hb.nonneg])]
  dsimp only
  by_cases hfa : a.Finite
  · rw [value_fin hfa, if_neg fun h => (infinite_iff ha).2 h hfa]
    rcases (infinite_iff hb).1 fun hfb => hinf ⟨hfa, hfb⟩ with hmax | hmin
    · rw [value_posInf hmax, if_pos (.inl hmax)]
      exact right_some.2 ⟨rfl, normalised_infFuture, rfl⟩
    · rw [value_negInf hmin, if_neg (by omega), if_pos (.inl hmin)]
      exact right_some.2 ⟨rfl, normalised_infPast, rfl⟩
  · rw [if_pos ((infinite_iff ha).1 hfa)]
    exact ⟨a, rfl, rfl, ha, value_of_infinite ha hfa⟩

/-- `gpr_time_sub` returns one of its infinities. -/
def SubSaturates (a b : Timespec) : Prop :=
  a.Finite ∧ (¬ b.Finite ∨ int64Max ≤ a.tvSec - b.tvSec ∨ a.tvSec - b.tvSec ≤ int64Min ∨
    a.tvSec - b.tvSec = int64Min + 1 ∧ a.tvNsec < b.tvNsec)

def subClock (a b : Timespec) : ClockType :=
  if b.clockType = .timespan then a.clockType else .timespan

theorem sub_assert (hb : b.Normalised)
    (hclock : b.clockType = .timespan ∨ a.clockType = b.clockType) :
    ¬ (if b.clockType = .timespan then b.tvNsec < 0 else a.clockType ≠ b.clockType) := by
  split_ifs with h
  · exact hb.nonneg.not_gt
  · exact not_not.2 (hclock.resolve_left h)

theorem right_sub_finite (ha : a.Normalised) (hb : b.Normalised) (hfa : a.Finite) (hfb : b.Finite)
    (hclock : b.clockType = .timespan ∨ a.clockType = b.clockType) :
    Right (subClock a b) (a.value.sub b.value) (gprTimeSub a b) ↔
      (SubSaturates a b → subClock a b = .realtime) ∧
      ¬ (a.tvSec - b.tvSec = int64Max ∧ a.tvNsec < b.tvNsec) := by
  have hsat : SubSaturates a b ↔ int64Max ≤ a.tvSec - b.tvSec ∨ a.tvSec - b.tvSec ≤ int64Min ∨
      a.tvSec - b.tvSec = int64Min + 1 ∧ a.tvNsec < b.tvNsec := by simp [SubSaturates, hfa, hfb]
  have hassert := sub_assert hb hclock
  obtain ⟨-, hna, hna'⟩ := ha
  obtain ⟨-, hnb, hnb'⟩ := hb
  rw [hsat, Extended.sub, value_fin hfa, value_fin hfb, gprTimeSub, if_neg hassert]
  obtain ⟨ha, ha'⟩ := hfa
  obtain ⟨hb, hb'⟩ := hfb
  have := int64Max_eq
  have := int64Min_eq
  rw [← subClock]
  generalize subClock a b = clock
  dsimp only [Extended.add, Extended.neg]
  by_cases hr : clock = .realtime
  · subst hr
    simp only [implies_true, true_and]
    split_ifs
    all_goals
      first
      | omega
      | rw [right_infFuture, eq_self_iff_true, true_and]; omega
      | rw [right_infPast, eq_self_iff_true, true_and]; omega
      | rw [right_finite (by omega) (by omega) (by omega) (by omega) (by omega), eq_self_iff_true,
          true_iff]; omega
  · simp only [hr, imp_false]
    split_ifs
    all_goals
      first
      | omega
      | rw [right_infFuture, eq_comm, iff_false_intro hr, false_and, false_iff]; omega
      | rw [right_infPast, eq_comm, iff_false_intro hr, false_and, false_iff]; omega
      | rw [right_finite (by omega) (by omega) (by omega) (by omega) (by omega), eq_self_iff_true,
          true_iff]; omega

/-- An infinite operand decides the difference, with a wrong clock if it is the right one. -/
theorem right_sub_infinite (ha : a.Normalised) (hb : b.Normalised) (hinf : ¬ (a.Finite ∧ b.Finite))
    (hclock : b.clockType = .timespan ∨ a.clockType = b.clockType) :
    Right (subClock a b) (a.value.sub b.value) (gprTimeSub a b) ↔
      (SubSaturates a b → subClock a b = .realtime) := by
  have := int64Max_eq
  have := int64Min_eq
  rw [Extended.sub, gprTimeSub, if_neg (sub_assert hb hclock)]
  dsimp only
  by_cases hfa : a.Finite
  · have hsat : SubSaturates a b := ⟨hfa, .inl fun hfb => hinf ⟨hfa, hfb⟩⟩
    rw [value_fin hfa, if_neg fun h => (infinite_iff ha).2 h hfa]
    rcases (infinite_iff hb).1 fun hfb => hinf ⟨hfa, hfb⟩ with hmax | hmin
    · rw [value_posInf hmax, if_neg (by omega), if_pos (.inl hmax)]
      refine right_some.trans ⟨fun h _ => h.1.symm, fun h => ?_⟩
      exact ⟨(h hsat).symm, normalised_infPast, rfl⟩
    · rw [value_negInf hmin, if_pos (.inl hmin)]
      refine right_some.trans ⟨fun h _ => h.1.symm, fun h => ?_⟩
      exact ⟨(h hsat).symm, normalised_infFuture, rfl⟩
  · rw [if_pos ((infinite_iff ha).1 hfa)]
    exact iff_of_true ⟨_, rfl, rfl, ⟨ha.sec, ha.nonneg, ha.lt⟩, value_of_infinite ha hfa⟩
      fun h => absurd h.1 hfa

theorem gprTimeSub_clockType (ha : a.Normalised) (hb : b.Normalised)
    (hclock : b.clockType = .timespan ∨ a.clockType = b.clockType) :
    ∃ d, gprTimeSub a b = some d ∧ (SubSaturates a b → d.clockType = .realtime) ∧
      (¬ SubSaturates a b → d.clockType = subClock a b) := by
  rw [gprTimeSub, if_neg (sub_assert hb hclock), ← subClock]
  refine ⟨_, rfl, ?_⟩
  have := ha.sec
  have := hb.sec
  have := int64Max_eq
  have := int64Min_eq
  generalize subClock a b = clock
  simp only [SubSaturates, Finite, InInt64] at *
  split_ifs <;>
    first
    | exact ⟨fun _ => rfl, fun h => absurd h (by omega)⟩
    | exact ⟨fun h => absurd h (by omega), fun _ => rfl⟩

/-- The difference of the two is not a finite timespec, although the later one is. -/
def FarApart (a b : Timespec) : Prop :=
  (a.tvSec = int64Min ∧ b.Finite) ∨ (b.tvSec = int64Min ∧ a.Finite) ∨
    (a.Finite ∧ b.Finite ∧ (int64Max ≤ a.tvSec - b.tvSec ∨ int64Max ≤ b.tvSec - a.tvSec))

theorem farApart_iff (ha : a.Normalised) (hb : b.Normalised) (hle : b.tvSec ≤ a.tvSec) :
    (FarApart a b ↔ SubSaturates a b) ∧ (FarApart b a ↔ SubSaturates a b) := by
  have := ha.sec
  have := hb.sec
  have := int64Max_eq
  have := int64Min_eq
  simp only [FarApart, SubSaturates, Finite, InInt64] at *
  omega

theorem cmp_sub_ne_none_iff (ha : a.Normalised) (hb : b.Normalised)
    (hclock : a.clockType = b.clockType) (ht : t.clockType = .timespan) :
    ((gprTimeSub a b).bind fun diff => (gprTimeCmp diff t).map fun cmp => decide (cmp ≤ 0)) ≠ none ↔
      ¬ SubSaturates a b := by
  obtain ⟨d, hd, hreal, hspan⟩ := gprTimeSub_clockType ha hb (.inr hclock)
  have hsub : subClock a b = .timespan := by
    unfold subClock
    split_ifs with h
    · rw [hclock, h]
    · rfl
  rw [hd, Option.bind_some, gprTimeCmp, ht]
  by_cases hsat : SubSaturates a b
  · simp [hreal hsat, hsat]
  · simp [hspan hsat, hsub, hsat]

theorem gprTimeCmp_spec (hclock : a.clockType = b.clockType) :
    ∃ cmp, gprTimeCmp a b = some cmp ∧ (cmp = 0 → a.tvSec = b.tvSec) ∧
      (cmp < 0 → a.tvSec ≤ b.tvSec) ∧ (0 < cmp → b.tvSec ≤ a.tvSec) := by
  rw [gprTimeCmp, if_neg (not_not.2 hclock)]
  refine ⟨_, rfl, ?_⟩
  simp only [threeWay]
  split_ifs <;> omega

theorem similar_ne_none_iff (ha : a.Normalised) (hb : b.Normalised)
    (hclock : a.clockType = b.clockType) (ht : t.clockType = .timespan) :
    gprTimeSimilar a b t ≠ none ↔ ¬ FarApart a b := by
  have := int64Max_eq
  have := int64Min_eq
  obtain ⟨cmp, hcmp, hzero, hlt, hgt⟩ := gprTimeCmp_spec hclock
  rw [gprTimeSimilar, if_neg (by simp [hclock, ht]), hcmp, Option.bind_some]
  by_cases h0 : cmp = 0
  · rw [if_pos h0]
    refine iff_of_true nofun fun hfar => ?_
    have := hzero h0
    simp only [FarApart, Finite] at hfar
    omega
  rw [if_neg h0]
  by_cases hneg : cmp < 0
  · rw [if_pos hneg, cmp_sub_ne_none_iff hb ha hclock.symm ht, (farApart_iff hb ha (hlt hneg)).2]
  · rw [if_neg hneg, cmp_sub_ne_none_iff ha hb hclock ht,
      (farApart_iff ha hb (hgt (by omega))).1]

/-- The sum is right unless the carry brings it back from the least value. The difference is right
unless the borrow brings it back from the greatest one, or it becomes an infinity where another
clock than the real-time one is due; so two timespecs can be compared for similarity unless they are
far apart. -/
theorem timespec_right_iff (a b t : Timespec) (ha : a.Normalised) (hb : b.Normalised) :
    (b.clockType = .timespan →
      (Right a.clockType (a.value.add b.value) (gprTimeAdd a b) ↔
        ¬ (a.Finite ∧ b.Finite ∧ a.tvSec + b.tvSec = int64Min ∧
          1000000000 ≤ a.tvNsec + b.tvNsec))) ∧
    (b.clockType = .timespan ∨ a.clockType = b.clockType →
      (Right (subClock a b) (a.value.sub b.value) (gprTimeSub a b) ↔
        (SubSaturates a b → subClock a b = .realtime) ∧
        ¬ (a.Finite ∧ b.Finite ∧ a.tvSec - b.tvSec = int64Max ∧ a.tvNsec < b.tvNsec))) ∧
    (a.clockType = b.clockType → t.clockType = .timespan →
      (gprTimeSimilar a b t ≠ none ↔ ¬ FarApart a b)) := by
  refine ⟨fun hclock => ?_, fun hclock => ?_, fun hclock ht => similar_ne_none_iff ha hb hclock ht⟩
  · by_cases hfin : a.Finite ∧ b.Finite
    · simpa [hfin] using right_add_finite ha hb hfin.1 hfin.2 hclock
    · exact iff_of_true (right_add_infinite ha hb hfin hclock) fun h => hfin ⟨h.1, h.2.1⟩
  · by_cases hfin : a.Finite ∧ b.Finite
    · simpa [hfin] using right_sub_finite ha hb hfin.1 hfin.2 hclock
    · rw [right_sub_infinite ha hb hfin hclock]
      exact ⟨fun h => ⟨h, fun h' => hfin ⟨h'.1, h'.2.1⟩⟩, fun h => h.1⟩

/-- One second and two seconds of a timespan, on the monotonic clock. -/
theorem timespec_right_iff_of_small :
    Right .monotonic (some (.fin 3000000000)) (gprTimeAdd ⟨1, 0, .monotonic⟩ ⟨2, 0, .timespan⟩) ∧
    Right .monotonic (some (.fin (-1000000000)))
      (gprTimeSub ⟨1, 0, .monotonic⟩ ⟨2, 0, .timespan⟩) := by
  have h := timespec_right_iff ⟨1, 0, .monotonic⟩ ⟨2, 0, .timespan⟩ ⟨0, 0, .timespan⟩
    (by constructor <;> decide) (by constructor <;> decide)
  refine ⟨(h.1 rfl).2 fun h => absurd h.2.2.1 (by decide), (h.2.1 (.inl rfl)).2 ⟨?_, ?_⟩⟩
  · exact fun h => absurd h (by unfold SubSaturates Finite; decide)
  · exact fun h => absurd h.2.2.1 (by decide)

/-- A point in time is compared with the infinite past of its clock. -/
theorem similar_infPast_aborts :
    gprTimeSimilar (gprInfPast .monotonic) ⟨1700000000, 0, .monotonic⟩
      ⟨1, 0, .timespan⟩ = none := by
  decide

end Timespec

end GrpcCore
