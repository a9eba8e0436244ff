import Mathlib.Data.UInt
import Mathlib.Order.Interval.Finset.Nat

/-!
# The picker of the weighted_target policy

`WeightedTargetLb::WeightedPicker::Pick` in `weighted_target.cc`: a random key is looked up in the
running totals of the weights by a binary search. `weightedPick_eq` says that the search ends at the
child whose range holds the key; it needs that the totals, which are of type `uint64_t`, did not
wrap around.
-/

namespace GrpcCore

open Option List

/-- The first components of the picker list for children of these weights, from a total on. -/
def runningTotals : UInt64 → List UInt32 → List UInt64
  | _, [] => []
  | stop, w :: ws => (stop + w.toUInt64) :: runningTotals (stop + w.toUInt64) ws

/-- The search loop of `Pick` with the choice of the index after it. The indices are below the size
of a vector, so their sum does not overflow. -/
def weightedSearch (totals : List UInt64) (key : UInt64) : Nat → Nat → Nat → Option Nat
  | 0, _, _ => none
  | fuel + 1, startIndex, endIndex =>
    if startIndex < endIndex then
      let mid := (startIndex + endIndex) / 2
      totals[mid]?.bind fun total =>
        if key < total then weightedSearch totals key fuel startIndex mid
        else if total < key then weightedSearch totals key fuel (mid + 1) endIndex
        else some (mid + 1)
    else some startIndex

/-- The index of the picker that `Pick` delegates to for a key. -/
def weightedPick (totals : List UInt64) (key : UInt64) : Option Nat :=
  (weightedSearch totals key totals.length 0 (totals.length - 1)).bind fun index =>
    totals[index]?.bind fun total => if key < total then some index else none

/-- The key is in the range of child `i`: from the total before it up to its own. -/
def InRange (totals : List UInt64) (key : UInt64) (i : Nat) : Prop :=
  (∀ t, i ≠ 0 → totals[i - 1]? = some t → t ≤ key) ∧ ∃ t, totals[i]? = some t ∧ key < t

/-! ## The search -/

/-- The exact sum of the first `i` weights. -/
def totalBefore (weights : List UInt32) (i : Nat) : Nat := ((weights.take i).map (·.toNat)).sum

section Search

variable {weights : List UInt32} {i j : Nat} {key : UInt64}

theorem totalBefore_succ {w : UInt32} (h : weights[i]? = some w) :
    totalBefore weights (i + 1) = totalBefore weights i + w.toNat := by
  rw [totalBefore, take_add_one, h, toList_some, map_append, sum_append]
  simp [totalBefore]

theorem totalBefore_mono (weights : List UInt32) (hij : i ≤ j) :
    totalBefore weights i ≤ totalBefore weights j := by
  obtain ⟨l, hl⟩ := take_prefix_take_left (l := weights) hij
  rw [totalBefore, totalBefore, ← hl, map_append, sum_append]
  exact Nat.le_add_right ..

theorem totalBefore_lt (hpos : ∀ w ∈ weights, w ≠ 0) (hij : i < j) (hi : i < weights.length) :
    totalBefore weights i < totalBefore weights j := by
  have hw : weights[i].toNat ≠ 0 := fun h0 =>
    hpos _ (getElem_mem hi) (UInt32.toNat_inj.1 (by rw [h0]; rfl))
  have hsucc := totalBefore_succ (getElem?_eq_getElem hi)
  have hle : totalBefore weights (i + 1) ≤ totalBefore weights j := totalBefore_mono weights hij
  omega

theorem runningTotals_getElem? (stop : UInt64) :
    (stop.toNat + totalBefore weights weights.length < 2 ^ 64) → i < weights.length →
      ∃ t, (runningTotals stop weights)[i]? = some t ∧
        t.toNat = stop.toNat + totalBefore weights (i + 1) := by
  induction weights generalizing stop i with
  | nil => exact fun _ hi => absurd hi (Nat.not_lt_zero _)
  | cons w ws ih =>
    intro hsum hi
    have hcons : ∀ k, totalBefore (w :: ws) (k + 1) = w.toNat + totalBefore ws k := by
      simp [totalBefore]
    rw [length_cons, hcons] at hsum
    have hadd : (stop + w.toUInt64).toNat = stop.toNat + w.toNat := by
      rw [UInt64.toNat_add, UInt32.toNat_toUInt64, Nat.mod_eq_of_lt (by omega)]
    rw [runningTotals, hcons]
    cases i with
    | zero => exact ⟨_, rfl, by rw [hadd]; simp [totalBefore]⟩
    | succ i =>
      obtain ⟨t, ht, heq⟩ := ih (i := i) (stop + w.toUInt64) (by omega) (by simpa using hi)
      exact ⟨t, ht, by omega⟩

theorem length_runningTotals (stop : UInt64) :
    (runningTotals stop weights).length = weights.length := by
  induction weights generalizing stop with
  | nil => rfl
  | cons w ws ih => simp [runningTotals, ih]

theorem total_eq (hsum : totalBefore weights weights.length < 2 ^ 64) {t : UInt64}
    (ht : (runningTotals 0 weights)[i]? = some t) : t.toNat = totalBefore weights (i + 1) := by
  have hi : i < weights.length := by
    rw [← length_runningTotals 0]
    exact (List.getElem?_eq_some_iff.1 ht).1
  obtain ⟨t', ht', heq⟩ := runningTotals_getElem? 0 (by simpa using hsum) hi
  rw [some.inj (ht.symm.trans ht'), heq]
  simp

theorem weightedSearch_eq (hpos : ∀ w ∈ weights, w ≠ 0)
    (hsum : totalBefore weights weights.length < 2 ^ 64)
    (hlo : totalBefore weights i ≤ key.toNat) (hhi : key.toNat < totalBefore weights (i + 1)) :
    ∀ (fuel startIndex endIndex : Nat), startIndex ≤ i → i ≤ endIndex → endIndex < weights.length →
      endIndex - startIndex < fuel →
      weightedSearch (runningTotals 0 weights) key fuel startIndex endIndex = some i
  | 0, _, _, _, _, _, hf => absurd hf (Nat.not_lt_zero _)
  | fuel + 1, startIndex, endIndex, hs, he, hn, hf => by
    rw [weightedSearch]
    dsimp only
    split
    · next hlt =>
      generalize hmid : (startIndex + endIndex) / 2 = mid
      obtain ⟨t, ht, -⟩ := runningTotals_getElem? (i := mid) 0 (by simpa using hsum) (by omega)
      have hteq := total_eq hsum ht
      rw [ht, bind_some]
      simp only [UInt64.lt_iff_toNat_lt, hteq]
      split
      · next hkey =>
        have hle : i ≤ mid := by
          by_contra hgt
          have : totalBefore weights (mid + 1) ≤ totalBefore weights i :=
            totalBefore_mono weights (not_le.1 hgt)
          omega
        exact weightedSearch_eq hpos hsum hlo hhi fuel startIndex mid hs hle (by omega) (by omega)
      · next hkey =>
        have hgt : mid < i := by
          by_contra hle
          have : totalBefore weights (i + 1) ≤ totalBefore weights (mid + 1) :=
            totalBefore_mono weights (Nat.succ_le_succ (not_lt.1 hle))
          omega
        split
        · exact weightedSearch_eq hpos hsum hlo hhi fuel (mid + 1) endIndex hgt he hn (by omega)
        · next hkey' =>
          -- the key is the total of `mid`, and the next range begins with it
          have hle : i ≤ mid + 1 := by
            by_contra hlt'
            have := totalBefore_lt hpos (not_le.1 hlt') (by omega)
            omega
          congr 1
          omega
    · congr 1
      omega

theorem weightedPick_eq (hpos : ∀ w ∈ weights, w ≠ 0)
    (hsum : totalBefore weights weights.length < 2 ^ 64) (hi : i < weights.length)
    (hlo : totalBefore weights i ≤ key.toNat) (hhi : key.toNat < totalBefore weights (i + 1)) :
    weightedPick (runningTotals 0 weights) key = some i := by
  obtain ⟨t, ht, -⟩ := runningTotals_getElem? (i := i) 0 (by simpa using hsum) hi
  rw [weightedPick, length_runningTotals, weightedSearch_eq hpos hsum hlo hhi _ _ _ (Nat.zero_le _)
    (by omega) (by omega) (by omega), bind_some, ht, bind_some, if_pos]
  rw [UInt64.lt_iff_toNat_lt, total_eq hsum ht]
  exact hhi

theorem exists_totalBefore_le {k : Nat} : ∀ n ≤ weights.length, k < totalBefore weights n →
    ∃ i < n, totalBefore weights i ≤ k ∧ k < totalBefore weights (i + 1)
  | 0, _, hk => absurd hk (Nat.not_lt_zero _)
  | n + 1, hn, hk => by
    by_cases hlt : k < totalBefore weights n
    · obtain ⟨i, hi, h⟩ := exists_totalBefore_le n (by omega) hlt
      exact ⟨i, by omega, h⟩
    · exact ⟨n, by omega, not_lt.1 hlt, hk⟩

theorem inRange_iff (hsum : totalBefore weights weights.length < 2 ^ 64) :
    InRange (runningTotals 0 weights) key i ↔ i < weights.length ∧
      totalBefore weights i ≤ key.toNat ∧ key.toNat < totalBefore weights (i + 1) := by
  constructor
  · rintro ⟨hlo, t, ht, hlt⟩
    have hi : i < weights.length := by
      rw [← length_runningTotals 0]
      exact (List.getElem?_eq_some_iff.1 ht).1
    rw [UInt64.lt_iff_toNat_lt, total_eq hsum ht] at hlt
    refine ⟨hi, ?_, hlt⟩
    cases i with
    | zero => exact Nat.zero_le _
    | succ i =>
      obtain ⟨t', ht', -⟩ := runningTotals_getElem? (i := i) 0 (by simpa using hsum) (by omega)
      rw [← total_eq hsum ht']
      exact UInt64.le_iff_toNat_le.1 (hlo t' (by omega) ht')
  · rintro ⟨hi, hlo, hhi⟩
    obtain ⟨t, ht, -⟩ := runningTotals_getElem? (i := i) 0 (by simpa using hsum) hi
    refine ⟨fun t' h0 ht' => ?_, t, ht, ?_⟩
    · rw [UInt64.le_iff_toNat_le, total_eq hsum ht', Nat.sub_add_cancel (Nat.pos_of_ne_zero h0)]
      exact hlo
    · rw [UInt64.lt_iff_toNat_lt, total_eq hsum ht]
      exact hhi

theorem weightedPick_inRange (hpos : ∀ w ∈ weights, w ≠ 0)
    (hsum : totalBefore weights weights.length < 2 ^ 64)
    (hkey : key.toNat < totalBefore weights weights.length) :
    ∃ i, weightedPick (runningTotals 0 weights) key = some i ∧
      ∀ j, InRange (runningTotals 0 weights) key j ↔ j = i := by
  obtain ⟨i, hi, hlo, hhi⟩ := exists_totalBefore_le _ le_rfl hkey
  refine ⟨i, weightedPick_eq hpos hsum hi hlo hhi, fun j => ?_⟩
  rw [inRange_iff hsum]
  constructor
  · rintro ⟨hj, hlo', hhi'⟩
    rcases Nat.lt_trichotomy i j with hlt | heq | hlt
    · have : totalBefore weights (i + 1) ≤ totalBefore weights j := totalBefore_mono weights hlt
      omega
    · exact heq.symm
    · have : totalBefore weights (j + 1) ≤ totalBefore weights i := totalBefore_mono weights hlt
      omega
  · rintro rfl
    exact ⟨hi, hlo, hhi⟩

/-- For positive weights with a sum below `2 ^ 64`, the search ends at the one child whose range
holds the key, so a child is chosen for as many keys as its weight says. -/
theorem weightedPick_chooses (weights : List UInt32) (hne : weights ≠ [])
    (hpos : ∀ w ∈ weights, w ≠ 0) (hsum : (weights.map (·.toNat)).sum < 2 ^ 64) :
    ∃ last, (runningTotals 0 weights).getLast? = some last ∧
      (∀ key < last, ∃ i, weightedPick (runningTotals 0 weights) key = some i ∧
        ∀ j, InRange (runningTotals 0 weights) key j ↔ j = i) ∧
      ∀ i w, weights[i]? = some w → ((Finset.range last.toNat).filter fun k =>
        weightedPick (runningTotals 0 weights) (.ofNat k) = some i).card = w.toNat := by
  have hsum' : totalBefore weights weights.length < 2 ^ 64 := by rwa [totalBefore, take_length]
  have hlen := length_pos_iff.2 hne
  obtain ⟨last, hlast, -⟩ := runningTotals_getElem? (i := weights.length - 1) 0
    (by simpa using hsum') (by omega)
  have htotal := total_eq hsum' hlast
  rw [Nat.sub_add_cancel hlen] at htotal
  refine ⟨last, ?_, fun key hkey => ?_, fun i w hw => ?_⟩
  · rw [getLast?_eq_getElem?, length_runningTotals, hlast]
  · rw [UInt64.lt_iff_toNat_lt, htotal] at hkey
    exact weightedPick_inRange hpos hsum' hkey
  · have hi : i < weights.length := (List.getElem?_eq_some_iff.1 hw).1
    have hsucc := totalBefore_succ hw
    have hle : totalBefore weights (i + 1) ≤ totalBefore weights weights.length :=
      totalBefore_mono weights hi
    have hset : ((Finset.range last.toNat).filter fun k =>
        weightedPick (runningTotals 0 weights) (.ofNat k) = some i) =
        Finset.Ico (totalBefore weights i) (totalBefore weights (i + 1)) := by
      ext k
      rw [Finset.mem_filter, Finset.mem_range, Finset.mem_Ico, htotal]
      constructor
      · rintro ⟨hk, hpick⟩
        have hnat : (UInt64.ofNat k).toNat = k := by
          rw [UInt64.toNat_ofNat', Nat.mod_eq_of_lt (by omega)]
        obtain ⟨i', hpick', hrange⟩ :=
          @weightedPick_inRange weights (.ofNat k) hpos hsum' (by rwa [hnat])
        have := (inRange_iff hsum').1 ((hrange i).2 (some.inj (hpick.symm.trans hpick')))
        rw [hnat] at this
        exact this.2
      · rintro ⟨hlo, hhi⟩
        have hnat : (UInt64.ofNat k).toNat = k := by
          rw [UInt64.toNat_ofNat', Nat.mod_eq_of_lt (by omega)]
        exact ⟨by omega, weightedPick_eq hpos hsum' hi (by rwa [hnat]) (by rwa [hnat])⟩
    rw [hset, Nat.card_Ico, hsucc, Nat.add_sub_cancel_left]

/-- Weights of one, two and three. -/
theorem weightedPick_chooses_of_three :
    ∃ last, (runningTotals 0 [1, 2, 3]).getLast? = some last ∧
      ((Finset.range last.toNat).filter fun k =>
        weightedPick (runningTotals 0 [1, 2, 3]) (.ofNat k) = some 2).card = 3 := by
  have hpos : ∀ w ∈ [1, 2, 3], w ≠ (0 : UInt32) := by simp
  have hsum : ([1, 2, 3].map UInt32.toNat).sum < 2 ^ 64 := by simp
  obtain ⟨last, hlast, -, hcard⟩ := weightedPick_chooses [1, 2, 3] (by simp) hpos hsum
  exact ⟨last, hlast, hcard 2 3 rfl⟩

theorem runningTotals_replicate (w : UInt32) (n : Nat) (stop : UInt64) :
    (runningTotals stop (List.replicate (n + 1) w)).getLast? =
      some (stop + .ofNat (n + 1) * w.toUInt64) := by
  induction n generalizing stop with
  | zero => simp [runningTotals]
  | succ n ih =>
    have hstep : runningTotals stop (List.replicate (n + 1 + 1) w) = (stop + w.toUInt64) ::
        runningTotals (stop + w.toUInt64) (List.replicate (n + 1) w) := rfl
    rw [hstep, getLast?_cons, ih, getD_some, UInt64.ofNat_add (n + 1)]
    congr 1
    grind

/-- With more than `2 ^ 32` children the last total wraps around: it is below the weight of every
child, so that no child is chosen for as many keys as its weight says. -/
theorem weightedPick_wraps :
    (runningTotals 0 (List.replicate (2 ^ 32 + 2) (2 ^ 32 - 1))).getLast? = some (2 ^ 32 - 2) ∧
    ∀ i, ((Finset.range (2 ^ 32 - 2 : UInt64).toNat).filter fun k => weightedPick
      (runningTotals 0 (List.replicate (2 ^ 32 + 2) (2 ^ 32 - 1))) (.ofNat k) = some i).card <
        (2 ^ 32 - 1 : UInt32).toNat := by
  refine ⟨?_, fun i => ?_⟩
  · rw [runningTotals_replicate _ (2 ^ 32 + 1)]
    rfl
  · refine Nat.lt_of_le_of_lt (Finset.card_filter_le _ _) ?_
    rw [Finset.card_range]
    decide

end Search

end GrpcCore
