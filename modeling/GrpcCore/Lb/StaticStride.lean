import Mathlib.Data.List.Basic
import Mathlib.Tactic.Ring

/-!
# The static stride scheduler

`StaticStrideScheduler::Pick` in `static_stride_scheduler.cc`. A sequence number names a backend and
a generation, and the backend is picked or skipped by a test on a remainder. The test says whether
the quotient that belongs to the remainder is another one in the next generation
(`quotient_add_weight`), so the number of picks in a window is the difference of two quotients
(`countP_strideStep`).
-/

namespace GrpcCore

open List

def kMaxWeight : Nat := 65535

def kOffset : Nat := kMaxWeight / 2

/-- The body of the loop of `Pick` for a sequence number: the backend, unless it is skipped. The
arithmetic is that of `uint64_t`. -/
def strideStep (weights : List UInt16) (sequence : Nat) : Option Nat :=
  let backendIndex := sequence % weights.length
  let generation := sequence / weights.length
  match weights[backendIndex]? with
  | none => none
  | some w =>
    let weight := w.toNat
    let mod := (weight * generation % 2 ^ 64 + backendIndex * kOffset % 2 ^ 64) %
      2 ^ 64 % kMaxWeight
    if mod < kMaxWeight - weight then none else some backendIndex

/-- `Pick` for at most `fuel` calls of `next_sequence_func_`, whose results are `next`: the backend,
with the number of calls that were made. -/
def stridePick (weights : List UInt16) (next : Nat → Nat) : Nat → Nat → Option (Nat × Nat)
  | 0, _ => none
  | fuel + 1, calls =>
    match strideStep weights (next calls) with
    | none => stridePick weights next fuel (calls + 1)
    | some backendIndex => some (backendIndex, calls + 1)

variable {weights : List UInt16} {i g w : Nat}

theorem quotient_add_weight {x : Nat} (hw : w ≤ 65535) :
    (x + w) / 65535 = x / 65535 + if x % 65535 < 65535 - w then 0 else 1 := by
  split <;> omega

variable {n : Nat}

/-- Below `2 ^ 32` no product and no sum reaches `2 ^ 64`. -/
theorem stride_lt (hw : w ≤ 65535) (hn : 0 < n) (hseq : g * n + i < 2 ^ 32) :
    w * g + i * 32767 < 2 ^ 64 := by
  have hg : g ≤ g * n := Nat.le_mul_of_pos_right g hn
  have hwg : w * g ≤ 65535 * 2 ^ 32 := Nat.mul_le_mul hw (by omega)
  omega

theorem strideStep_eq {w : UInt16} (hi : weights[i]? = some w)
    (hseq : g * weights.length + i < 2 ^ 32) :
    strideStep weights (g * weights.length + i) =
      if (w.toNat * g + 32767 * i) % 65535 < 65535 - w.toNat then none else some i := by
  have hlt : i < weights.length := (List.getElem?_eq_some_iff.1 hi).1
  have hw : w.toNat ≤ 65535 := Nat.le_of_lt_succ w.toNat_lt
  have hbound := stride_lt hw (by omega) hseq
  have hmod : (g * weights.length + i) % weights.length = i := by
    rw [Nat.mul_add_mod_self_right, Nat.mod_eq_of_lt hlt]
  have hdiv : (g * weights.length + i) / weights.length = g := by
    rw [Nat.mul_comm, Nat.mul_add_div (by omega), Nat.div_eq_of_lt hlt, Nat.add_zero]
  rw [strideStep, hmod, hdiv, hi]
  dsimp only [kMaxWeight, kOffset]
  rw [show 65535 / 2 = 32767 from rfl, Nat.mod_eq_of_lt (a := w.toNat * g) (by omega),
    Nat.mod_eq_of_lt (a := i * 32767) (by omega),
    Nat.mod_eq_of_lt (a := w.toNat * g + i * 32767) hbound, Nat.mul_comm i]
  rfl

theorem strideStep_eq_some_iff {w : UInt16} (hi : weights[i]? = some w)
    (hseq : g * weights.length + i < 2 ^ 32) :
    strideStep weights (g * weights.length + i) = some i ↔
      (w.toNat * (g + 1) + 32767 * i) / 65535 ≠ (w.toNat * g + 32767 * i) / 65535 := by
  have hw : w.toNat ≤ 65535 := Nat.le_of_lt_succ w.toNat_lt
  have hquot := quotient_add_weight (x := w.toNat * g + 32767 * i) hw
  rw [strideStep_eq hi hseq,
    show w.toNat * (g + 1) + 32767 * i = w.toNat * g + 32767 * i + w.toNat by ring, hquot]
  split <;> simp

/-- The picks of a backend in a window of generations are counted by the quotients at its ends. -/
theorem countP_strideStep {w : UInt16} (hi : weights[i]? = some w) (g : Nat) : ∀ L : Nat,
    (∀ g' < g + L, g' * weights.length + i < 2 ^ 32) →
    (w.toNat * g + 32767 * i) / 65535 + (range' g L).countP
        (fun g' => decide (strideStep weights (g' * weights.length + i) = some i)) =
      (w.toNat * (g + L) + 32767 * i) / 65535
  | 0, _ => rfl
  | L + 1, hseq => by
    have hw : w.toNat ≤ 65535 := Nat.le_of_lt_succ w.toNat_lt
    have ih := countP_strideStep hi g L fun g' hg' => hseq g' (by omega)
    have hquot := quotient_add_weight (x := w.toNat * (g + L) + 32767 * i) hw
    rw [range'_1_concat, countP_append, ← Nat.add_assoc, ih, countP_singleton,
      strideStep_eq hi (hseq _ (by omega)), ← Nat.add_assoc,
      show w.toNat * (g + L + 1) + 32767 * i = w.toNat * (g + L) + 32767 * i + w.toNat
        by ring, hquot]
    split <;> simp

theorem stridePick_of_step {next : Nat → Nat} : ∀ (k fuel calls : Nat), k < fuel →
    strideStep weights (next (calls + k)) = some i →
    ∃ j ≤ k, ∃ i', stridePick weights next fuel calls = some (i', calls + j + 1)
  | k, 0, _, hk, _ => absurd hk (Nat.not_lt_zero _)
  | k, fuel + 1, calls, hk, hstep => by
    rw [stridePick]
    cases hs : strideStep weights (next calls) with
    | some i' => exact ⟨0, Nat.zero_le _, i', rfl⟩
    | none =>
      cases k with
      | zero => rw [Nat.add_zero, hs] at hstep; cases hstep
      | succ k =>
        obtain ⟨j, hj, i', hpick⟩ := stridePick_of_step k fuel (calls + 1) (by omega)
          (by rwa [Nat.add_right_comm, Nat.add_assoc])
        refine ⟨j + 1, by omega, i', ?_⟩
        rwa [show calls + (j + 1) + 1 = calls + 1 + j + 1 by omega]

theorem exists_add_eq_mul_add (start : Nat) (hi : i < n) :
    ∃ k < n, ∃ g, start + k = g * n + i := by
  have hlt : start % n < n := Nat.mod_lt _ (by omega)
  have hdiv := Nat.div_add_mod' start n
  by_cases hle : start % n ≤ i
  · exact ⟨i - start % n, by omega, start / n, by omega⟩
  · exact ⟨n + i - start % n, by omega, start / n + 1, by rw [Nat.add_one_mul]; omega⟩

/-- The scheduler is fair: a backend is picked in a generation exactly if its quotient changes
there, so it is picked its share of the times in every window; and a pick ends within one round. -/
theorem staticStride_fair (weights : List UInt16) (hn : 2 ≤ weights.length)
    (hmax : 65535 ∈ weights) :
    (∀ (i g : Nat) (w : UInt16), weights[i]? = some w → g * weights.length + i < 2 ^ 32 →
      w.toNat * g + i * kOffset < 2 ^ 64 ∧
      (strideStep weights (g * weights.length + i) = some i ↔
        (w.toNat * (g + 1) + 32767 * i) / 65535 ≠ (w.toNat * g + 32767 * i) / 65535)) ∧
    (∀ (i g L : Nat) (w : UInt16), weights[i]? = some w →
      (∀ g' < g + L, g' * weights.length + i < 2 ^ 32) →
      let picks := (range' g L).countP
        fun g' => decide (strideStep weights (g' * weights.length + i) = some i)
      (picks = w.toNat * L / 65535 ∨ picks = (w.toNat * L + 65534) / 65535) ∧
      (L = 65535 → picks = w.toNat)) ∧
    (∀ (start : Nat) (next : Nat → Nat), start + weights.length ≤ 2 ^ 32 →
      (∀ k < weights.length, next k = start + k) →
      ∃ calls ≤ weights.length, ∃ i, stridePick weights next weights.length 0 =
        some (i, calls)) := by
  refine ⟨fun i g w hi hseq => ⟨?_, strideStep_eq_some_iff hi hseq⟩, fun i g L w hi hseq => ?_,
    fun start next hstart hnext => ?_⟩
  · exact stride_lt (Nat.le_of_lt_succ w.toNat_lt) (by omega) hseq
  · have hcount := countP_strideStep hi g L hseq
    rw [Nat.mul_add] at hcount
    dsimp only
    generalize (range' g L).countP _ = picks at hcount ⊢
    refine ⟨?_, fun hL => ?_⟩
    · generalize w.toNat * L = wL at hcount ⊢
      omega
    · subst hL
      omega
  · obtain ⟨i, hlt, hget⟩ := mem_iff_getElem.1 hmax
    have hi : weights[i]? = some 65535 := hget ▸ getElem?_eq_getElem hlt
    obtain ⟨k, hk, g, hg⟩ := exists_add_eq_mul_add start hlt
    have hstep : strideStep weights (next (0 + k)) = some i := by
      rw [Nat.zero_add, hnext k hk, hg, strideStep_eq hi (by omega)]
      rfl
    obtain ⟨j, hj, i', hpick⟩ := stridePick_of_step k _ 0 hk hstep
    exact ⟨0 + j + 1, by omega, i', hpick⟩

/-- The scheduler with the weights 65535 and 21845 picks the second backend in every third
generation. -/
theorem staticStride_fair_two_backends :
    (range' 0 65535).countP
      (fun g => decide (strideStep [65535, 21845] (g * 2 + 1) = some 1)) = 21845 ∧
    ∃ calls ≤ 2, ∃ i, stridePick [65535, 21845] (7 + ·) 2 0 = some (i, calls) := by
  have hfair := staticStride_fair [65535, 21845] (by decide) (by decide)
  refine ⟨(hfair.2.1 1 0 65535 21845 rfl fun g' hg' => ?_).2 rfl,
    hfair.2.2 7 (7 + ·) (by decide) fun _ _ => rfl⟩
  have : g' * 2 + 1 < 2 ^ 32 := by omega
  exact this

end GrpcCore
