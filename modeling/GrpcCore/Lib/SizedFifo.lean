import Mathlib.Algebra.GroupWithZero.Nat
import Mathlib.Algebra.Order.BigOperators.Group.List

/-!
# First-in first-out tables bounded by the total size of their entries

A table is a list of entries, the newest first, over an arbitrary type with a size function. When
the entries no longer fit below a capacity the oldest are dropped, so what is left is the longest
run of newest entries that fits (`fit`). An eviction loop drops one oldest entry at a time
(`List.dropLast`) while the total is above the capacity; `fit_dropLast` is its invariant and
`fit_eq_self` its exit, and the two together say that such a loop computes `fit` (`drain_fit`).
Inserting `a` into `l` is `fit cap (a :: l)`, the rule for an entry larger than the whole capacity
included.
-/

namespace SizedFifo

open List

variable {α : Type*} (sz : α → Nat)

/-- The total size of the entries of a table. -/
def total (l : List α) : Nat := (l.map sz).sum

/-- The longest run of newest entries whose total size is at most `cap`. -/
def fit : Nat → List α → List α
  | _, [] => []
  | cap, a :: l => if sz a ≤ cap then a :: fit (cap - sz a) l else []

@[simp] theorem total_nil : total sz [] = 0 := rfl

@[simp] theorem total_cons (a : α) (l : List α) : total sz (a :: l) = sz a + total sz l := rfl

theorem total_append (l m : List α) : total sz (l ++ m) = total sz l + total sz m := by
  simp [total]

variable {l : List α} {cap n : Nat}

theorem total_mono {m : List α} (h : l <+: m) : total sz l ≤ total sz m := by
  obtain ⟨t, rfl⟩ := h
  rw [total_append]
  omega

@[simp] theorem fit_nil (cap : Nat) : fit sz cap [] = [] := rfl

theorem fit_cons (cap : Nat) (a : α) (l : List α) :
    fit sz cap (a :: l) = if sz a ≤ cap then a :: fit sz (cap - sz a) l else [] := rfl

theorem fit_newest (cap : Nat) (l : List α) : fit sz cap l <+: l := by
  induction l generalizing cap with
  | nil => exact prefix_refl _
  | cons a l ih =>
    rw [fit_cons]
    split
    · exact (prefix_cons_inj a).2 (ih _)
    · exact nil_prefix

theorem total_fit_le (cap : Nat) (l : List α) : total sz (fit sz cap l) ≤ cap := by
  induction l generalizing cap with
  | nil => simp
  | cons a l ih =>
    rw [fit_cons]
    split
    · have := ih (cap - sz a)
      simp only [total_cons]
      omega
    · simp

/-- A table within the capacity is left alone: the exit of an eviction loop. -/
theorem fit_eq_self (h : total sz l ≤ cap) : fit sz cap l = l := by
  induction l generalizing cap with
  | nil => rfl
  | cons a l ih =>
    simp only [total_cons] at h
    rw [fit_cons, if_pos (by omega), ih (by omega)]

/-- Dropping the oldest entry of a table above the capacity does not change what fits: the
invariant of an eviction loop. -/
theorem fit_dropLast (h : cap < total sz l) :
    fit sz cap l.dropLast = fit sz cap l := by
  induction l generalizing cap with
  | nil => rfl
  | cons a l ih =>
    cases l with
    | nil =>
      simp only [total_cons, total_nil, Nat.add_zero] at h
      simp [fit_cons, Nat.not_le.2 h]
    | cons b l =>
      rw [dropLast_cons_of_ne_nil (cons_ne_nil b l), fit_cons, fit_cons]
      split
      · rw [ih (by simp only [total_cons] at h ⊢; omega)]
      · rfl

theorem length_fit_lt (h : cap < total sz l) :
    (fit sz cap l).length < l.length := by
  refine lt_of_le_of_ne (fit_newest sz cap l).length_le fun heq => ?_
  have := total_fit_le sz cap l
  rw [(fit_newest sz cap l).eq_of_length heq] at this
  omega

theorem le_fit_of_total_le {m : List α} (h : m <+: l) (hm : total sz m ≤ cap) :
    m <+: fit sz cap l := by
  induction l generalizing cap m with
  | nil => exact h
  | cons a l ih =>
    cases m with
    | nil => exact nil_prefix
    | cons b m =>
      obtain ⟨rfl, htail⟩ := cons_prefix_cons.1 h
      simp only [total_cons] at hm
      rw [fit_cons, if_pos (by omega)]
      exact (prefix_cons_inj b).2 (ih htail (by omega))

theorem fit_fit {c : Nat} (h : c ≤ cap) : fit sz c (fit sz cap l) = fit sz c l := by
  induction l generalizing c cap with
  | nil => rfl
  | cons a l ih =>
    by_cases ha : sz a ≤ c
    · rw [fit_cons sz cap, if_pos (ha.trans h), fit_cons, if_pos ha, fit_cons, if_pos ha,
        ih (Nat.sub_le_sub_right h _)]
    · rw [fit_cons sz cap]
      split <;> simp [fit_cons, ha]

theorem fit_zero (h : ∀ a ∈ l, 0 < sz a) : fit sz 0 l = [] := by
  cases l with
  | nil => rfl
  | cons a l =>
    have := h a (mem_cons_self ..)
    rw [fit_cons, if_neg (by omega)]

theorem mul_length_le_total {d : Nat} (h : ∀ a ∈ l, d ≤ sz a) :
    d * l.length ≤ total sz l := by
  induction l with
  | nil => simp
  | cons a l ih =>
    have ha := h a (mem_cons_self ..)
    have hl := ih fun b hb => h b (mem_cons_of_mem a hb)
    simp only [length_cons, total_cons, Nat.mul_succ]
    omega

theorem fit_map {β : Type*} {f : α → β} {sz' : β → Nat} (hf : ∀ a, sz' (f a) = sz a) (cap : Nat)
    (l : List α) : fit sz' cap (l.map f) = (fit sz cap l).map f := by
  induction l generalizing cap with
  | nil => rfl
  | cons a l ih =>
    rw [map_cons, fit_cons, fit_cons, hf]
    split
    · rw [ih, map_cons]
    · rfl

/-- The eviction loop: drop the oldest entry while `p` holds, at most `n` times. -/
def drain (p : List α → Bool) : Nat → List α → List α
  | 0, l => l
  | n + 1, l => if p l then drain p n l.dropLast else l

theorem drain_succ (p : List α → Bool) (n : Nat) (l : List α) :
    drain p (n + 1) l = if p l then drain p n l.dropLast else l := rfl

/-- A loop that evicts while the table is above the capacity leaves what fits. -/
theorem drain_fit (h : l.length ≤ n) :
    drain (fun l => cap < total sz l) n l = fit sz cap l := by
  induction n generalizing l with
  | zero =>
    obtain rfl := length_eq_zero_iff.1 (Nat.le_zero.1 h)
    rfl
  | succ n ih =>
    rw [drain_succ]
    split
    · next hl =>
      rw [ih (by rw [length_dropLast]; omega), fit_dropLast sz (of_decide_eq_true hl)]
    · next hl => exact (fit_eq_self sz (by simpa using hl)).symm

theorem drain_all (h : l.length ≤ n) :
    drain (fun l => l.length ≠ 0) n l = [] := by
  induction n generalizing l with
  | zero => exact length_eq_zero_iff.1 (Nat.le_zero.1 h)
  | succ n ih =>
    rw [drain_succ]
    split
    · exact ih (by rw [length_dropLast]; omega)
    · next hl => simpa using hl

end SizedFifo
