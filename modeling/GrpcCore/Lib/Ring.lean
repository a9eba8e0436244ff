import Mathlib.Data.List.Basic
import Mathlib.Data.Nat.ModEq
import Mathlib.Data.List.Induction

/-!
# Circular arrays

A circular array of capacity `cap` keeps a queue in the slots `start % cap`, `(start + 1) % cap`
and so on. `Holds slots cap start l` says that the queue it keeps is `l`, the oldest entry first;
slots outside the queue hold anything. The lemmas are the moves a program makes on such an array:
take the oldest entry, write behind the newest, grow while the array is not yet full, let the
start counter wrap around at a multiple of the capacity, copy the queue into a fresh array.
-/

namespace Ring

open List

variable {α : Type*}

variable {cap i start : Nat} {l slots : List α} {a : α}

theorem slot_ne {j : Nat} (s : Nat) (hij : i < j) (hj : j < i + cap) :
    (s + i) % cap ≠ (s + j) % cap := by
  intro h
  have hmod : s + i ≡ s + j [MOD cap] := h
  have hdvd : cap ∣ j - i := by
    have := (Nat.modEq_iff_dvd' (by omega)).1 hmod
    rwa [Nat.add_sub_add_left] at this
  have := Nat.le_of_dvd (by omega) hdvd
  omega

/-- The queue `l`, oldest first, is kept in `slots` from `start` on, modulo `cap`. -/
def Holds (slots : List α) (cap start : Nat) (l : List α) : Prop :=
  ∀ i, i < l.length → slots[(start + i) % cap]? = l[i]?

theorem holds_nil (slots : List α) (cap start : Nat) : Holds slots cap start [] :=
  fun _ h => absurd h (Nat.not_lt_zero _)

theorem Holds.head (h : Holds slots cap start (a :: l)) : slots[start % cap]? = some a := by
  simpa using h 0 (Nat.succ_pos _)

theorem Holds.tail (h : Holds slots cap start (a :: l)) : Holds slots cap (start + 1) l := by
  intro i hi
  have := h (i + 1) (Nat.succ_lt_succ hi)
  rwa [getElem?_cons_succ, ← Nat.add_assoc, Nat.add_right_comm] at this

theorem Holds.push (h : Holds slots cap start l)
    (hslots : slots.length = cap) (hl : l.length < cap) (a : α) :
    Holds (slots.set ((start + l.length) % cap) a) cap start (l ++ [a]) := by
  intro i hi
  rw [length_append, length_singleton] at hi
  rcases Nat.lt_succ_iff_lt_or_eq.1 hi with hi | rfl
  · rw [getElem?_set_ne (slot_ne start hi (by omega)).symm, h i hi,
      getElem?_append_left hi]
  · have hlt : (start + l.length) % cap < slots.length := by
      rw [hslots]; exact Nat.mod_lt _ (by omega)
    rw [getElem?_set_self hlt, getElem?_append_right (Nat.le_refl _)]
    simp

/-- While the array is still growing the queue ends at its end, and an entry is appended. -/
theorem Holds.grow (h : Holds slots cap start l)
    (hlen : slots.length = start + l.length) (hcap : slots.length < cap) (a : α) :
    Holds (slots ++ [a]) cap start (l ++ [a]) := by
  intro i hi
  rw [length_append, length_singleton] at hi
  rw [Nat.mod_eq_of_lt (by omega)]
  rcases Nat.lt_succ_iff_lt_or_eq.1 hi with hi | rfl
  · have := h i hi
    rw [Nat.mod_eq_of_lt (by omega)] at this
    rw [getElem?_append_left (by omega), getElem?_append_left hi, this]
  · rw [getElem?_append_right (by omega), getElem?_append_right (Nat.le_refl _), hlen]
    simp

theorem Holds.wrap {m : Nat} (hm : cap ∣ m)
    (h : Holds slots cap start l) : Holds slots cap (start % m) l := by
  intro i hi
  rw [← h i hi, Nat.add_mod, Nat.mod_mod_of_dvd _ hm, ← Nat.add_mod]

theorem holds_self (h : l.length ≤ cap) : Holds l cap 0 l := by
  intro i hi
  rw [Nat.zero_add, Nat.mod_eq_of_lt (by omega)]

theorem mapM_range_eq {f : Nat → Option α} {n : Nat} (hn : l.length = n)
    (h : ∀ i, i < n → f i = l[i]?) : (List.range n).mapM f = some l := by
  subst hn
  induction l using reverseRecOn generalizing f with
  | nil => rfl
  | append_singleton l a ih =>
    have hl : (List.range l.length).mapM f = some l := by
      refine ih fun i hi => ?_
      rw [h i (by simp; omega), getElem?_append_left hi]
    have ha : f l.length = some a := by
      rw [h l.length (by simp), getElem?_append_right (Nat.le_refl _)]
      simp
    rw [length_append, length_singleton, range_succ, mapM_append, hl]
    simp [ha]

theorem Holds.lookup (h : Holds slots cap start l) (hi : i < l.length) :
    slots[(start + (l.length - 1 - i)) % cap]? = l.reverse[i]? := by
  rw [h _ (by omega), getElem?_reverse hi]

end Ring
