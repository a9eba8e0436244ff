import Mathlib.Order.Lattice
import Mathlib.Order.Nat
import Mathlib.Tactic.Common

/-!
# The order of a binary heap

The keys of a binary heap by their positions. While an element is moved up or down, the keys are in
order except around its position (`UpOrder`, `DownOrder`). A step swaps it with its parent or its
smallest child, and at the end all the keys are in order.
-/

namespace HeapOrder

def parent (i : Nat) : Nat := (i - 1) / 2

variable {α : Type*} [LinearOrder α] {D D' : Nat → α} {n i c : Nat}

/-- No key is less than the one above it. -/
def Ordered (D : Nat → α) (n : Nat) : Prop := ∀ j, 0 < j → j < n → D (parent j) ≤ D j

/-- In order, except that the key at `i` may be less than the one above it. -/
structure UpOrder (D : Nat → α) (n i : Nat) : Prop where
  others : ∀ j, 0 < j → j < n → j ≠ i → D (parent j) ≤ D j
  across : ∀ j, 0 < j → j < n → parent j = i → 0 < i → D (parent i) ≤ D j

/-- In order, except that the key at `i` may be greater than the ones below it. -/
structure DownOrder (D : Nat → α) (n i : Nat) : Prop where
  others : ∀ j, 0 < j → j < n → parent j ≠ i → D (parent j) ≤ D j
  across : ∀ j, 0 < j → j < n → parent j = i → 0 < i → D (parent i) ≤ D j

theorem parent_lt (hi : 0 < i) : parent i < i := by
  unfold parent
  omega

theorem UpOrder.finish (h : UpOrder D n i) (hi : 0 < i → D (parent i) ≤ D i) : Ordered D n := by
  intro j hj hjn
  by_cases hji : j = i
  · subst hji
    exact hi hj
  · exact h.others j hj hjn hji

theorem DownOrder.finish (h : DownOrder D n i)
    (hmin : ∀ j, 0 < j → j < n → parent j = i → D i ≤ D j) : Ordered D n := by
  intro j hj hjn
  by_cases hpj : parent j = i
  · exact hpj ▸ hmin j hj hjn hpj
  · exact h.others j hj hjn hpj

end HeapOrder
