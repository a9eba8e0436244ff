import GrpcCore.Lib.HeapOrder
import GrpcCore.Lib.Run
import Mathlib.Algebra.Group.Int.Defs
import Mathlib.Algebra.Group.Nat.Defs
import Mathlib.Data.List.Induction
import Mathlib.Data.Multiset.AddSub

/-!
# The timer heap

`TimerHeap` in `posix_engine/timer_heap.cc`: a binary heap of timers by deadline, in which every
timer knows its position. A timer is moved with a hole: the others are shifted, and it is written at
the end. The proofs look at the heap as if it already were in the hole (`place`), where every shift
is an exchange (`move_spec`) and the keys are those of `HeapOrder`.

`Remove` keeps the position in 32 bits and computes the one above it with an `int`, which is right
for heaps of at most `2 ^ 31` timers. An access outside the array or an overflow of the `int` is
`none`.
-/

open List HeapOrder Run

namespace GrpcCore

open Function Option

/-- `TimerHeap`, with the field `heap_index` of the timers. -/
structure TimerHeap (τ : Type*) where
  timers : List τ
  heapIndex : τ → Nat

/-- The calls of the heap. -/
inductive TimerHeapOp (τ : Type*) where
  | add (timer : τ)
  | remove (timer : τ)
  | pop

namespace TimerHeap

variable {τ : Type*} [DecidableEq τ] (deadline : τ → Int)

/-- Write a timer to a position, which it gets to know. -/
def place (h : TimerHeap τ) (i : Nat) (t : τ) : TimerHeap τ :=
  ⟨h.timers.set i t, update h.heapIndex t i⟩

def adjustUpwards (h : TimerHeap τ) (i : Nat) (t : τ) : Option (TimerHeap τ) :=
  if i = 0 then some (h.place i t)
  else
    match h.timers[parent i]? with
    | none => none
    | some p =>
      if deadline p ≤ deadline t then some (h.place i t)
      else adjustUpwards (h.place i p) (parent i) t
termination_by i
decreasing_by exact parent_lt (by omega)

/-- `next_i`: the right child if its deadline is the lesser one. -/
def nextChild (h : TimerHeap τ) (i : Nat) : Nat :=
  match h.timers[1 + 2 * i]?, h.timers[1 + 2 * i + 1]? with
  | some l, some r => if deadline r < deadline l then 1 + 2 * i + 1 else 1 + 2 * i
  | _, _ => 1 + 2 * i

omit [DecidableEq τ] in
theorem nextChild_eq (h : TimerHeap τ) (i : Nat) :
    h.nextChild deadline i = 1 + 2 * i ∨ h.nextChild deadline i = 1 + 2 * i + 1 := by
  unfold nextChild
  repeat' split
  all_goals omega

/-- `AdjustDownwards`; there is no next child where the left one is outside the array. -/
def adjustDownwards (h : TimerHeap τ) (i : Nat) (t : τ) : TimerHeap τ :=
  match _hc : h.timers[h.nextChild deadline i]? with
  | none => h.place i t
  | some c =>
    if deadline t ≤ deadline c then h.place i t
    else adjustDownwards (h.place i c) (h.nextChild deadline i) t
termination_by h.timers.length - i
decreasing_by
  have hlt := (List.getElem?_eq_some_iff.1 _hc).1
  have := h.nextChild_eq deadline i
  rw [place, length_set]
  omega

/-- `(static_cast<int>(i) - 1) / 2` as a `uint32_t`. -/
def parentIndex (i : Nat) : Option Nat :=
  let signed : Int := if i < 2 ^ 31 then i else i - 2 ^ 32
  if signed = -2 ^ 31 then none else some (((signed - 1).tdiv 2) % 2 ^ 32).toNat

def noteChangedPriority (h : TimerHeap τ) (timer : τ) : Option (TimerHeap τ) :=
  let i := h.heapIndex timer % 2 ^ 32
  (parentIndex i).bind fun parent =>
    h.timers[parent]?.bind fun p =>
      if deadline timer < deadline p then h.adjustUpwards deadline i timer
      else some (h.adjustDownwards deadline i timer)

/-- `Add`, with what it returns. -/
def add (h : TimerHeap τ) (timer : τ) : Option (TimerHeap τ × Bool) :=
  let i := h.timers.length
  (adjustUpwards deadline ⟨h.timers ++ [timer], update h.heapIndex timer i⟩ i timer).map
    fun h => (h, decide (h.heapIndex timer = 0))

def remove (h : TimerHeap τ) (timer : τ) : Option (TimerHeap τ) :=
  let i := h.heapIndex timer % 2 ^ 32
  h.timers.getLast?.bind fun last =>
    if i = h.timers.length - 1 then some { h with timers := h.timers.dropLast }
    else if i < h.timers.length then
      let h := h.place i last
      noteChangedPriority deadline { h with timers := h.timers.dropLast } last
    else none

def top (h : TimerHeap τ) : Option τ := h.timers[0]?

def step (h : TimerHeap τ) : TimerHeapOp τ → Option (TimerHeap τ)
  | .add timer => (h.add deadline timer).map (·.1)
  | .remove timer => h.remove deadline timer
  | .pop => h.top.bind (h.remove deadline)

/-! ## Exchanges -/

variable {deadline} {h : TimerHeap τ} {i j : Nat} {t p : τ}

/-- Every timer knows its position. -/
def Indexed (h : TimerHeap τ) : Prop := ∀ (j : Nat) (x : τ),
    h.timers[j]? = some x → h.heapIndex x = j

def key (deadline : τ → Int) (l : List τ) (j : Nat) : Int := l[j]?.elim 0 deadline

/-- Every timer knows its position, and no deadline is earlier than the one above it. -/
structure Valid (deadline : τ → Int) (h : TimerHeap τ) : Prop where
  indexed : h.Indexed
  ordered : Ordered (key deadline h.timers) h.timers.length

/-- The calls that may be made: a timer is added when it is not in the heap, and removed when it is;
`Pop` needs a timer; and the heap has at most `2 ^ 31` of them. -/
def Allowed (h : TimerHeap τ) : TimerHeapOp τ → Prop
  | .add timer => timer ∉ h.timers ∧ h.timers.length < 2 ^ 31
  | .remove timer => timer ∈ h.timers
  | .pop => h.timers ≠ []

instance (h : TimerHeap τ) : (op : TimerHeapOp τ) → Decidable (Allowed h op)
  | .add _ => inferInstanceAs (Decidable (_ ∧ _))
  | .remove timer => inferInstanceAs (Decidable (timer ∈ h.timers))
  | .pop => inferInstanceAs (Decidable (_ ≠ _))

end TimerHeap

end GrpcCore
