import Mathlib.Data.List.Basic

/-!
# Allocated arrays

An array as `malloc` and `realloc` return it: a cell that was never written has no value, and
reading it, or a cell outside the array, fails. `Holds b i l` says that the cells of `b` from `i`
on hold the entries of `l`; the lemmas say what a write does to such a range, when it falls behind
it, into it, or outside it.
-/

/-- An array of cells; `none` is a cell that was allocated and never written. -/
structure Buffer (α : Type*) where
  cells : List (Option α)
  deriving DecidableEq

namespace Buffer

open List Option

variable {α : Type*} {b b' : Buffer α} {i k n : Nat} {a : α} {l : List α}

def size (b : Buffer α) : Nat := b.cells.length

def malloc (n : Nat) : Buffer α := ⟨List.replicate n none⟩

/-- The first cells keep what they hold; cells beyond the old size are new. -/
def realloc (b : Buffer α) (n : Nat) : Buffer α :=
  ⟨b.cells.take n ++ List.replicate (n - b.size) none⟩

def read (b : Buffer α) (i : Nat) : Option α := b.cells[i]?.join

def write (b : Buffer α) (i : Nat) (a : α) : Option (Buffer α) :=
  if i < b.size then some ⟨b.cells.set i (some a)⟩ else none

/-- `memcpy` and `memmove`: `n` cells of `src` from `k` on replace those of `b` from `i` on. -/
def copy (b : Buffer α) (i : Nat) (src : Buffer α) (k n : Nat) : Option (Buffer α) :=
  if i + n ≤ b.size ∧ k + n ≤ src.size then
    some ⟨b.cells.take i ++ (src.cells.drop k).take n ++ b.cells.drop (i + n)⟩
  else none

@[simp] theorem size_malloc : (malloc n : Buffer α).size = n := length_replicate

/-- A larger array has the size asked for. -/
theorem size_realloc (h : b.size ≤ n) : (b.realloc n).size = n := by
  rw [size, realloc, length_append, length_replicate, length_take]
  rw [size] at h ⊢
  omega

/-- The old cells keep what they hold. -/
theorem read_realloc (hn : b.size ≤ n) (h : i < b.size) : (b.realloc n).read i = b.read i := by
  rw [size] at hn h
  rw [read, realloc, take_of_length_le hn, getElem?_append_left h, read]

theorem exists_write (h : i < b.size) (a : α) : ∃ b', b.write i a = some b' :=
  ⟨_, if_pos h⟩

/-- Only the cells of the array are written. -/
theorem lt_of_write (h : b.write i a = some b') : i < b.size := by
  by_contra hi
  rw [write, if_neg hi] at h
  cases h

/-- What a write does. -/
theorem eq_of_write (h : b.write i a = some b') : b' = ⟨b.cells.set i (some a)⟩ := by
  rw [write, if_pos (lt_of_write h)] at h
  exact (some.inj h).symm

/-- A write does not change the size. -/
theorem size_of_write (h : b.write i a = some b') : b'.size = b.size := by
  rw [eq_of_write h, size, length_set, size]

/-- The cell that was written. -/
theorem read_written (h : b.write i a = some b') : b'.read i = some a := by
  have hi : i < b.cells.length := lt_of_write h
  rw [eq_of_write h, read, getElem?_set_self hi]
  rfl

/-- The other cells keep what they hold. -/
theorem read_of_write_ne (h : b.write i a = some b') (hk : k ≠ i) : b'.read k = b.read k := by
  rw [eq_of_write h, read, getElem?_set_ne hk.symm, read]

variable {src : Buffer α} {m : Nat}

theorem exists_copy (h : i + n ≤ b.size) (h' : m + n ≤ src.size) :
    ∃ b', b.copy i src m n = some b' :=
  ⟨_, if_pos ⟨h, h'⟩⟩

/-- A copy stays inside of both arrays. -/
theorem le_of_copy (h : b.copy i src m n = some b') :
    i + n ≤ b.size ∧ m + n ≤ src.size := by
  by_contra hle
  rw [copy, if_neg hle] at h
  cases h

/-- A copy does not change the size. -/
theorem size_of_copy (h : b.copy i src m n = some b') :
    b'.size = b.size := by
  have hle := le_of_copy h
  rw [copy, if_pos hle] at h
  obtain rfl := some.inj h
  simp only [size] at hle ⊢
  simp only [length_append, length_take, length_drop]
  omega

/-- The cells that were copied. -/
theorem read_copy {j : Nat} (h : b.copy i src m n = some b') (hj : j < n) :
    b'.read (i + j) = src.read (m + j) := by
  have hle := le_of_copy h
  rw [copy, if_pos hle] at h
  obtain rfl := some.inj h
  simp only [size] at hle
  have hi : (b.cells.take i).length = i := by rw [length_take]; omega
  have hn : j < ((src.cells.drop m).take n).length := by
    rw [length_take, length_drop]
    omega
  rw [read, append_assoc, getElem?_append_right (by omega), hi, Nat.add_sub_cancel_left,
    getElem?_append_left hn, getElem?_take_of_lt hj, getElem?_drop, read]

/-! ## Ranges of cells -/

/-- The cells from `i` on hold the entries of `l`. -/
def Holds (b : Buffer α) (i : Nat) (l : List α) : Prop :=
  ∀ j, j < l.length → b.read (i + j) = l[j]?

theorem holds_nil : Holds b i [] := fun _ h => absurd h (Nat.not_lt_zero _)

/-- The first cell of a range. -/
theorem Holds.head (h : Holds b i (a :: l)) : b.read i = some a :=
  h 0 (Nat.succ_pos _)

/-- The cells after the first one. -/
theorem Holds.tail (h : Holds b i (a :: l)) : Holds b (i + 1) l := by
  intro j hj
  have := h (j + 1) (Nat.succ_lt_succ hj)
  rwa [getElem?_cons_succ, ← Nat.add_assoc, Nat.add_right_comm] at this

/-- A range grows by the cell before it. -/
theorem Holds.cons (h : Holds b (i + 1) l) (ha : b.read i = some a) : Holds b i (a :: l) := by
  intro j hj
  cases j with
  | zero => exact ha
  | succ j =>
    rw [← Nat.add_assoc, Nat.add_right_comm, h j (Nat.lt_of_succ_lt_succ hj),
      getElem?_cons_succ]

/-- A part from the left of a range. -/
theorem Holds.take_append {l' : List α} (h : Holds b i (l ++ l')) : Holds b i l := by
  intro j hj
  rw [h j (by rw [length_append]; omega), getElem?_append_left hj]

/-- A larger array holds what the old one held. -/
theorem Holds.realloc (h : Holds b i l) (hn : b.size ≤ n) (hl : i + l.length ≤ b.size) :
    Holds (b.realloc n) i l := by
  intro j hj
  rw [read_realloc hn (by omega), h j hj]

/-- A write right behind a range adds to it. -/
theorem Holds.push (h : Holds b i l) (hw : b.write (i + l.length) a = some b') :
    Holds b' i (l ++ [a]) := by
  intro j hj
  rw [length_append, length_singleton] at hj
  rcases Nat.lt_succ_iff_lt_or_eq.1 hj with hj | rfl
  · rw [read_of_write_ne hw (by omega), h j hj, getElem?_append_left hj]
  · rw [read_written hw, getElem?_append_right (Nat.le_refl _), Nat.sub_self]
    rfl

/-- A write into a range replaces an entry. -/
theorem Holds.set (h : Holds b i l) (hk : k < l.length) (hw : b.write (i + k) a = some b') :
    Holds b' i (l.set k a) := by
  intro j hj
  rw [length_set] at hj
  by_cases hjk : j = k
  · subst hjk
    rw [read_written hw, getElem?_set_self hj]
  · rw [read_of_write_ne hw (by omega), h j hj, getElem?_set_ne (Ne.symm hjk)]

/-- A write before a range leaves it. -/
theorem Holds.write_before (h : Holds b i l) (hk : k < i) (hw : b.write k a = some b') :
    Holds b' i l := by
  intro j hj
  rw [read_of_write_ne hw (by omega), h j hj]

/-- What the copied cells hold, they hold where they were copied to. -/
theorem Holds.copy {d : Nat} (h : Holds src (m + d) l)
    (hc : b.copy i src m n = some b') (hd : d + l.length ≤ n) : Holds b' (i + d) l := by
  intro j hj
  rw [Nat.add_assoc, read_copy hc (by omega), ← Nat.add_assoc, h j hj]

end Buffer
