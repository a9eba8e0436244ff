import GrpcCore.Slice.SliceBufferBytes

/-!
# Moving bytes out of a slice buffer

`grpc_slice_buffer_move_first` takes slices off the front of a buffer until `n` bytes are moved, and
puts the tail of the last one back. `grpc_slice_buffer_move_first_into_buffer` does the same with
memory of the caller as the destination, and `grpc_slice_buffer_copy_first_into_buffer` reads the
slices where they are. However the bytes are divided into slices, all of them move the first `n`
bytes (`moveFirst_moves`).
-/

namespace GrpcCore

open List Option Run Slice

/-- `memcpy` to `dstp`: the bytes replace those of the memory from there on. -/
def memcpy (out : Nat → UInt8) (dstp : Nat) (bytes : List UInt8) : Nat → UInt8 := fun a =>
  if dstp ≤ a then bytes[a - dstp]?.getD (out a) else out a

@[simp] theorem memcpy_nil (out : Nat → UInt8) (dstp : Nat) : memcpy out dstp [] = out := by
  funext a
  simp [memcpy]

/-- Two pieces that are written one behind the other. -/
theorem memcpy_append (out : Nat → UInt8) (dstp : Nat) (l l' : List UInt8) :
    memcpy (memcpy out dstp l) (dstp + l.length) l' = memcpy out dstp (l ++ l') := by
  funext a
  unfold memcpy
  by_cases hlt : a < dstp + l.length
  · rw [if_neg (Nat.not_le_of_lt hlt)]
    by_cases hle : dstp ≤ a
    · rw [if_pos hle, if_pos hle, getElem?_append_left (by omega)]
    · rw [if_neg hle, if_neg hle]
  · have hle : dstp ≤ a := by omega
    have hl : l[a - dstp]? = none := List.getElem?_eq_none (by omega)
    rw [if_pos (Nat.le_of_not_lt hlt), if_pos hle, if_pos hle, hl,
      getElem?_append_right (by omega), Nat.sub_sub]
    rfl

/-- `grpc_slice_sub_no_ref`, with its assertions. -/
def Slice.subNoRef (source : Slice) (first last : Nat) : Option Slice :=
  if last < first then none
  else
    match source with
    | refcounted refcount start n =>
      if n < last then none else some (refcounted refcount (start + first) (last - first))
    | inlined b =>
      if b.1.length < last then none else ofBytes ((b.1.drop first).take (last - first))

/-- The part from `n` to the end of a slice has its last bytes. -/
theorem Slice.subNoRef_bytes {n : Nat} {s : Slice} (mem : Nat → UInt8) (hn : n ≤ s.length) :
    Returns (s.subNoRef n s.length) (·.bytes mem = (s.bytes mem).drop n) := by
  unfold subNoRef
  rw [if_neg (Nat.not_lt_of_le hn)]
  cases s with
  | inlined b =>
    have hall : (b.1.drop n).take (b.1.length - n) = b.1.drop n :=
      take_of_length_le (Nat.le_of_eq length_drop)
    have hb := b.2
    show Returns (if b.1.length < b.1.length then none else _) _
    rw [if_neg (Nat.lt_irrefl _), length, hall]
    exact ofBytes_returns mem (by rw [length_drop]; omega)
  | refcounted rc start len =>
    refine ⟨refcounted rc (start + n) (len - n), if_neg (Nat.lt_irrefl _), ?_⟩
    have hparts : Splits mem (refcounted rc start len) n (refcounted rc start n)
        (refcounted rc (start + n) (len - n)) := splits_refcounted hn rfl rfl
    exact hparts.bytes_tail

namespace SliceBuffer

/-- The loop of `grpc_slice_buffer_move_first_into_buffer`, by the number of slices of `src`. -/
def moveFirstIntoLoop (mem : Nat → UInt8) : Nat → SliceBuffer → Nat → Nat → (Nat → UInt8) →
    Option (SliceBuffer × (Nat → UInt8))
  -- `take_first` asserts that there is a slice
  | 0, src, n, _, out => if n = 0 then some (src, out) else none
  | count + 1, src, n, dstp, out =>
    if n = 0 then some (src, out)
    else do
      let (src, s) ← src.takeFirst
      if n < s.length then
        let src ← src.undoTakeFirst (← s.subNoRef n s.length)
        some (src, memcpy out dstp ((s.bytes mem).take n))
      else if s.length = n then some (src, memcpy out dstp ((s.bytes mem).take n))
      else
        moveFirstIntoLoop mem count src (n - s.length) (dstp + s.length)
          (memcpy out dstp (s.bytes mem))

/-- `grpc_slice_buffer_move_first_into_buffer`. -/
def moveFirstIntoBuffer (mem : Nat → UInt8) (src : SliceBuffer) (n dst : Nat)
    (out : Nat → UInt8) : Option (SliceBuffer × (Nat → UInt8)) :=
  if src.length < n then none else moveFirstIntoLoop mem src.count src n dst out

/-- The loop of `grpc_slice_buffer_copy_first_into_buffer`, by the number of slices from `i` on. -/
def copyFirstIntoLoop (mem : Nat → UInt8) (src : SliceBuffer) : Nat → Nat → Nat → Nat →
    (Nat → UInt8) → Option (Nat → UInt8)
  | 0, _, _, _, out => some out
  | count + 1, i, n, dstp, out => do
    let s ← src.read i
    if n ≤ s.length then some (memcpy out dstp ((s.bytes mem).take n))
    else
      copyFirstIntoLoop mem src count (i + 1) (n - s.length) (dstp + s.length)
        (memcpy out dstp (s.bytes mem))

/-- `grpc_slice_buffer_copy_first_into_buffer`. -/
def copyFirstIntoBuffer (mem : Nat → UInt8) (src : SliceBuffer) (n dst : Nat)
    (out : Nat → UInt8) : Option (Nat → UInt8) :=
  if src.length < n then none else copyFirstIntoLoop mem src src.count 0 n dst out

variable {mem : Nat → UInt8} {src dst : SliceBuffer} {l : List Slice} {n : Nat} {s : Slice}
  {t : List UInt8}

theorem take_bytes_head (mem : Nat → UInt8) (l : List Slice) (hn : n ≤ s.length) :
    ((s :: l).flatMap (bytes mem)).take n = (s.bytes mem).take n := by
  rw [flatMap_cons, take_append_of_le_length (by rwa [length_bytes])]

theorem take_bytes_tail (mem : Nat → UInt8) (l : List Slice) (hn : s.length ≤ n) :
    ((s :: l).flatMap (bytes mem)).take n =
      s.bytes mem ++ (l.flatMap (bytes mem)).take (n - s.length) := by
  rw [flatMap_cons, take_append, length_bytes,
    take_of_length_le (by rwa [length_bytes])]

/-- The loop writes the first `n` bytes and leaves the others. -/
theorem moveFirstIntoLoop_bytes (h : Represents src l)
    (hn : n ≤ (l.flatMap (bytes mem)).length) (dstp : Nat) (out : Nat → UInt8) :
    ∃ src', moveFirstIntoLoop mem l.length src n dstp out =
        some (src', memcpy out dstp ((l.flatMap (bytes mem)).take n)) ∧
      HoldsBytes mem src' ((l.flatMap (bytes mem)).drop n) := by
  induction l generalizing src n dstp out with
  | nil =>
    obtain rfl : n = 0 := Nat.le_zero.mp hn
    exact ⟨src, by simp [moveFirstIntoLoop], [], h, rfl⟩
  | cons s l ih =>
    have hs := length_bytes mem s
    obtain ⟨src₁, htake, hl, hoffset⟩ := takeFirst_represents h
    rw [length_cons, moveFirstIntoLoop]
    by_cases hzero : n = 0
    · subst hzero
      exact ⟨src, by simp, s :: l, h, rfl⟩
    rw [if_neg hzero, htake]
    simp only [bind_eq_bind, bind_some]
    by_cases hlt : n < s.length
    · -- the tail of the slice goes back
      obtain ⟨tail, hsub, htail⟩ := subNoRef_bytes mem (Nat.le_of_lt hlt)
      obtain ⟨src', hundo, hsrc'⟩ := undoTakeFirst_represents hl hoffset tail
      rw [if_pos hlt, hsub, take_bytes_head mem l (Nat.le_of_lt hlt)]
      simp only [bind_some, hundo]
      refine ⟨src', rfl, tail :: l, hsrc', ?_⟩
      rw [flatMap_cons, flatMap_cons, htail, drop_append_of_le_length (by omega)]
    rw [if_neg hlt]
    by_cases heq : s.length = n
    · rw [if_pos heq, take_bytes_head mem l (Nat.le_of_eq heq.symm)]
      exact ⟨src₁, rfl, l, hl, by rw [flatMap_cons, drop_left' (hs.trans heq)]⟩
    · have hle : s.length ≤ n := Nat.le_of_not_lt hlt
      rw [flatMap_cons, length_append, hs] at hn
      obtain ⟨src', hloop, hsrc'⟩ := ih (n := n - s.length) hl (by omega) (dstp + s.length)
        (memcpy out dstp (s.bytes mem))
      rw [if_neg heq, hloop, take_bytes_tail mem l hle, ← memcpy_append, hs]
      refine ⟨src', rfl, ?_⟩
      rwa [flatMap_cons, drop_append, drop_eq_nil_of_le (by omega), hs]

/-- The loop writes the first `n` bytes of the slices after `l₀`. -/
theorem copyFirstIntoLoop_bytes (l₀ : List Slice) (h : Represents src (l₀ ++ l))
    (hn : n ≤ (l.flatMap (bytes mem)).length) (dstp : Nat) (out : Nat → UInt8) :
    copyFirstIntoLoop mem src l.length l₀.length n dstp out =
      some (memcpy out dstp ((l.flatMap (bytes mem)).take n)) := by
  induction l generalizing l₀ n dstp out with
  | nil =>
    obtain rfl : n = 0 := Nat.le_zero.mp hn
    simp [copyFirstIntoLoop]
  | cons s l ih =>
    have hs := length_bytes mem s
    have hread : src.read l₀.length = some s := by
      rw [h.read (by simp)]
      simp
    rw [length_cons, copyFirstIntoLoop, hread]
    simp only [bind_eq_bind, bind_some]
    by_cases hle : n ≤ s.length
    · rw [if_pos hle, take_bytes_head mem l hle]
    · rw [flatMap_cons, length_append, hs] at hn
      have hrest := ih (n := n - s.length) (l₀ ++ [s]) (by rwa [append_assoc]) (by omega)
        (dstp + s.length) (memcpy out dstp (s.bytes mem))
      rw [length_append, length_singleton] at hrest
      rw [if_neg hle, hrest, take_bytes_tail mem l (by omega), ← memcpy_append, hs]

theorem moveFirstIntoBuffer_bytes (h : HoldsBytes mem src t) (hn : n ≤ t.length)
    (dstp : Nat) (out : Nat → UInt8) : ∃ src', src.moveFirstIntoBuffer mem n dstp out =
        some (src', memcpy out dstp (t.take n)) ∧ HoldsBytes mem src' (t.drop n) := by
  rw [moveFirstIntoBuffer, if_neg (by rw [h.length_eq]; omega)]
  obtain ⟨l, hl, rfl⟩ := h
  rw [hl.count_eq]
  exact moveFirstIntoLoop_bytes hl hn dstp out

theorem copyFirstIntoBuffer_bytes (h : HoldsBytes mem src t) (hn : n ≤ t.length)
    (dstp : Nat) (out : Nat → UInt8) :
    src.copyFirstIntoBuffer mem n dstp out = some (memcpy out dstp (t.take n)) := by
  rw [copyFirstIntoBuffer, if_neg (by rw [h.length_eq]; omega)]
  obtain ⟨l, hl, rfl⟩ := h
  rw [hl.count_eq]
  exact copyFirstIntoLoop_bytes [] hl hn dstp out

/-- Each of the four functions goes through. The bytes moved or written are the first `n` of `src`,
what is left of it is the rest, and `dst` keeps its bytes before the new ones. -/
theorem moveFirst_moves {t t' : List UInt8} (hsrc : HoldsBytes mem src t)
    (hdst : HoldsBytes mem dst t') (hn : n ≤ t.length) (dstp : Nat) (out : Nat → UInt8) :
    (∃ src' dst', src.moveFirst mem n dst = some (src', dst') ∧
      HoldsBytes mem src' (t.drop n) ∧ HoldsBytes mem dst' (t' ++ t.take n)) ∧
    (∃ src' dst', src.moveFirstNoRef mem n dst = some (src', dst') ∧
      HoldsBytes mem src' (t.drop n) ∧ HoldsBytes mem dst' (t' ++ t.take n)) ∧
    (∃ src', src.moveFirstIntoBuffer mem n dstp out = some (src', memcpy out dstp (t.take n)) ∧
      HoldsBytes mem src' (t.drop n)) ∧
    src.copyFirstIntoBuffer mem n dstp out = some (memcpy out dstp (t.take n)) := by
  have hlength : n ≤ src.length := by rwa [hsrc.length_eq]
  have hmove (incref : Bool) : ∃ src' dst', moveFirstMaybeRef mem incref src n dst =
      some (src', dst') ∧ Moved mem t t' n (src', dst') := by
    obtain ⟨⟨src', dst'⟩, hmoved⟩ := moveFirstMaybeRef_moved incref hsrc hdst hlength
    exact ⟨src', dst', hmoved⟩
  exact ⟨hmove true, hmove false, moveFirstIntoBuffer_bytes hsrc hn dstp out,
    copyFirstIntoBuffer_bytes hsrc hn dstp out⟩

/-- Two bytes of an inlined slice and one of a slice in memory, behind an empty slice. -/
theorem moveFirst_moves_of_three_slices :
    ∃ src src' dst', ([.refcounted .noop 0 0, .inlined ⟨[1, 2], by decide⟩,
        .refcounted (.counted 0) 5 40].foldlM add ({} : SliceBuffer)) = some src ∧
      src.moveFirst (fun a => .ofNat a) 3 {} = some (src', dst') ∧
      HoldsBytes (fun a => .ofNat a) src' ((range' 6 39).map fun a => .ofNat a) ∧
      HoldsBytes (fun a => .ofNat a) dst' [1, 2, 5] := by
  have hempty : HoldsBytes (fun a => .ofNat a) {} [] := ⟨[], represents_init, rfl⟩
  obtain ⟨src₁, h₁, hb₁⟩ := add_bytes hempty (.refcounted .noop 0 0)
  obtain ⟨src₂, h₂, hb₂⟩ := add_bytes hb₁ (.inlined ⟨[1, 2], by decide⟩)
  obtain ⟨src, h₃, hb⟩ := add_bytes hb₂ (.refcounted (.counted 0) 5 40)
  obtain ⟨⟨src', dst', hmove, hsrc', hdst'⟩, -⟩ := moveFirst_moves (n := 3) hb hempty
    (by decide) 0 (fun _ => 0)
  refine ⟨src, src', dst', ?_, hmove, hsrc', hdst'⟩
  simp [foldlM, h₁, h₂, h₃]

end SliceBuffer

end GrpcCore
