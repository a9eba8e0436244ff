import GrpcCore.Slice.SliceBuffer
import Mathlib.Data.List.Induction

/-!
# Slice buffers are sequences of bytes

A buffer that holds the slices `l` (`Represents`) has them in the slots from `offset` on, and all
its slots are in the array. Every operation on the buffer is an operation on the list of slices, and
this one an operation on the bytes: adding a slice may merge it with the last one, which the bytes
do not show. `tiny_add` on an empty buffer does not look where `slices` points, which is behind the
array when all of its slots were taken from the front; `trim_end` does not look whether there is a
slice (`Safe`).
-/

namespace GrpcCore

open List Option Run Slice Buffer

/-! ## Slices -/

namespace Slice

variable {mem : Nat → UInt8} {s head tail : Slice} {data : List UInt8} {n : Nat}

@[simp] theorem length_bytes (mem : Nat → UInt8) (s : Slice) : (s.bytes mem).length = s.length := by
  cases s with
  | inlined b => rfl
  | refcounted rc start n => simp [bytes, length]

@[simp] theorem bytes_inlined (mem : Nat → UInt8)
    (b : { l : List UInt8 // l.length ≤ inlinedSize }) : (inlined b).bytes mem = b.1 := rfl

theorem ofBytes_returns (mem : Nat → UInt8) (h : data.length ≤ inlinedSize) :
    Returns (ofBytes data) (·.bytes mem = data) :=
  ⟨_, dif_pos h, rfl⟩

/-- A split goes through inside the slice, and the bytes of the parts are those of the slice. -/
structure Splits (mem : Nat → UInt8) (s : Slice) (n : Nat) (head tail : Slice) : Prop where
  bytes_head : head.bytes mem = (s.bytes mem).take n
  bytes_tail : tail.bytes mem = (s.bytes mem).drop n

theorem splits_inlined (mem : Nat → UInt8) (b : { l : List UInt8 // l.length ≤ inlinedSize })
    (n : Nat) : Returns (do some (← ofBytes (b.1.take n), ← ofBytes (b.1.drop n)))
      fun parts => Splits mem (inlined b) n parts.1 parts.2 := by
  have hb := b.2
  refine (ofBytes_returns mem ?_).bind fun head hhead =>
    (ofBytes_returns mem ?_).bind fun tail htail => ⟨_, rfl, hhead, htail⟩
  · rw [length_take]
    omega
  · rw [length_drop]
    omega

theorem splits_refcounted {rc : Refcount} {start len : Nat} (h : n ≤ len)
    (hhead : head.bytes mem = (range' start n).map mem)
    (htail : tail.bytes mem = (range' (start + n) (len - n)).map mem) :
    Splits mem (refcounted rc start len) n head tail := by
  obtain ⟨m, rfl⟩ := Nat.exists_eq_add_of_le h
  rw [Nat.add_sub_cancel_left] at htail
  have hsplit : (refcounted rc start (n + m)).bytes mem =
      (range' start n).map mem ++ (range' (start + n) m).map mem := by
    rw [bytes, ← range'_append, Nat.one_mul, map_append]
  have hlen : ((range' start n).map mem).length = n := by simp
  constructor
  · rw [hhead, hsplit, take_left' hlen]
  · rw [htail, hsplit, drop_left' hlen]

theorem splitHead_splits (mem : Nat → UInt8) (h : n ≤ s.length) :
    Returns (s.splitHead mem n) fun parts => Splits mem s n parts.1 parts.2 := by
  cases s with
  | inlined b =>
    rw [length] at h
    rw [splitHead, if_pos h]
    exact splits_inlined mem b n
  | refcounted rc start len =>
    rw [length] at h
    rw [splitHead, if_pos h]
    split_ifs with hsmall
    · refine (ofBytes_returns mem ?_).bind fun head hhead => ⟨_, rfl, splits_refcounted h hhead rfl⟩
      rw [length_map, length_range']
      omega
    · exact ⟨_, rfl, splits_refcounted h rfl rfl⟩

theorem splitTailMaybeRef_splits (mem : Nat → UInt8) (whom : RefWhom) (h : n ≤ s.length) :
    Returns (s.splitTailMaybeRef mem n whom) fun parts => Splits mem s n parts.1 parts.2 := by
  cases s with
  | inlined b =>
    rw [length] at h
    rw [splitTailMaybeRef, if_pos h]
    exact splits_inlined mem b n
  | refcounted rc start len =>
    rw [length] at h
    cases rc with
    | noop => exact ⟨_, rfl, splits_refcounted h rfl rfl⟩
    | counted id =>
      rw [splitTailMaybeRef, if_pos h]
      by_cases hsmall : len - n < inlinedSize ∧ whom ≠ .tail
      · rw [if_pos hsmall]
        refine (ofBytes_returns mem ?_).bind fun tail htail =>
          ⟨_, rfl, splits_refcounted h rfl htail⟩
        rw [length_map, length_range']
        omega
      · rw [if_neg hsmall]
        exact ⟨_, rfl, splits_refcounted h rfl rfl⟩

theorem Splits.length_head (h : Splits mem s n head tail) (hn : n ≤ s.length) :
    head.length = n := by
  rw [← length_bytes mem, h.bytes_head, length_take, length_bytes, Nat.min_eq_left hn]

end Slice

/-! ## Slots -/

namespace SliceBuffer

/-- The slots from `offset` on hold the slices, and the array is as large as `capacity` says. -/
structure Layout (sb : SliceBuffer) (l : List Slice) : Prop where
  holds : sb.base.Holds sb.offset l
  room : sb.offset + l.length ≤ sb.capacity
  size_base : sb.base.size = sb.capacity
  size_inlined : sb.inlined.size = inlineElements
  le_capacity : inlineElements ≤ sb.capacity

structure Represents (sb : SliceBuffer) (l : List Slice) : Prop extends Layout sb l where
  count_eq : sb.count = l.length
  length_eq : sb.length = (l.map Slice.length).sum

variable {sb sb' : SliceBuffer} {l : List Slice} {s : Slice} {i : Nat} {b : Buffer Slice}

theorem represents_init : Represents {} [] where
  holds := holds_nil
  room := Nat.zero_le _
  size_base := size_malloc
  size_inlined := size_malloc
  le_capacity := Nat.le_refl _
  count_eq := rfl
  length_eq := rfl

theorem Layout.read (h : Layout sb l) (hi : i < l.length) : sb.read i = some l[i] := by
  rw [SliceBuffer.read, h.holds i hi, getElem?_eq_getElem hi]

@[simp] theorem base_setBase : (sb.setBase b).base = b := by
  unfold setBase base
  cases sb.heap <;> rfl

/-- What a change to the slots leaves alone. -/
structure SameFields (sb sb' : SliceBuffer) : Prop where
  offset : sb'.offset = sb.offset
  count : sb'.count = sb.count
  capacity : sb'.capacity = sb.capacity
  length : sb'.length = sb.length

theorem sameFields_setBase (sb : SliceBuffer) (b : Buffer Slice) :
    SameFields sb (sb.setBase b) := by
  unfold setBase
  cases sb.heap <;> exact ⟨rfl, rfl, rfl, rfl⟩

theorem size_inlined_setBase (hb : b.size = sb.base.size)
    (h : sb.inlined.size = inlineElements) : (sb.setBase b).inlined.size = inlineElements := by
  unfold setBase
  unfold base at hb
  cases hheap : sb.heap with
  | none =>
    rw [hheap] at hb
    exact hb.trans h
  | some heap => exact h

variable {l' l₀ : List Slice} {k n : Nat} {back : Slice} {dst src : SliceBuffer}
  {bs t' t₀ : List UInt8} {garbage : Option SliceBuffer}

theorem Layout.setBase (h : Layout sb l) (hb : b.size = sb.base.size)
    (hholds : b.Holds sb.offset l') (hroom : sb.offset + l'.length ≤ sb.capacity) :
    Layout (sb.setBase b) l' := by
  have hsame := sameFields_setBase sb b
  constructor
  · rwa [base_setBase, hsame.offset]
  · rwa [hsame.offset, hsame.capacity]
  · rw [base_setBase, hsame.capacity, hb, h.size_base]
  · exact size_inlined_setBase hb h.size_inlined
  · rw [hsame.capacity]
    exact h.le_capacity

theorem Layout.write_push (h : Layout sb l) (hroom : sb.offset + l.length < sb.capacity)
    (s : Slice) :
    Returns (sb.write l.length s) fun sb' => Layout sb' (l ++ [s]) ∧ SameFields sb sb' := by
  obtain ⟨b, hb⟩ := exists_write (b := sb.base) (i := sb.offset + l.length)
    (by rw [h.size_base]; exact hroom) s
  refine ⟨_, by rw [SliceBuffer.write, hb, map_some], ?_, sameFields_setBase sb b⟩
  exact h.setBase (size_of_write hb) (h.holds.push hb)
    (by rw [length_append, length_singleton]; omega)

theorem Layout.of_append (h : Layout sb (l ++ l')) : Layout sb l where
  holds := h.holds.take_append
  room := by
    have hroom := h.room
    rw [length_append] at hroom
    omega
  size_base := h.size_base
  size_inlined := h.size_inlined
  le_capacity := h.le_capacity

theorem Layout.write_back (h : Layout sb (l₀ ++ [back])) (s : Slice) :
    Returns (sb.write l₀.length s) fun sb' => Layout sb' (l₀ ++ [s]) ∧ SameFields sb sb' := by
  have hroom := h.room
  rw [length_append, length_singleton] at hroom
  exact h.of_append.write_push (by omega) s

theorem Layout.empty (h : Layout sb l) (i : Nat) (hi : i ≤ sb.capacity) :
    Layout { sb with offset := i } [] where
  holds := holds_nil
  room := hi
  size_base := h.size_base
  size_inlined := h.size_inlined
  le_capacity := h.le_capacity

theorem Layout.grow (h : Layout sb l) (hoffset : sb.offset = 0) (hholds : b.Holds 0 l)
    (hsize : b.size = k) (hgrow : sb.capacity < k) :
    Layout { sb with heap := some b, capacity := k } l where
  holds := hoffset ▸ hholds
  room := Nat.le_trans h.room (Nat.le_of_lt hgrow)
  size_base := hsize
  size_inlined := h.size_inlined
  le_capacity := Nat.le_trans h.le_capacity (Nat.le_of_lt hgrow)

/-- The buffer has the same slices, and a slot behind them. -/
structure Roomy (sb : SliceBuffer) (l : List Slice) (sb' : SliceBuffer) : Prop
    extends Layout sb' l where
  count : sb'.count = sb.count
  length : sb'.length = sb.length
  free : sb'.offset + l.length < sb'.capacity

theorem doEmbiggen_roomy (h : Layout sb l) (hcount : sb.count = l.length)
    (hfull : sb.count + sb.offset = sb.capacity) :
    Returns (sb.doEmbiggen (sb.count + sb.offset) sb.offset) (Roomy sb l) := by
  have hsize := h.size_base
  have hcap := h.le_capacity
  have hgrow : sb.capacity < 3 * sb.capacity / 2 := by
    have : inlineElements = 8 := rfl
    omega
  have hroom : sb.offset + l.length < 3 * sb.capacity / 2 := by omega
  unfold doEmbiggen
  by_cases hoffset : sb.offset = 0
  · rw [if_neg (not_not_intro hoffset)]
    have hholds := h.holds
    rw [hoffset] at hholds
    cases hheap : sb.heap with
    | none =>
      have hbase : sb.base = sb.inlined := by rw [base, hheap, getD_none]
      rw [hbase] at hholds hsize
      obtain ⟨b, hb⟩ : ∃ b, (malloc (3 * sb.capacity / 2)).copy 0 sb.inlined 0
          (sb.count + sb.offset) = some b :=
        exists_copy (by rw [size_malloc]; omega) (by omega)
      have hsize' := (size_of_copy hb).trans size_malloc
      dsimp only
      rw [hb]
      exact ⟨_, rfl, h.grow hoffset (hholds.copy (d := 0) hb (by omega)) hsize' hgrow, rfl, rfl,
        hroom⟩
    | some heap =>
      have hbase : sb.base = heap := by rw [base, hheap, getD_some]
      rw [hbase] at hholds hsize
      have hholds' := hholds.realloc (n := 3 * sb.capacity / 2) (by omega) (by omega)
      exact ⟨_, rfl, h.grow hoffset hholds' (size_realloc (by omega)) hgrow, rfl, rfl,
        hroom⟩
  · rw [if_pos hoffset]
    obtain ⟨b, hb⟩ : ∃ b, sb.base.copy 0 sb.base sb.offset sb.count = some b :=
      exists_copy (by omega) (by omega)
    have hsame := sameFields_setBase sb b
    have hmoved : { sb.setBase b with offset := 0 } =
        SliceBuffer.setBase { sb with offset := 0 } b := by
      unfold setBase
      cases sb.heap <;> rfl
    rw [hb, map_some, hmoved]
    have hsame := sameFields_setBase { sb with offset := 0 } b
    refine ⟨_, rfl, ?_, hsame.count, hsame.length, ?_⟩
    · exact (h.empty 0 (Nat.zero_le _)).setBase (size_of_copy hb)
        (h.holds.copy (d := 0) hb (by omega)) (by show 0 + l.length ≤ sb.capacity; omega)
    · rw [hsame.offset, hsame.capacity]
      show 0 + l.length < sb.capacity
      omega

theorem maybeEmbiggen_roomy (h : Layout sb l) (hcount : sb.count = l.length) :
    Returns sb.maybeEmbiggen (Roomy sb l) := by
  have hroom := h.room
  have hcap : 8 ≤ sb.capacity := h.le_capacity
  unfold maybeEmbiggen
  by_cases hzero : sb.count = 0
  · obtain rfl : l = [] := eq_nil_of_length_eq_zero (by omega)
    rw [if_pos hzero]
    exact ⟨_, rfl, h.empty 0 (Nat.zero_le _), rfl, rfl, by show 0 + 0 < sb.capacity; omega⟩
  · rw [if_neg hzero]
    dsimp only
    split_ifs with hfull
    · exact doEmbiggen_roomy h hcount hfull
    · exact ⟨sb, rfl, h, rfl, rfl, by omega⟩

/-! ## Operations on one buffer -/

variable {mem : Nat → UInt8} {t data : List UInt8}

/-- The buffer holds slices with these bytes. -/
def HoldsBytes (mem : Nat → UInt8) (sb : SliceBuffer) (t : List UInt8) : Prop :=
  ∃ l, Represents sb l ∧ l.flatMap (Slice.bytes mem) = t

theorem sum_length (mem : Nat → UInt8) (l : List Slice) :
    (l.map Slice.length).sum = (l.flatMap (Slice.bytes mem)).length := by
  rw [length_flatMap]
  exact congrArg List.sum (map_congr_left fun s _ => (s.length_bytes mem).symm)

theorem Layout.withCounts (h : Layout sb l) (n k : Nat) :
    Layout { sb with count := n, length := k } l :=
  ⟨h.holds, h.room, h.size_base, h.size_inlined, h.le_capacity⟩

theorem Layout.represents (h : Layout sb l) (hn : n = l.length)
    (hk : k = (l.map Slice.length).sum) : Represents { sb with count := n, length := k } l where
  toLayout := h.withCounts n k
  count_eq := hn
  length_eq := hk

theorem Layout.holdsBytes (h : Layout sb l) (hn : n = l.length)
    (ht : l.flatMap (Slice.bytes mem) = t) (hk : k = t.length) :
    HoldsBytes mem { sb with count := n, length := k } t :=
  ⟨l, h.represents hn (by rw [hk, ← ht, sum_length mem]), ht⟩

theorem addIndexed_bytes (h : HoldsBytes mem sb t) (s : Slice) :
    Returns (sb.addIndexed s) (HoldsBytes mem · (t ++ s.bytes mem)) := by
  obtain ⟨l, hl, rfl⟩ := h
  refine (maybeEmbiggen_roomy hl.toLayout hl.count_eq).bind fun sb₁ h₁ => ?_
  rw [hl.count_eq]
  refine (h₁.write_push h₁.free s).bind fun sb₂ ⟨h₂, hsame⟩ => ⟨_, rfl, h₂.holdsBytes ?_ ?_ ?_⟩
  · rw [length_append, length_singleton]
  · rw [flatMap_append, flatMap_singleton]
  · rw [hsame.length, h₁.length, hl.length_eq, sum_length mem, length_append, Slice.length_bytes]

theorem Represents.exists_back (h : Represents sb l) (hne : sb.count ≠ 0) :
    ∃ l₀ back, l = l₀ ++ [back] ∧ sb.count - 1 = l₀.length ∧
      sb.read (sb.count - 1) = some back := by
  obtain rfl | ⟨l₀, back, rfl⟩ := l.eq_nil_or_concat'
  · exact absurd h.count_eq hne
  · have hcount : sb.count - 1 = l₀.length := by
      rw [h.count_eq, length_append, length_singleton, Nat.add_sub_cancel]
    refine ⟨l₀, back, rfl, hcount, ?_⟩
    rw [hcount, h.read (by simp)]
    simp

/-- The last slice is replaced by one with more bytes. -/
theorem Layout.merge_back (h : Layout sb (l₀ ++ [back])) (hcount : sb.count = (l₀ ++ [back]).length)
    (hs : s.bytes mem = back.bytes mem ++ data)
    (hk : k = ((l₀ ++ [back]).flatMap (Slice.bytes mem) ++ data).length) :
    Returns (sb.write l₀.length s) fun sb' => sb'.length = sb.length ∧
      HoldsBytes mem { sb' with length := k }
        ((l₀ ++ [back]).flatMap (Slice.bytes mem) ++ data) := by
  obtain ⟨sb', h', hlayout, hsame⟩ := h.write_back s
  refine ⟨sb', h', hsame.length, hlayout.holdsBytes ?_ ?_ hk⟩
  · rw [hsame.count, hcount, length_append, length_append]
    rfl
  · rw [flatMap_append, flatMap_append, flatMap_singleton, flatMap_singleton, hs, append_assoc]

theorem bytes_refcounted_add (mem : Nat → UInt8) (rc : Refcount) (start n n' : Nat) :
    (refcounted rc start (n + n')).bytes mem =
      (refcounted rc start n).bytes mem ++
        (refcounted rc (start + n) n').bytes mem := by
  rw [Slice.bytes, Slice.bytes, Slice.bytes, ← range'_append, Nat.one_mul, map_append]

/-- `add` adds the bytes of the slice, whether it is merged with the last one or not. -/
theorem add_bytes (h : HoldsBytes mem sb t) (s : Slice) :
    Returns (sb.add s) (HoldsBytes mem · (t ++ s.bytes mem)) := by
  have hindexed := addIndexed_bytes h s
  obtain ⟨l, hl, rfl⟩ := h
  have hlength : sb.length = (l.flatMap (Slice.bytes mem)).length := by
    rw [hl.length_eq, sum_length mem]
  unfold add
  dsimp only
  by_cases hzero : sb.count = 0
  · rwa [if_pos hzero]
  obtain ⟨l₀, back, rfl, hlast, hread⟩ := hl.exists_back hzero
  rw [if_neg hzero, hread, hlast]
  cases back with
  | refcounted rc start n =>
    cases s with
    | inlined new => exact hindexed
    | refcounted rc' start' n' =>
      dsimp only
      split_ifs with hmerge
      · obtain ⟨rfl, rfl⟩ := hmerge
        refine (hl.merge_back hl.count_eq (bytes_refcounted_add mem rc' start n n') rfl).bind
          fun sb' ⟨hsame, hbytes⟩ => ⟨_, rfl, ?_⟩
        rw [length_append, ← hlength, ← hsame, Slice.length_bytes] at hbytes
        exact hbytes
      · exact hindexed
  | inlined b =>
    cases s with
    | refcounted rc' start' n' => exact hindexed
    | inlined new =>
      dsimp only
      split_ifs with hspace hfits
      · -- both fit into the last slice
        have hlen : (b.1 ++ new.1).length ≤ inlinedSize := by
          rw [length_append]
          omega
        refine (ofBytes_returns mem hlen).bind fun s hs =>
          (hl.merge_back hl.count_eq hs rfl).bind fun sb' ⟨hsame, hbytes⟩ => ⟨_, rfl, ?_⟩
        rwa [length_append, ← hlength, ← hsame] at hbytes
      · -- the last slice is filled, and the rest goes into a slice of its own
        have hnew := new.2
        have hfill : (b.1 ++ new.1.take (inlinedSize - b.1.length)).length ≤ inlinedSize := by
          rw [length_append, length_take]
          omega
        have hrest : (new.1.drop (inlinedSize - b.1.length)).length ≤ inlinedSize := by
          rw [length_drop]
          omega
        refine (ofBytes_returns mem hfill).bind fun s₁ hs₁ =>
          (hl.write_back s₁).bind fun sb₁ ⟨h₁, hsame₁⟩ => ?_
        have hcount : sb.count = (l₀ ++ [s₁]).length := by
          rw [hl.count_eq, length_append, length_append]
          rfl
        refine (maybeEmbiggen_roomy h₁ (hsame₁.count.trans hcount)).bind fun sb₂ h₂ =>
          (ofBytes_returns mem hrest).bind fun s₂ hs₂ => ?_
        rw [hcount]
        refine (h₂.write_push h₂.free s₂).bind fun sb₃ ⟨h₃, hsame₃⟩ =>
          ⟨_, rfl, h₃.holdsBytes ?_ ?_ ?_⟩
        · rw [length_append, length_append, length_append]
          rfl
        · simp [hs₁, hs₂]
        · rw [hsame₃.length, h₂.length, hsame₁.length, hlength, length_append]
          rfl
      · exact hindexed

theorem addn_bytes (h : HoldsBytes mem sb t) (l : List Slice) :
    Returns (sb.addn l) (HoldsBytes mem · (t ++ l.flatMap (Slice.bytes mem))) := by
  induction l generalizing sb t with
  | nil => exact ⟨sb, rfl, by simpa using h⟩
  | cons s l ih =>
    refine (add_bytes h s).bind fun sb₁ h₁ => ?_
    rw [flatMap_cons, ← append_assoc]
    exact ih h₁

theorem addFirst_bytes (h : Layout sb l) (hcount : sb.count = l.length)
    (hroom : sb.offset + l.length < sb.capacity) (hdata : data.length ≤ inlinedSize)
    (hlength : sb.length = (l.flatMap (Slice.bytes mem)).length + data.length) :
    Returns (sb.addFirst data) (HoldsBytes mem · (l.flatMap (Slice.bytes mem) ++ data)) := by
  refine (ofBytes_returns mem hdata).bind fun s hs => ?_
  rw [hcount]
  refine (h.write_push hroom s).bind fun sb₁ ⟨h₁, hsame⟩ => ⟨_, rfl, h₁.holdsBytes ?_ ?_ ?_⟩
  · rw [length_append, length_singleton]
  · rw [flatMap_append, flatMap_singleton, hs]
  · rw [hsame.length, hlength, length_append]

/-- `tiny_add` writes the bytes into the last slice or into a new one. On an empty buffer it writes
where `slices` points. -/
theorem tinyAdd_bytes (h : HoldsBytes mem sb t) (hdata : data.length ≤ inlinedSize)
    (hslot : sb.count ≠ 0 ∨ sb.offset < sb.capacity) :
    Returns (sb.tinyAdd data) (HoldsBytes mem · (t ++ data)) := by
  obtain ⟨l, hl, rfl⟩ := h
  have hlayout : Layout { sb with length := sb.length + data.length } l :=
    hl.withCounts sb.count (sb.length + data.length)
  have hlength : sb.length + data.length = (l.flatMap (Slice.bytes mem)).length + data.length := by
    rw [hl.length_eq, sum_length mem]
  have hnew : Returns ((maybeEmbiggen { sb with length := sb.length + data.length }).bind
      fun sb => sb.addFirst data) (HoldsBytes mem · (l.flatMap (Slice.bytes mem) ++ data)) :=
    (maybeEmbiggen_roomy hlayout hl.count_eq).bind fun sb₁ h₁ =>
      addFirst_bytes h₁.toLayout (h₁.count.trans hl.count_eq) h₁.free hdata
        (h₁.length.trans hlength)
  unfold tinyAdd
  dsimp only
  by_cases hzero : sb.count = 0
  · rw [if_pos hzero]
    have hoffset := hslot.resolve_left (not_not_intro hzero)
    have hnil : l.length = 0 := by rw [← hl.count_eq, hzero]
    refine addFirst_bytes hlayout hl.count_eq ?_ hdata hlength
    show sb.offset + l.length < sb.capacity
    omega
  · obtain ⟨l₀, back, rfl, hlast, hread⟩ := hl.exists_back hzero
    have hread' : SliceBuffer.read { sb with length := sb.length + data.length } (sb.count - 1) =
      some back := hread
    rw [if_neg hzero, hread']
    cases back with
    | refcounted rc start n => exact hnew
    | inlined b =>
      dsimp only
      split_ifs with hfull
      · exact hnew
      · have hlen : (b.1 ++ data).length ≤ inlinedSize := by
          rw [length_append]
          omega
        refine (ofBytes_returns mem hlen).bind fun s hs => ?_
        rw [hlast]
        obtain ⟨sb₁, h₁, hsame, hbytes⟩ := hlayout.merge_back hl.count_eq hs rfl
        rw [length_append, ← hlength, ← show sb₁.length = sb.length + data.length from hsame]
          at hbytes
        exact ⟨sb₁, h₁, hbytes⟩

theorem pop_represents (h : Represents sb l) : Returns sb.pop (Represents · l.dropLast) := by
  unfold pop
  by_cases hzero : sb.count = 0
  · rw [if_neg (not_not_intro hzero)]
    obtain rfl : l = [] := eq_nil_of_length_eq_zero (by rw [← h.count_eq, hzero])
    exact ⟨sb, rfl, h⟩
  · obtain ⟨l₀, back, rfl, hlast, hread⟩ := h.exists_back hzero
    rw [if_pos hzero, hread, dropLast_concat]
    refine ⟨_, rfl, h.of_append.represents hlast ?_⟩
    rw [h.length_eq, map_append, sum_append, map_singleton, sum_singleton, Nat.add_sub_cancel]

theorem mapM_range' {f : Nat → Option Slice} (h : ∀ j (hj : j < l.length),
    f (k + j) = some l[j]) : (range' k l.length).mapM f = some l := by
  induction l generalizing k with
  | nil => rfl
  | cons s l ih =>
    have hhead : f k = some s := h 0 (Nat.succ_pos _)
    have htail : (range' (k + 1) l.length).mapM f = some l := by
      refine ih fun j hj => ?_
      rw [Nat.add_right_comm, Nat.add_assoc]
      exact h (j + 1) (Nat.succ_lt_succ hj)
    rw [length_cons, range'_succ, mapM_cons, hhead, bind_eq_bind, bind_some,
      htail]
    rfl

theorem Represents.readAll (h : Represents sb l) : sb.readAll = some l := by
  rw [SliceBuffer.readAll, range_eq_range', h.count_eq]
  exact mapM_range' fun j hj => by rw [Nat.zero_add]; exact h.read hj

theorem Represents.slices (h : Represents sb l) : sb.slices = l := by
  rw [SliceBuffer.slices, h.readAll, getD_some]

theorem resetAndUnref_represents (h : Represents sb l) :
    Returns sb.resetAndUnref (Represents · []) := by
  rw [resetAndUnref, h.readAll]
  exact ⟨_, rfl, (h.empty 0 (Nat.zero_le _)).represents rfl rfl⟩

theorem takeFirst_represents (h : Represents sb (s :: l)) :
    ∃ sb', sb.takeFirst = some (sb', s) ∧ Represents sb' l ∧ 0 < sb'.offset := by
  have hcount : sb.count = l.length + 1 := h.count_eq
  have hroom : sb.offset + (l.length + 1) ≤ sb.capacity := h.room
  have hread : sb.read 0 = some s := h.read (i := 0) (Nat.succ_pos _)
  rw [takeFirst, if_pos (by omega), hread]
  refine ⟨_, rfl, ⟨⟨h.holds.tail, ?_, h.size_base, h.size_inlined, h.le_capacity⟩, ?_, ?_⟩, ?_⟩
  · show sb.offset + 1 + l.length ≤ sb.capacity
    omega
  · show sb.count - 1 = l.length
    omega
  · show sb.length - s.length = _
    rw [h.length_eq, map_cons, sum_cons, Nat.add_sub_cancel_left]
  · exact Nat.succ_pos _

/-- `remove_first` does what `take_first` does, and an empty buffer begins at its first slot
again. -/
theorem removeFirst_represents (h : Represents sb (s :: l)) :
    Returns sb.removeFirst (Represents · l) := by
  have hcount : sb.count = l.length + 1 := h.count_eq
  obtain ⟨sb', htake, hsb', -⟩ := takeFirst_represents h
  have hread : sb.read 0 = some s := h.read (i := 0) (Nat.succ_pos _)
  rw [takeFirst, if_pos (by omega), hread, map_some] at htake
  obtain ⟨rfl, -⟩ := Prod.mk.inj (some.inj htake)
  rw [removeFirst, if_pos (by omega), hread, map_some]
  by_cases hlast : sb.count - 1 = 0
  · obtain rfl : l = [] := eq_nil_of_length_eq_zero (by omega)
    rw [if_pos hlast]
    exact ⟨_, rfl, (hsb'.empty 0 (Nat.zero_le _)).represents hsb'.count_eq hsb'.length_eq⟩
  · rw [if_neg hlast]
    exact ⟨_, rfl, hsb'⟩

theorem undoTakeFirst_represents (h : Represents sb l) (hoffset : 0 < sb.offset) (s : Slice) :
    Returns (sb.undoTakeFirst s) (Represents · (s :: l)) := by
  have hroom := h.room
  have hholds := h.holds
  obtain ⟨k, hk⟩ : ∃ k, sb.offset = k + 1 := ⟨sb.offset - 1, by omega⟩
  obtain ⟨b, hb⟩ := exists_write (b := sb.base) (i := k) (by rw [h.size_base]; omega) s
  have hsame := sameFields_setBase { sb with offset := k } b
  have hwrite : SliceBuffer.write { sb with offset := k } 0 s =
      some (SliceBuffer.setBase { sb with offset := k } b) := by
    rw [SliceBuffer.write]
    exact congrArg (Option.map _) hb
  rw [hk] at hholds
  have hlayout : Layout (SliceBuffer.setBase { sb with offset := k } b) (s :: l) :=
    (h.empty k (by omega)).setBase (size_of_write hb)
      ((hholds.write_before (Nat.lt_succ_self k) hb).cons (read_written hb))
      (by show k + (l.length + 1) ≤ sb.capacity; omega)
  rw [undoTakeFirst, if_neg (by omega), hk, Nat.add_sub_cancel, hwrite]
  refine ⟨_, rfl, hlayout.represents ?_ ?_⟩
  · rw [hsame.count, length_cons]
    exact congrArg (· + 1) h.count_eq
  · rw [hsame.length, map_cons, sum_cons, Nat.add_comm s.length]
    exact congrArg (· + s.length) h.length_eq

theorem withFieldsOf_represents (h : Represents sb' l) (hsize : sb.base.size = sb'.capacity)
    (hholds : sb.base.Holds sb'.offset l) (hinlined : sb.inlined.size = inlineElements) :
    Represents (sb.withFieldsOf sb') l where
  holds := hholds
  room := h.room
  size_base := hsize
  size_inlined := hinlined
  le_capacity := h.le_capacity
  count_eq := h.count_eq
  length_eq := h.length_eq

theorem copy_inlined {dst src : Buffer Slice} (hdst : dst.size = inlineElements)
    (hsrc : src.size = inlineElements) (hholds : src.Holds i l)
    (hroom : i + l.length ≤ inlineElements) :
    Returns (dst.copy 0 src 0 (l.length + i)) fun b => b.size = inlineElements ∧ b.Holds i l := by
  obtain ⟨b, hb⟩ : ∃ b, dst.copy 0 src 0 (l.length + i) = some b :=
    exists_copy (by omega) (by omega)
  rw [← Nat.zero_add i] at hholds
  have hcopied := hholds.copy hb (by omega)
  rw [Nat.zero_add] at hcopied
  exact ⟨b, hb, (size_of_copy hb).trans hdst, hcopied⟩

theorem Represents.inlined (h : Represents sb l) (hheap : sb.heap = none) :
    sb.capacity = inlineElements ∧ sb.inlined.Holds sb.offset l ∧
      sb.offset + l.length ≤ inlineElements := by
  have hbase : sb.base = sb.inlined := by rw [base, hheap, getD_none]
  have hcapacity : sb.capacity = inlineElements := by
    rw [← h.size_base, hbase, h.size_inlined]
  refine ⟨hcapacity, ?_, ?_⟩
  · rw [← hbase]
    exact h.holds
  · rw [← hcapacity]
    exact h.room

theorem Represents.heap {heap : Buffer Slice} (h : Represents sb l) (hheap : sb.heap = some heap) :
    heap.size = sb.capacity ∧ heap.Holds sb.offset l := by
  have hbase : sb.base = heap := by rw [base, hheap, getD_some]
  rw [← hbase]
  exact ⟨h.size_base, h.holds⟩

/-- `swap` has a case for each of the two places of the slices of each buffer. -/
theorem swap_represents {a b : SliceBuffer} {la lb : List Slice} (ha : Represents a la)
    (hb : Represents b lb) :
    Returns (a.swap b) fun r => Represents r.1 lb ∧ Represents r.2 la := by
  have hai := ha.size_inlined
  have hbi := hb.size_inlined
  rw [swap, ha.count_eq, hb.count_eq]
  cases haheap : a.heap with
  | none =>
    obtain ⟨hacapacity, haholds, haroom⟩ := ha.inlined haheap
    cases hbheap : b.heap with
    | none =>
      obtain ⟨hbcapacity, hbholds, hbroom⟩ := hb.inlined hbheap
      exact (copy_inlined size_malloc hai haholds haroom).bind fun temp ht =>
        (copy_inlined hai hbi hbholds hbroom).bind fun a' ha' =>
        (copy_inlined hbi ht.1 ht.2 haroom).bind fun b' hb' =>
        ⟨_, rfl, withFieldsOf_represents hb (ha'.1.trans hbcapacity.symm) ha'.2 ha'.1,
          withFieldsOf_represents ha (hb'.1.trans hacapacity.symm) hb'.2 hb'.1⟩
    | some heap =>
      obtain ⟨hbsize, hbholds⟩ := hb.heap hbheap
      exact (copy_inlined hbi hai haholds haroom).bind fun b' hb' =>
        ⟨_, rfl, withFieldsOf_represents hb hbsize hbholds hai,
          withFieldsOf_represents ha (hb'.1.trans hacapacity.symm) hb'.2 hb'.1⟩
  | some heap =>
    obtain ⟨hasize, haholds⟩ := ha.heap haheap
    cases hbheap : b.heap with
    | none =>
      obtain ⟨hbcapacity, hbholds, hbroom⟩ := hb.inlined hbheap
      exact (copy_inlined hai hbi hbholds hbroom).bind fun a' ha' =>
        ⟨_, rfl, withFieldsOf_represents hb (ha'.1.trans hbcapacity.symm) ha'.2 ha'.1,
          withFieldsOf_represents ha hasize haholds hbi⟩
    | some heap' =>
      obtain ⟨hbsize, hbholds⟩ := hb.heap hbheap
      exact ⟨_, rfl, withFieldsOf_represents hb hbsize hbholds hai,
        withFieldsOf_represents ha hasize haholds hbi⟩

theorem HoldsBytes.length_eq (h : HoldsBytes mem sb t) : sb.length = t.length := by
  obtain ⟨l, hl, rfl⟩ := h
  rw [hl.length_eq, sum_length mem]

theorem HoldsBytes.of_count_eq_zero (h : HoldsBytes mem sb t) (hcount : sb.count = 0) : t = [] := by
  obtain ⟨l, hl, rfl⟩ := h
  obtain rfl : l = [] := eq_nil_of_length_eq_zero (by rw [← hl.count_eq, hcount])
  rfl

theorem moveInto_bytes (h : HoldsBytes mem src t) (h' : HoldsBytes mem dst t') :
    Returns (src.moveInto dst) fun r =>
      HoldsBytes mem r.1 [] ∧ HoldsBytes mem r.2 (t' ++ t) := by
  unfold moveInto
  by_cases hsrc : src.count = 0
  · rw [if_pos hsrc]
    obtain rfl := h.of_count_eq_zero hsrc
    exact ⟨_, rfl, h, by rwa [append_nil]⟩
  rw [if_neg hsrc]
  obtain ⟨l, hl, rfl⟩ := h
  by_cases hdst : dst.count = 0
  · rw [if_pos hdst]
    obtain rfl := h'.of_count_eq_zero hdst
    obtain ⟨l', hl', ht'⟩ := h'
    obtain ⟨r, hswap, hsrc', hdst'⟩ := swap_represents hl hl'
    exact ⟨r, hswap, ⟨l', hsrc', ht'⟩, l, hdst', rfl⟩
  rw [if_neg hdst, hl.readAll]
  refine (addn_bytes h' l).bind fun dst' hbytes => ⟨_, rfl, ⟨[], ?_, rfl⟩, hbytes⟩
  exact (hl.empty src.offset (Nat.le_trans (Nat.le_add_right _ _) hl.room)).represents rfl rfl

/-- `garbage`, if there is one, holds these bytes. -/
def GarbageHolds (mem : Nat → UInt8) (garbage : Option SliceBuffer) (t : List UInt8) : Prop :=
  ∀ g, garbage = some g → HoldsBytes mem g t

theorem addGarbage_bytes (h : GarbageHolds mem garbage t) (s : Slice) :
    Returns (addGarbage garbage s) fun garbage' => garbage'.isSome = garbage.isSome ∧
      GarbageHolds mem garbage' (t ++ s.bytes mem) := by
  cases garbage with
  | none => exact ⟨none, rfl, rfl, fun g hg => nomatch hg⟩
  | some g =>
    refine (addIndexed_bytes (h g rfl) s).map fun g' hbytes => ⟨rfl, ?_⟩
    rintro g'' ⟨⟩
    exact hbytes

open SliceBuffers (trimmed)

theorem take_sub_append (h : n ≤ bs.length) :
    (t₀ ++ bs).take ((t₀ ++ bs).length - n) = t₀ ++ bs.take (bs.length - n) := by
  rw [length_append, Nat.add_sub_assoc h, take_length_add_append]

theorem drop_sub_append (h : n ≤ bs.length) :
    (t₀ ++ bs).drop ((t₀ ++ bs).length - n) = bs.drop (bs.length - n) := by
  rw [length_append, Nat.add_sub_assoc h, drop_length_add_append]

theorem take_sub_append_of_le (h : bs.length ≤ n) :
    (t₀ ++ bs).take ((t₀ ++ bs).length - n) = t₀.take (t₀.length - (n - bs.length)) := by
  rw [take_append_of_le_length (by rw [length_append]; omega), length_append]
  congr 1
  omega

/-- What `trim_end` leaves of the slices `l`, and what it hands to `garbage`, which held `t`. -/
structure Trimmed (mem : Nat → UInt8) (l : List Slice) (n : Nat) (garbage : Option SliceBuffer)
    (t : List UInt8) (r : SliceBuffer × Option SliceBuffer) : Prop where
  left : HoldsBytes mem r.1 ((l.flatMap (Slice.bytes mem)).take
    ((l.flatMap (Slice.bytes mem)).length - n))
  isSome : r.2.isSome = garbage.isSome
  handed : GarbageHolds mem r.2 (t ++ trimmed (l.map Slice.length).reverse
    (l.flatMap (Slice.bytes mem)) n)

theorem Trimmed.concat {r : SliceBuffer × Option SliceBuffer}
    (hleft : HoldsBytes mem r.1 ((l.flatMap (Slice.bytes mem) ++ s.bytes mem).take
      ((l.flatMap (Slice.bytes mem) ++ s.bytes mem).length - n)))
    (hsome : r.2.isSome = garbage.isSome)
    (hhanded : GarbageHolds mem r.2 (t ++ trimmed (s.length :: (l.map Slice.length).reverse)
      (l.flatMap (Slice.bytes mem) ++ s.bytes mem) n)) :
    Trimmed mem (l ++ [s]) n garbage t r := by
  constructor
  · rwa [flatMap_append, flatMap_singleton]
  · exact hsome
  · rwa [map_append, map_singleton, reverse_append, reverse_singleton, singleton_append,
      flatMap_append, flatMap_singleton]

/-- The loop removes `n` bytes from the end; the length was lowered before. It never gets to the
slot before the first one: a slice that is shorter than `n` is not the only one left. -/
theorem trimEndLoop_trimmed (h : Layout sb l)
    (hlength : sb.length + n = (l.map Slice.length).sum) (hcount : sb.count = l.length)
    (hne : l ≠ []) (hgarbage : GarbageHolds mem garbage t) :
    Returns (trimEndLoop mem l.length sb n garbage) (Trimmed mem l n garbage t) := by
  induction l using reverseRecOn generalizing sb n garbage t with
  | nil => exact absurd rfl hne
  | append_singleton l s ih =>
    have hs := Slice.length_bytes mem s
    have hread : sb.read l.length = some s := by
      rw [h.read (i := l.length) (by simp), getElem_concat_length rfl]
    rw [length_append, length_singleton] at hcount ⊢
    rw [trimEndLoop, hread, bind_eq_bind, bind_some]
    rw [map_append, map_singleton, sum_append, sum_singleton] at hlength
    by_cases hlt : n < s.length
    · rw [if_pos hlt]
      refine (splitHead_splits mem (Nat.sub_le s.length n)).bind fun ⟨head, rest⟩ hparts =>
        (h.write_back head).bind fun sb' ⟨hlayout, hsame⟩ =>
        (addGarbage_bytes hgarbage rest).bind fun garbage' ⟨hsome, hbytes⟩ =>
        ⟨_, rfl, .concat ?_ hsome ?_⟩
      · rw [take_sub_append (by omega), hs, ← hparts.bytes_head]
        refine hlayout.holdsBytes (n := sb'.count) ?_ (by simp) ?_
        · rw [hsame.count, hcount, length_append, length_singleton]
        · rw [hsame.length, length_append, ← sum_length, Slice.length_bytes,
            hparts.length_head (Nat.sub_le _ _)]
          omega
      · rw [trimmed, if_pos (Nat.le_of_lt hlt), drop_sub_append (by omega), hs,
          ← hparts.bytes_tail]
        exact hbytes
    rw [if_neg hlt]
    by_cases heq : s.length = n
    · rw [if_pos heq]
      refine (addGarbage_bytes hgarbage s).bind fun garbage' ⟨hsome, hbytes⟩ =>
        ⟨_, rfl, .concat ?_ hsome ?_⟩
      · rw [take_sub_append_of_le (by omega), hs, heq, Nat.sub_self, Nat.sub_zero, take_length]
        refine h.of_append.holdsBytes (k := sb.length) rfl rfl ?_
        rw [← sum_length]
        omega
      · rw [trimmed, if_pos (Nat.le_of_eq heq.symm), drop_sub_append (by omega), hs, heq,
          Nat.sub_self, drop_zero]
        exact hbytes
    · have hl : l ≠ [] := by
        rintro rfl
        simp only [map_nil, sum_nil] at hlength
        omega
      rw [if_neg heq]
      refine (addGarbage_bytes hgarbage s).bind fun garbage' ⟨hsome, hbytes⟩ => ?_
      have hlength' : sb.length + (n - s.length) = (l.map Slice.length).sum := by omega
      obtain ⟨r, hloop, htrimmed⟩ :=
        ih (h.of_append.withCounts l.length sb.length) hlength' rfl hl hbytes
      refine ⟨r, hloop, .concat ?_ (htrimmed.isSome.trans hsome) ?_⟩
      · rw [take_sub_append_of_le (by omega), hs]
        exact htrimmed.left
      · rw [trimmed, if_neg (by omega), drop_sub_append (by omega), ← hs,
          take_sub_append (Nat.le_refl _), Nat.sub_self, drop_zero, take_zero, append_nil, hs,
          ← append_assoc]
        exact htrimmed.handed

theorem trimEnd_trimmed (h : Represents sb l)
    (hn : n ≤ sb.length) (hpos : 0 < sb.count) (hgarbage : GarbageHolds mem garbage t) :
    Returns (sb.trimEnd mem n garbage) (Trimmed mem l n garbage t) := by
  have hne : l ≠ [] := by
    rintro rfl
    exact absurd h.count_eq (Nat.ne_of_gt hpos)
  rw [trimEnd, if_pos hn, h.count_eq]
  refine trimEndLoop_trimmed (h.withCounts l.length (sb.length - n)) ?_ rfl hne hgarbage
  show sb.length - n + n = _
  rw [Nat.sub_add_cancel hn, h.length_eq]

/-- What is moved off the front goes to `dst`, which held `t'`, and the rest stays. -/
def Moved (mem : Nat → UInt8) (t t' : List UInt8) (n : Nat) (r : SliceBuffer × SliceBuffer) :
    Prop :=
  HoldsBytes mem r.1 (t.drop n) ∧ HoldsBytes mem r.2 (t' ++ t.take n)

theorem moveFirstLoop_moved (incref : Bool) (h : Represents src l) (hdst : HoldsBytes mem dst t)
    (hn : n < (l.map Slice.length).sum) :
    Returns (moveFirstLoop mem incref l.length src n dst)
      (Moved mem (l.flatMap (Slice.bytes mem)) t n) := by
  induction l generalizing src dst n t with
  | nil => exact absurd hn (Nat.not_lt_zero n)
  | cons s l ih =>
    have hs := Slice.length_bytes mem s
    obtain ⟨src₁, htake, hl, hoffset⟩ := takeFirst_represents h
    rw [map_cons, sum_cons] at hn
    rw [length_cons, moveFirstLoop, htake, flatMap_cons]
    simp only [bind_eq_bind, bind_some]
    by_cases hlt : s.length < n
    · rw [if_pos hlt]
      refine (add_bytes hdst s).bind fun dst₁ hdst₁ => ?_
      obtain ⟨r, hloop, hsrc', hdst'⟩ := ih (n := n - s.length) hl hdst₁ (by omega)
      refine ⟨r, hloop, ?_, ?_⟩
      · rwa [drop_append, drop_eq_nil_of_le (by omega), hs]
      · rwa [take_append, take_of_length_le (by omega), hs, ← append_assoc]
    rw [if_neg hlt]
    by_cases heq : n = s.length
    · rw [if_pos heq]
      refine (add_bytes hdst s).bind fun dst₁ hdst₁ => ⟨_, rfl, ?_, ?_⟩
      · rw [heq, ← hs, drop_left]
        exact ⟨l, hl, rfl⟩
      · rwa [heq, ← hs, take_left]
    · rw [if_neg heq]
      refine (splitTailMaybeRef_splits (n := n) mem _ (Nat.le_of_not_lt hlt)).bind
        fun ⟨head, tail⟩ hparts =>
        (undoTakeFirst_represents hl hoffset tail).bind fun src' hsrc' => ?_
      simp only [if_pos (hparts.length_head (Nat.le_of_not_lt hlt))]
      have hmoved {dst' : SliceBuffer} (hdst' : HoldsBytes mem dst' (t ++ head.bytes mem)) :
          Moved mem (s.bytes mem ++ l.flatMap (Slice.bytes mem)) t n (src', dst') := by
        refine ⟨⟨tail :: l, hsrc', ?_⟩, ?_⟩
        · rw [flatMap_cons, hparts.bytes_tail, drop_append_of_le_length (by omega)]
        · rwa [take_append_of_le_length (by omega), ← hparts.bytes_head]
      split_ifs
      · exact (add_bytes hdst head).bind fun dst' hdst' => ⟨_, rfl, hmoved hdst'⟩
      · exact (addIndexed_bytes hdst head).bind fun dst' hdst' => ⟨_, rfl, hmoved hdst'⟩

theorem HoldsBytes.count_pos (h : HoldsBytes mem sb t) (ht : 0 < t.length) : 0 < sb.count := by
  refine Nat.pos_of_ne_zero fun hzero => ?_
  rw [h.of_count_eq_zero hzero] at ht
  exact Nat.lt_irrefl 0 ht

theorem moveFirstMaybeRef_moved (incref : Bool)
    (h : HoldsBytes mem src t) (hdst : HoldsBytes mem dst t') (hn : n ≤ src.length) :
    Returns (moveFirstMaybeRef mem incref src n dst) (Moved mem t t' n) := by
  have hlength := h.length_eq
  rw [moveFirstMaybeRef, if_neg (Nat.not_lt_of_le hn)]
  by_cases heq : src.length = n
  · rw [if_pos heq]
    unfold Moved
    rw [drop_eq_nil_of_le (by omega), take_of_length_le (by omega)]
    exact moveInto_bytes h hdst
  · obtain ⟨l, hl, rfl⟩ := h
    rw [if_neg heq, hl.count_eq]
    refine (moveFirstLoop_moved incref hl hdst (by rw [← hl.length_eq]; omega)).bind
      fun ⟨src', dst'⟩ ⟨hsrc', hdst'⟩ => ⟨_, if_pos ⟨?_, ?_, ?_⟩, hsrc', hdst'⟩
    · rw [hdst'.length_eq, hdst.length_eq, length_append, length_take]
      omega
    · rw [hsrc'.length_eq, length_drop, hlength]
    · exact hsrc'.count_pos (by rw [length_drop]; omega)

/-- What the buffer shows of the bytes `t`: its slots are in the array, they hold slices with these
bytes, and the length is that of the slices. -/
structure Refines (mem : Nat → UInt8) (sb : SliceBuffer) (t : List UInt8) : Prop where
  readAll : sb.readAll = some sb.slices
  bytes_eq : sb.slices.flatMap (Slice.bytes mem) = t
  length_eq : sb.length = (sb.slices.map Slice.length).sum
  room : sb.offset + sb.count ≤ sb.capacity
  size_base : sb.base.size = sb.capacity

theorem HoldsBytes.refines (h : HoldsBytes mem sb t) : Refines mem sb t := by
  obtain ⟨l, hl, rfl⟩ := h
  have hslices := hl.slices
  refine ⟨?_, ?_, ?_, ?_, hl.size_base⟩
  · rw [hslices, hl.readAll]
  · rw [hslices]
  · rw [hslices, hl.length_eq]
  · rw [hl.count_eq]
    exact hl.room

end SliceBuffer

/-! ## Runs -/

namespace SliceBuffers

open SliceBuffer

variable {mem : Nat → UInt8} {s : SliceBuffers} {t : Nat → List UInt8} {i j : Nat}
  {op : SliceBufferOp}

/-- What the functions ask of their callers: `tiny_add` is for data that fits into a slice, there is
a slice to take, `undo_take_first` follows `take_first`, there are as many bytes as are to be moved
or trimmed, and two buffers are different ones. -/
def Allowed (s : SliceBuffers) : SliceBufferOp → Prop
  | .tinyAdd _ data => data.length ≤ inlinedSize
  | .takeFirst i | .removeFirst i => 0 < (s.buffers i).count
  | .undoTakeFirst i _ => s.taken = some i
  | .moveInto a b | .swap a b => a ≠ b
  | .trimEnd i n garbage => n ≤ (s.buffers i).length ∧ garbage ≠ some i
  | .moveFirst src n dst | .moveFirstNoRef src n dst => n ≤ (s.buffers src).length ∧ src ≠ dst
  | .add .. | .addIndexed .. | .addn .. | .pop _ | .resetAndUnref _ => True

/-- `tiny_add` does not reset `slices` of an empty buffer as the other operations that add do, and
`trim_end` looks at the last slice before it looks whether there is one. -/
def Safe (s : SliceBuffers) : SliceBufferOp → Prop
  | .tinyAdd i _ => (s.buffers i).count ≠ 0 ∨ (s.buffers i).offset < (s.buffers i).capacity
  | .trimEnd i _ _ => 0 < (s.buffers i).count
  | _ => True

instance (s : SliceBuffers) (op : SliceBufferOp) : Decidable (Allowed s op) := by
  cases op <;> unfold Allowed <;> infer_instance

instance (s : SliceBuffers) (op : SliceBufferOp) : Decidable (Safe s op) := by
  cases op <;> unfold Safe <;> infer_instance

/-- Every buffer holds the bytes, and a slice that was just taken leaves its slot. -/
structure Holds (mem : Nat → UInt8) (s : SliceBuffers) (t : Nat → List UInt8) : Prop where
  bytes : ∀ i, HoldsBytes mem (s.buffers i) (t i)
  taken : ∀ i, s.taken = some i → 0 < (s.buffers i).offset

theorem holds_init : Holds mem {} fun _ => [] where
  bytes _ := ⟨[], represents_init, rfl⟩
  taken _ h := nomatch h

/-- The operation goes through, and then the buffers hold the bytes that it leaves. -/
def StepHolds (mem : Nat → UInt8) (s : SliceBuffers) (t : Nat → List UInt8) (op : SliceBufferOp) :
    Prop :=
  Returns (s.step mem op) (Holds mem · (byteStep mem s t op))

variable {u : List UInt8} {n : Nat}

theorem on_holds (f : SliceBuffer → Option SliceBuffer) (h : Holds mem s t)
    (hf : Returns (f (s.buffers i)) (HoldsBytes mem · u)) :
    Returns (s.on i f) (Holds mem · (Function.update t i u)) := by
  refine hf.map fun sb' hu => ⟨fun k => ?_, fun _ h => nomatch h⟩
  by_cases hk : k = i
  · subst hk
    simpa only [Function.update_self] using hu
  · simpa only [Function.update_of_ne hk] using h.bytes k

theorem onBoth_holds {f : SliceBuffer → SliceBuffer → Option (SliceBuffer × SliceBuffer)}
    {v : List UInt8} (h : Holds mem s t) (hne : i ≠ j)
    (hf : Returns (f (s.buffers i) (s.buffers j)) fun r =>
      HoldsBytes mem r.1 u ∧ HoldsBytes mem r.2 v) :
    Returns (s.onBoth i j f) (Holds mem · (Function.update (Function.update t i u) j v)) := by
  rw [onBoth, if_neg hne]
  refine hf.map fun r ⟨hu, hv⟩ => ⟨fun k => ?_, fun _ h => nomatch h⟩
  by_cases hj : k = j
  · subst hj
    simpa only [Function.update_self] using hv
  by_cases hi : k = i
  · subst hi
    simpa only [Function.update_self, Function.update_of_ne hj] using hu
  · simpa only [Function.update_of_ne hi, Function.update_of_ne hj] using h.bytes k

theorem flatMap_dropLast (l : List Slice) :
    l.dropLast.flatMap (Slice.bytes mem) = (l.flatMap (Slice.bytes mem)).take
      ((l.flatMap (Slice.bytes mem)).length - (l.getLast?.map Slice.length).getD 0) := by
  obtain rfl | ⟨l, s, rfl⟩ := l.eq_nil_or_concat'
  · rfl
  · have hs := Slice.length_bytes mem s
    rw [dropLast_concat, getLast?_concat, map_some, getD_some,
      flatMap_append, flatMap_singleton, take_sub_append (by omega), hs, Nat.sub_self,
      take_zero, append_nil]

theorem pop_holds (h : Holds mem s t) : StepHolds mem s t (.pop i) := by
  obtain ⟨l, hl, ht⟩ := h.bytes i
  obtain ⟨sb', hpop, hl'⟩ := pop_represents hl
  refine on_holds pop h ⟨sb', hpop, _, hl', ?_⟩
  rw [flatMap_dropLast, hl.slices, ht]

theorem Holds.exists_first (h : Holds mem s t) (hpos : 0 < (s.buffers i).count) :
    ∃ x l, Represents (s.buffers i) (x :: l) ∧ l.flatMap (Slice.bytes mem) =
      (t i).drop (((s.buffers i).slices.head?.map Slice.length).getD 0) := by
  obtain ⟨l, hl, ht⟩ := h.bytes i
  cases l with
  | nil => exact absurd hl.count_eq (Nat.ne_of_gt hpos)
  | cons x l =>
    refine ⟨x, l, hl, ?_⟩
    rw [hl.slices, head?_cons, map_some, getD_some, ← ht, flatMap_cons,
      ← Slice.length_bytes mem x, drop_left]

theorem takeFirst_holds (h : Holds mem s t) (hpos : 0 < (s.buffers i).count) :
    StepHolds mem s t (.takeFirst i) := by
  obtain ⟨x, l, hl, ht⟩ := h.exists_first hpos
  obtain ⟨sb', htake, hl', hoffset⟩ := takeFirst_represents hl
  have hf : (s.buffers i).takeFirst.map Prod.fst = some sb' := by rw [htake, map_some]
  obtain ⟨s', hon, hs'⟩ := on_holds (fun sb => sb.takeFirst.map Prod.fst) h
    ⟨sb', hf, l, hl', ht⟩
  refine ⟨{ s' with taken := some i }, ?_, hs'.bytes, ?_⟩
  · rw [step, hon, map_some]
  · rw [on, hf, map_some] at hon
    obtain rfl := some.inj hon
    rintro k ⟨⟩
    simpa only [Function.update_self] using hoffset

theorem removeFirst_holds (h : Holds mem s t) (hpos : 0 < (s.buffers i).count) :
    StepHolds mem s t (.removeFirst i) := by
  obtain ⟨x, l, hl, ht⟩ := h.exists_first hpos
  obtain ⟨sb', hremove, hl'⟩ := removeFirst_represents hl
  exact on_holds removeFirst h ⟨sb', hremove, l, hl', ht⟩

theorem undoTakeFirst_holds {x : Slice} (h : Holds mem s t) (htaken : s.taken = some i) :
    StepHolds mem s t (.undoTakeFirst i x) := by
  obtain ⟨l, hl, ht⟩ := h.bytes i
  obtain ⟨sb', hundo, hl'⟩ := undoTakeFirst_represents hl (h.taken i htaken) x
  refine on_holds (·.undoTakeFirst x) h ⟨sb', hundo, x :: l, hl', ?_⟩
  rw [flatMap_cons, ht]

theorem moveInto_holds (h : Holds mem s t) (hne : i ≠ j) : StepHolds mem s t (.moveInto i j) := by
  rw [StepHolds, byteStep, Function.update_comm hne.symm]
  exact onBoth_holds h hne (moveInto_bytes (h.bytes i) (h.bytes j))

theorem swap_holds (h : Holds mem s t) (hne : i ≠ j) : StepHolds mem s t (.swap i j) := by
  obtain ⟨la, hla, hta⟩ := h.bytes i
  obtain ⟨lb, hlb, htb⟩ := h.bytes j
  obtain ⟨r, hswap, ha, hb⟩ := swap_represents hla hlb
  exact onBoth_holds h hne ⟨r, hswap, ⟨lb, ha, htb⟩, ⟨la, hb, hta⟩⟩

theorem trimEnd_holds {garbage : Option Nat} (h : Holds mem s t)
    (hn : n ≤ (s.buffers i).length) (hne : garbage ≠ some i) (hpos : 0 < (s.buffers i).count) :
    StepHolds mem s t (.trimEnd i n garbage) := by
  obtain ⟨l, hl, ht⟩ := h.bytes i
  cases garbage with
  | none =>
    rw [StepHolds, byteStep, ← ht]
    have hnone : GarbageHolds mem none [] := fun g hg => nomatch hg
    exact on_holds (fun sb => (sb.trimEnd mem n none).map Prod.fst) h
      ((trimEnd_trimmed hl hn hpos hnone).map fun r hr => hr.left)
  | some j =>
    rw [StepHolds, step, byteStep, hl.slices, ← ht]
    have hsome : GarbageHolds mem (some (s.buffers j)) (t j) := by
      rintro g ⟨⟩
      exact h.bytes j
    refine onBoth_holds h (fun hij => hne (congrArg some hij.symm))
      ((trimEnd_trimmed hl hn hpos hsome).bind fun ⟨sb', garbage'⟩ hr => ?_)
    obtain ⟨g, rfl⟩ := isSome_iff_exists.1 (hr.isSome.trans rfl)
    exact ⟨_, rfl, hr.left, hr.handed g rfl⟩

theorem moveFirst_holds (incref : Bool) (h : Holds mem s t)
    (hn : n ≤ (s.buffers i).length) (hne : i ≠ j) :
    Returns (s.onBoth i j fun src dst => moveFirstMaybeRef mem incref src n dst)
      (Holds mem · (byteStep mem s t (.moveFirst i n j))) := by
  rw [byteStep, Function.update_comm hne.symm]
  exact onBoth_holds h hne (moveFirstMaybeRef_moved incref (h.bytes i) (h.bytes j) hn)

/-- Every operation that is allowed and safe goes through on the bytes. -/
theorem step_holds (h : Holds mem s t) (hallowed : Allowed s op) (hsafe : Safe s op) :
    StepHolds mem s t op := by
  cases op with
  | tinyAdd i data => exact on_holds (·.tinyAdd data) h (tinyAdd_bytes (h.bytes i) hallowed hsafe)
  | add i x => exact on_holds (·.add x) h (add_bytes (h.bytes i) x)
  | addIndexed i x => exact on_holds (·.addIndexed x) h (addIndexed_bytes (h.bytes i) x)
  | addn i l => exact on_holds (·.addn l) h (addn_bytes (h.bytes i) l)
  | pop i => exact pop_holds h
  | takeFirst i => exact takeFirst_holds h hallowed
  | removeFirst i => exact removeFirst_holds h hallowed
  | undoTakeFirst i x => exact undoTakeFirst_holds h hallowed
  | moveInto src dst => exact moveInto_holds h hallowed
  | swap a b => exact swap_holds h hallowed
  | trimEnd i n garbage => exact trimEnd_holds h hallowed.1 hallowed.2 hsafe
  | moveFirst src n dst => exact moveFirst_holds true h hallowed.1 hallowed.2
  | moveFirstNoRef src n dst => exact moveFirst_holds false h hallowed.1 hallowed.2
  | resetAndUnref i =>
    obtain ⟨l, hl, -⟩ := h.bytes i
    obtain ⟨sb', hreset, hl'⟩ := resetAndUnref_represents hl
    exact on_holds resetAndUnref h ⟨sb', hreset, [], hl', rfl⟩

/-- On every run in which no `tiny_add` finds the slots of an empty buffer used up and no `trim_end`
an empty buffer, no operation leaves the array and every buffer holds the bytes that the same
operations on lists give. -/
theorem run_refines_bytes (mem : Nat → UInt8) {ops : List SliceBufferOp}
    (hallowed : Run.Along (stepBoth mem) (fun x op => Allowed x.1 op) ({}, fun _ => []) ops)
    (hsafe : Run.Along (stepBoth mem) (fun x op => Safe x.1 op) ({}, fun _ => []) ops) :
    ∃ x, run (stepBoth mem) ({}, fun _ => []) ops = some x ∧
      ∀ i, Refines mem (x.1.buffers i) (x.2 i) := by
  have hstep (x : SliceBuffers × (Nat → List UInt8)) (op : SliceBufferOp) (h : Holds mem x.1 x.2)
      (hG : Allowed x.1 op ∧ Safe x.1 op) :
      Returns (stepBoth mem x op) fun x' => Holds mem x'.1 x'.2 :=
    (step_holds h hG.1 hG.2).map fun _ hs' => hs'
  obtain ⟨x, hrun, hx⟩ := (hallowed.and hsafe).exists_run hstep holds_init
  exact ⟨x, hrun, fun i => (hx.bytes i).refines⟩

/-- Slices of several kinds in two buffers, with merges, a split and both ends used. -/
theorem run_refines_bytes_twoBuffers :
    let mem : Nat → UInt8 := fun a => .ofNat a
    let ops : List SliceBufferOp :=
      [.add 0 (.refcounted (.counted 1) 10 30), .add 0 (.refcounted (.counted 1) 40 5),
        .tinyAdd 0 [1, 2, 3], .addn 0 [.inlined ⟨[4, 5], by decide⟩], .takeFirst 0,
        .undoTakeFirst 0 (.refcounted (.counted 1) 10 35), .moveFirst 0 20 1, .trimEnd 0 4 (some 1),
        .swap 0 1, .moveInto 1 0, .removeFirst 0, .pop 0, .resetAndUnref 1]
    Run.Along (stepBoth mem) (fun x op => Allowed x.1 op) ({}, fun _ => []) ops ∧
      ∃ x, run (stepBoth mem) ({}, fun _ => []) ops = some x ∧
        ∀ i, Refines mem (x.1.buffers i) (x.2 i) := by
  intro mem ops
  have hallowed : Run.Along (stepBoth mem) (fun x op => Allowed x.1 op) ({}, fun _ => []) ops := by
    decide
  exact ⟨hallowed, run_refines_bytes mem hallowed (by decide)⟩

/-- After eight slices were added and taken again, `slices` points behind the inlined slots, and
`tiny_add` writes there. On an empty buffer, `trim_end` of no bytes reads the slot before the first
one. -/
theorem tinyAdd_outside_slots :
    let mem : Nat → UInt8 := fun a => .ofNat a
    let drain : List SliceBufferOp :=
      List.replicate 8 (.addIndexed 0 (.inlined ⟨[7], by decide⟩)) ++
        List.replicate 8 (.takeFirst 0)
    (Run.Along (stepBoth mem) (fun x op => Allowed x.1 op) ({}, fun _ => [])
        (drain ++ [.tinyAdd 0 [1]]) ∧
      run (stepBoth mem) ({}, fun _ => []) (drain ++ [.tinyAdd 0 [1]]) = none) ∧
    Run.Along (stepBoth mem) (fun x op => Allowed x.1 op) ({}, fun _ => []) [.trimEnd 0 0 none] ∧
      (run (stepBoth mem) ({}, fun _ => []) [.trimEnd 0 0 none]).isNone := by
  decide

end SliceBuffers

end GrpcCore
