import GrpcCore.Hpack.Basic
import GrpcCore.Lib.Ring
import GrpcCore.Lib.SizedFifo

/-!
# The encoder's account of the remote table

`HPackEncoderTable` (`hpack_encoder_table.h`, `hpack_encoder_table.cc`): the sizes of the entries
that the peer's dynamic table holds, in a circular vector that is indexed by the number of the
insertion. As in `GrpcCore.Hpack.ParserTable` a failing `GPR_ASSERT` is `none`, and the loops over
`EvictOne` recurse on the number of entries, with the assertion on `table_elems_` at the end.

`HPackEncoderTable.Live` ties the vector to the list of sizes, the newest first. Insertions number
themselves: `tail_remote_index_ + table_elems_` counts the entries ever added and an eviction
leaves it alone, which is why an index stays valid until its entry goes.
-/

namespace GrpcCore

open List Option HpackConstants SizedFifo

structure HPackEncoderTable where
  tailRemoteIndex : Nat := 0
  maxTableSize : Nat := kInitialTableSize
  tableElems : Nat := 0
  tableSize : Nat := 0
  elemSize : List Nat := List.replicate kInitialTableEntries 0
  deriving DecidableEq

namespace HPackEncoderTable

/-- `MaxEntrySize`, the largest `uint16_t`. -/
def maxEntrySize : Nat := 65535

def evictOne (t : HPackEncoderTable) : Option HPackEncoderTable :=
  let tail := u32 (t.tailRemoteIndex + 1)
  if 0 < tail ∧ 0 < t.tableElems then
    t.elemSize[tail % t.elemSize.length]?.bind fun removingSize =>
      if removingSize ≤ t.tableSize then
        some { t with
          tailRemoteIndex := tail
          tableSize := t.tableSize - removingSize
          tableElems := t.tableElems - 1 }
      else none
  else none

/-- `while (cond) EvictOne();` with as many rounds as there are entries. -/
def evictWhile (cond : HPackEncoderTable → Bool) : Nat → HPackEncoderTable →
    Option HPackEncoderTable
  | 0, t => if cond t then none else some t
  | n + 1, t => if cond t then t.evictOne.bind (evictWhile cond n) else some t

/-- `AllocateIndex`: the index of the new element, or 0 when it is not added. -/
def allocateIndex (t : HPackEncoderTable) (elementSize : Nat) :
    Option (Nat × HPackEncoderTable) :=
  let newIndex := u32 (t.tailRemoteIndex + t.tableElems + 1)
  if t.maxTableSize < elementSize then
    (evictWhile (fun t => 0 < t.tableSize) t.tableElems t).map fun t => (0, t)
  else
    (evictWhile (fun t => t.maxTableSize < t.tableSize + elementSize) t.tableElems t).bind fun t =>
      if t.tableElems < t.elemSize.length then
        some (newIndex, { t with
          elemSize := t.elemSize.set (newIndex % t.elemSize.length) (elementSize % 2 ^ 16)
          tableSize := u32 (t.tableSize + elementSize)
          tableElems := u32 (t.tableElems + 1) })
      else none

/-- `Rebuild`: the live sizes copied into a vector of another capacity. -/
def rebuild (t : HPackEncoderTable) (capacity : Nat) : Option HPackEncoderTable :=
  if t.tableElems ≤ capacity then
    ((List.range t.tableElems).foldlM (fun new i =>
      let ofs := u32 (t.tailRemoteIndex + i + 1)
      t.elemSize[ofs % t.elemSize.length]?.map fun size => new.set (ofs % capacity) size)
      (List.replicate capacity 0)).map fun new => { t with elemSize := new }
  else none

/-- `SetMaxSize`, which also returns whether the size changed. -/
def setMaxSize (t : HPackEncoderTable) (maxTableSize : Nat) :
    Option (Bool × HPackEncoderTable) :=
  if maxTableSize = t.maxTableSize then some (false, t)
  else
    (evictWhile (fun t => 0 < t.tableSize ∧ maxTableSize < t.tableSize)
      t.tableElems t).bind fun t =>
      let t := { t with maxTableSize := maxTableSize }
      let maxTableElems := entriesForBytes maxTableSize
      if t.elemSize.length < maxTableElems then
        (t.rebuild (u32 (max maxTableElems (2 * t.elemSize.length)))).map fun t => (true, t)
      else some (true, t)

/-- `DynamicIndex`, in unsigned 32-bit arithmetic. -/
def dynamicIndex (t : HPackEncoderTable) (index : Nat) : Nat :=
  u32 (1 + kLastStaticEntry + t.tailRemoteIndex + t.tableElems + 2 ^ 32 - index)

def convertableToDynamicIndex (t : HPackEncoderTable) (index : Nat) : Bool :=
  t.tailRemoteIndex < index

/-! ## The live sizes -/

/-- The vector keeps the sizes `l`, the newest first, and `table_size_` is their sum. -/
structure Tracks (t : HPackEncoderTable) (l : List Nat) : Prop where
  tableElems : t.tableElems = l.length
  tableSize : t.tableSize = total id l
  le : l.length ≤ t.elemSize.length
  holds : Ring.Holds t.elemSize t.elemSize.length (t.tailRemoteIndex + 1) l.reverse
  index_lt : t.tailRemoteIndex + l.length < 2 ^ 32

/-- The sizes are those of table entries, within the table size, and the vector has a slot for as
many entries as can fit. -/
structure Live (t : HPackEncoderTable) (l : List Nat) : Prop extends t.Tracks l where
  entries : ∀ sz ∈ l, 32 ≤ sz
  le_max : total id l ≤ t.maxTableSize
  capacity : t.maxTableSize ≤ 32 * t.elemSize.length
  slots_le : t.elemSize.length ≤ 2 ^ 28
  max_lt : t.maxTableSize < 2 ^ 32

variable {t t' : HPackEncoderTable} {l : List Nat} {sz : Nat}

theorem Live.init : Live {} [] where
  tableElems := rfl
  tableSize := rfl
  le := Nat.zero_le _
  holds := Ring.holds_nil _ _ _
  index_lt := by decide
  entries := nofun
  le_max := Nat.zero_le _
  capacity := by simp only [length_replicate]; decide
  slots_le := by simp only [length_replicate]; decide
  max_lt := by decide

theorem Tracks.evictOne (h : t.Tracks (l ++ [sz])) :
    ∃ size elems, t.evictOne = some { t with
        tailRemoteIndex := t.tailRemoteIndex + 1, tableSize := size, tableElems := elems } ∧
      Tracks { t with
        tailRemoteIndex := t.tailRemoteIndex + 1, tableSize := size, tableElems := elems } l := by
  have hlen : (l ++ [sz]).length = l.length + 1 := by simp
  have hidx := h.index_lt
  have hholds := h.holds
  have hsize := h.tableSize
  have helems := h.tableElems
  have hle := h.le
  rw [hlen] at hidx helems hle
  rw [reverse_append, reverse_singleton, singleton_append] at hholds
  rw [total_append, total_cons, total_nil, id, Nat.add_zero] at hsize
  refine ⟨t.tableSize - sz, t.tableElems - 1, ?_, ?_⟩
  · rw [HPackEncoderTable.evictOne, u32_of_lt (by omega)]
    rw [if_pos ⟨by omega, by omega⟩, hholds.head, bind_some, if_pos (by omega)]
  · exact {
      tableElems := by simp only; omega
      tableSize := by simp only; omega
      le := by simp only; omega
      holds := hholds.tail
      index_lt := by simp only; omega }

/-- The fields that an eviction loop writes. -/
def evicted (t : HPackEncoderTable) (tail size elems : Nat) : HPackEncoderTable :=
  { t with tailRemoteIndex := tail, tableSize := size, tableElems := elems }

theorem Tracks.evictWhile (cond : HPackEncoderTable → Bool) (p : List Nat → Bool)
    (hcond : ∀ tail size elems l', l' <+: l → Tracks (t.evicted tail size elems) l' →
      cond (t.evicted tail size elems) = p l')
    (hnil : p [] = false) (h : t.Tracks l) :
    ∃ tail size elems, HPackEncoderTable.evictWhile cond l.length t =
        some (t.evicted tail size elems) ∧
      Tracks (t.evicted tail size elems) (drain p l.length l) ∧
      tail + elems = t.tailRemoteIndex + t.tableElems := by
  suffices H : ∀ n l' tail size elems, l'.length = n → l' <+: l →
      Tracks (t.evicted tail size elems) l' →
      ∃ tail' size' elems', HPackEncoderTable.evictWhile cond n (t.evicted tail size elems) =
          some (t.evicted tail' size' elems') ∧
        Tracks (t.evicted tail' size' elems') (drain p n l') ∧
        tail' + elems' = tail + elems from
    H l.length l t.tailRemoteIndex t.tableSize t.tableElems rfl (prefix_refl l) h
  intro n
  induction n with
  | zero =>
    intro l' tail size elems hl hp h
    obtain rfl := length_eq_zero_iff.1 hl
    refine ⟨tail, size, elems, ?_, h, rfl⟩
    rw [HPackEncoderTable.evictWhile, hcond _ _ _ [] hp h, hnil]
    rfl
  | succ n ih =>
    intro l' tail size elems hl hp h
    rw [HPackEncoderTable.evictWhile, drain, hcond _ _ _ l' hp h]
    cases hpl : p l' with
    | false => exact ⟨tail, size, elems, rfl, h, rfl⟩
    | true =>
      obtain ⟨l', sz, rfl⟩ : ∃ l'' m, l' = l'' ++ [m] :=
        ⟨l'.dropLast, l'.getLast (by rintro rfl; cases hl), (dropLast_append_getLast _).symm⟩
      have helems : elems = l'.length + 1 := h.tableElems.trans (by simp)
      obtain ⟨size', elems', hev, ht⟩ := h.evictOne
      have helems' : elems' = l'.length := ht.tableElems
      obtain ⟨tail₂, size₂, elems₂, hrun, ht₂, hsum⟩ :=
        ih l' (tail + 1) size' elems' (by simpa using hl)
          ((prefix_append l' [sz]).trans hp) ht
      refine ⟨tail₂, size₂, elems₂, ?_, ?_, by omega⟩
      · rw [if_pos rfl, hev, bind_some]
        exact hrun
      · rw [if_pos rfl, dropLast_concat]
        exact ht₂

/-- `AllocateIndex` of an entry that fits: what fits beside it stays, and the entry gets the next
number. -/
theorem Live.allocateIndex (h : t.Live l) (hsz : 32 ≤ sz) (hmax : sz ≤ maxEntrySize)
    (hfits : sz ≤ t.maxTableSize) (hidx : t.tailRemoteIndex + t.tableElems + 1 < 2 ^ 32) :
    ∃ t', t.allocateIndex sz = some (t.tailRemoteIndex + t.tableElems + 1, t') ∧
      t'.Live (fit id t.maxTableSize (sz :: l)) ∧ t'.maxTableSize = t.maxTableSize ∧
      t'.tailRemoteIndex + t'.tableElems = t.tailRemoteIndex + t.tableElems + 1 := by
  set cap := t.maxTableSize - sz with hcap
  obtain ⟨tail, size, elems, hev, htr, hsum⟩ := h.toTracks.evictWhile
    (fun t => decide (t.maxTableSize < t.tableSize + sz))
    (fun l => decide (cap < total id l))
    (fun tail size elems l' _ htr => by
      rw [htr.tableSize]
      simp only [evicted]
      congr 1
      apply propext
      omega) (by simp)
  rw [drain_fit _ (Nat.le_refl _)] at htr
  set keep := fit id cap l with hkeep
  have hpre : keep <+: l := fit_newest id cap l
  have htot : total id keep ≤ cap := total_fit_le id cap l
  have h32 : ∀ a ∈ keep, 32 ≤ a := fun a ha => h.entries a (hpre.subset ha)
  have hmul : 32 * keep.length ≤ total id keep := mul_length_le_total id h32
  have hcapacity := h.capacity
  have hmaxlt := h.max_lt
  have helems : elems = keep.length := htr.tableElems
  have hsize : size = total id keep := htr.tableSize
  have hnew : u32 (t.tailRemoteIndex + t.tableElems + 1) = t.tailRemoteIndex + t.tableElems + 1 :=
    u32_of_lt hidx
  have hslot : keep.length < t.elemSize.length := by omega
  have hmod : sz % 2 ^ 16 = sz := Nat.mod_eq_of_lt (by rw [maxEntrySize] at hmax; omega)
  refine ⟨{ t.evicted tail size elems with
    elemSize := t.elemSize.set ((tail + 1 + keep.length) % t.elemSize.length) sz
    tableSize := size + sz
    tableElems := elems + 1 }, ?_, ?_, rfl, by simp only [evicted]; omega⟩
  · have hslot' : (t.evicted tail size elems).tableElems <
        (t.evicted tail size elems).elemSize.length := by
      rw [htr.tableElems]; exact hslot
    rw [HPackEncoderTable.allocateIndex, if_neg (Nat.not_lt.2 hfits), h.tableElems, hev,
      bind_some, if_pos hslot', ← h.tableElems, hnew, hmod]
    simp only [evicted]
    rw [u32_of_lt (by omega), u32_of_lt (by omega), show tail + 1 + keep.length =
      t.tailRemoteIndex + t.tableElems + 1 by omega]
  · have hfit : fit id t.maxTableSize (sz :: l) = sz :: keep := by
      rw [fit, id, if_pos hfits]
    have hholds := htr.holds.push rfl (by rw [length_reverse]; exact hslot) sz
    have hidx' := htr.index_lt
    rw [length_reverse] at hholds
    rw [hfit]
    exact {
      tableElems := by rw [helems]; rfl
      tableSize := (congrArg (· + sz) hsize).trans (Nat.add_comm _ _)
      le := by rw [length_set]; exact hslot
      holds := by rw [length_set, reverse_cons]; exact hholds
      index_lt := by simp only [evicted, length_cons]; omega
      entries := forall_mem_cons.2 ⟨hsz, h32⟩
      le_max := by simp only [total_cons, id, evicted]; omega
      capacity := by rw [length_set]; exact hcapacity
      slots_le := by rw [length_set]; exact h.slots_le
      max_lt := hmaxlt }

theorem Live.allocateIndex_zero (h : t.Live l) (hbig : t.maxTableSize < sz) :
    ∃ t', t.allocateIndex sz = some (0, t') ∧
      t'.Live (fit id t.maxTableSize (sz :: l)) ∧ t'.maxTableSize = t.maxTableSize ∧
      t'.tailRemoteIndex + t'.tableElems = t.tailRemoteIndex + t.tableElems := by
  obtain ⟨tail, size, elems, hev, htr, hsum⟩ := h.toTracks.evictWhile
    (fun t => decide (0 < t.tableSize)) (fun l => decide (0 < total id l))
    (fun tail size elems l' _ htr => by rw [htr.tableSize]) (by simp)
  rw [drain_fit _ (Nat.le_refl _), fit_zero] at htr
  · refine ⟨t.evicted tail size elems, ?_, ?_, rfl, hsum⟩
    · rw [HPackEncoderTable.allocateIndex, if_pos hbig, h.tableElems, hev, map_some]
    · rw [fit, id, if_neg (Nat.not_le.2 hbig)]
      exact { htr with
        entries := nofun
        le_max := Nat.zero_le _
        capacity := h.capacity
        slots_le := h.slots_le
        max_lt := h.max_lt }
  · intro sz hsz
    have := h.entries sz hsz
    simp only [id]
    omega

theorem Tracks.rebuild (h : t.Tracks l) (capacity : Nat) (hcap : l.length ≤ capacity) :
    ∃ new, t.rebuild capacity = some { t with elemSize := new } ∧
      Tracks { t with elemSize := new } l ∧ new.length = capacity := by
  have hidx := h.index_lt
  -- after `n` rounds the new vector keeps the `n` oldest sizes
  have hloop : ∀ n, n ≤ l.length → ∃ new, (List.range n).foldlM (fun new i =>
      let ofs := u32 (t.tailRemoteIndex + i + 1)
      t.elemSize[ofs % t.elemSize.length]?.map fun size => new.set (ofs % capacity) size)
      (List.replicate capacity 0) = some new ∧ new.length = capacity ∧
      Ring.Holds new capacity (t.tailRemoteIndex + 1) (l.reverse.take n) := by
    intro n
    induction n with
    | zero => exact fun _ => ⟨_, rfl, length_replicate, Ring.holds_nil _ _ _⟩
    | succ n ih =>
      intro hn
      obtain ⟨new, hnew, hlen, hholds⟩ := ih (by omega)
      have hn' : n < l.reverse.length := by rw [length_reverse]; omega
      have hread := h.holds n hn'
      rw [getElem?_eq_getElem hn'] at hread
      have htake : (l.reverse.take n).length = n := by rw [length_take]; omega
      have hpush := hholds.push hlen (by omega) l.reverse[n]
      rw [htake] at hpush
      refine ⟨new.set ((t.tailRemoteIndex + 1 + n) % capacity) l.reverse[n], ?_, ?_, ?_⟩
      · rw [range_succ, foldlM_append, hnew]
        simp only [bind_eq_bind, bind_some, foldlM_cons, foldlM_nil]
        rw [u32_of_lt (by omega), Nat.add_right_comm, hread]
        rfl
      · rw [length_set, hlen]
      · rw [take_add_one, getElem?_eq_getElem hn']
        exact hpush
  obtain ⟨new, hnew, hlen, hholds⟩ := hloop l.length (Nat.le_refl _)
  refine ⟨new, ?_, ?_, hlen⟩
  · rw [HPackEncoderTable.rebuild, h.tableElems, if_pos hcap, hnew, map_some]
  · exact {
      tableElems := h.tableElems
      tableSize := h.tableSize
      le := by simp only [hlen]; exact hcap
      holds := by
        simp only [hlen]
        rwa [take_of_length_le (by rw [length_reverse])] at hholds
      index_lt := h.index_lt }

theorem Live.setMaxSize (h : t.Live l) {n : Nat} (hn : n + 31 < 2 ^ 32) :
    ∃ t', t.setMaxSize n = some (decide (n ≠ t.maxTableSize), t') ∧
      t'.Live (fit id n l) ∧ t'.maxTableSize = n ∧
      t'.tailRemoteIndex + t'.tableElems = t.tailRemoteIndex + t.tableElems := by
  rw [HPackEncoderTable.setMaxSize]
  split
  · next heq =>
    subst heq
    rw [fit_eq_self _ h.le_max]
    exact ⟨t, by simp, h, rfl, rfl⟩
  next hne =>
  obtain ⟨tail, size, elems, hev, htr, hsum⟩ := h.toTracks.evictWhile
    (fun t => decide (0 < t.tableSize ∧ n < t.tableSize))
    (fun l => decide (n < total id l))
    (fun tail size elems l' _ htr => by
      rw [htr.tableSize]
      congr 1
      apply propext
      omega) (by simp)
  rw [drain_fit _ (Nat.le_refl _)] at htr
  have hpre := fit_newest id n l
  have h32 : ∀ a ∈ fit id n l, 32 ≤ a := fun a ha => h.entries a (hpre.subset ha)
  have hcov := le_entriesForBytes hn
  have hle := h.slots_le
  have hresized : Tracks { t.evicted tail size elems with maxTableSize := n }
      (fit id n l) := { htr with }
  have hlen : (fit id n l).length ≤ t.elemSize.length := hpre.length_le.trans h.le
  rw [h.tableElems, hev, bind_some]
  simp only
  split
  · next hgrow =>
    have hgrow : t.elemSize.length < entriesForBytes n := hgrow
    have hentries := entriesForBytes_le n
    obtain ⟨new, hnew, htr', hnewlen⟩ := hresized.rebuild
      (u32 (max (entriesForBytes n) (2 * t.elemSize.length))) (by rw [u32_of_lt (by omega)]; omega)
    rw [u32_of_lt (by omega)] at hnewlen
    refine ⟨_, ?_, { htr' with
      entries := h32
      le_max := total_fit_le id n l
      capacity := by simp only; omega
      slots_le := by simp only; omega
      max_lt := by simp only; omega }, rfl, hsum.trans (by rw [h.tableElems])⟩
    rw [decide_eq_true hne]
    exact congrArg (Option.map _) hnew
  · next hroom =>
    have hroom : ¬t.elemSize.length < entriesForBytes n := hroom
    exact ⟨_, by rw [decide_eq_true hne], { hresized with
      entries := h32
      le_max := total_fit_le id n l
      capacity := by simp only [evicted]; omega
      slots_le := hle
      max_lt := by simp only; omega }, rfl, hsum.trans (by rw [h.tableElems])⟩

end HPackEncoderTable

end GrpcCore
