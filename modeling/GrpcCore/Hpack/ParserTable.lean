import GrpcCore.Hpack.Basic
import GrpcCore.Lib.Ring
import GrpcCore.Lib.Run
import GrpcCore.Lib.SizedFifo

/-!
# The decoder's dynamic table

`HPackTable` and its `MementoRingBuffer` (`hpack_parser_table.h`, `hpack_parser_table.cc`). A
function that can run into a failing `GPR_ASSERT`, or into an access outside the vector of the ring,
returns `none` there. The loops over `EvictOne` recurse on the number of entries: with no entry left
another round of the loop is the failing assertion of `PopOne`.

`DynTable` is what the table is for: the live entries, the newest first, and the two byte limits.
The relation `HPackTable.Live` ties the ring, in its growing and in its wrapped layout, to that
list, and each operation has one lemma that carries it over. `Rebuild` leaves `max_entries_` at its
initial value, so a ring holds at most 128 entries whatever the byte limit; `HPackTable.RingFull` is
the situation in which the next `Put` then fails.
-/

namespace GrpcCore

open List Option HpackConstants SizedFifo

structure MementoRingBuffer where
  firstEntry : Nat := 0
  numEntries : Nat := 0
  maxEntries : Nat := kInitialTableEntries
  entries : List Memento := []
  deriving DecidableEq

namespace MementoRingBuffer

def put (r : MementoRingBuffer) (m : Memento) : Option MementoRingBuffer :=
  if r.numEntries < r.maxEntries then
    if r.entries.length < r.maxEntries then
      some { r with numEntries := u32 (r.numEntries + 1), entries := r.entries ++ [m] }
    else
      let index := u32 (r.firstEntry + r.numEntries) % r.maxEntries
      some { r with entries := r.entries.set index m, numEntries := u32 (r.numEntries + 1) }
  else none

/-- `PopOne`. The slot keeps its stale entry, which is not read again before it is overwritten. -/
def popOne (r : MementoRingBuffer) : Option (Memento × MementoRingBuffer) :=
  if 0 < r.numEntries then
    let index := r.firstEntry % r.maxEntries
    r.entries[index]?.map fun m =>
      (m, { r with firstEntry := u32 (r.firstEntry + 1), numEntries := r.numEntries - 1 })
  else none

/-- `Lookup`: the entry `index` places before the newest. -/
def lookup (r : MementoRingBuffer) (index : Nat) : Option Memento :=
  if r.numEntries ≤ index then none
  else
    let offset := u32 (r.numEntries - 1 - index + r.firstEntry) % r.maxEntries
    r.entries[offset]?

/-- `Rebuild`. The entries move to the front of a fresh vector; `max_entries_` is not assigned. -/
def rebuild (r : MementoRingBuffer) (maxEntries : Nat) : Option MementoRingBuffer :=
  if maxEntries = r.maxEntries then some r
  else
    ((List.range r.numEntries).mapM fun i =>
      r.entries[(r.firstEntry + i) % r.entries.length]?).map fun entries =>
        { r with firstEntry := 0, entries := entries }

end MementoRingBuffer

inductive TableError where
  | aboveMax (bytes maxBytes : Nat)
  | notReflected (maxBytes currentTableBytes : Nat)
  deriving DecidableEq

def TableError.message : TableError → String
  | .aboveMax bytes maxBytes =>
    s!"Attempt to make hpack table {bytes} bytes when max is {maxBytes} bytes"
  | .notReflected maxBytes current =>
    s!"HPACK max table size reduced to {maxBytes} but not reflected by hpack stream " ++
      s!"(still at {current})"

/-- `HPackTable`, without the static entries. -/
structure HPackTable where
  memUsed : Nat := 0
  maxBytes : Nat := kInitialTableSize
  currentTableBytes : Nat := kInitialTableSize
  entries : MementoRingBuffer := {}
  deriving DecidableEq

namespace HPackTable

def evictOne (t : HPackTable) : Option HPackTable :=
  t.entries.popOne.bind fun (firstEntry, entries) =>
    if firstEntry.transportSize ≤ t.memUsed then
      some { t with memUsed := t.memUsed - firstEntry.transportSize, entries := entries }
    else none

/-- `while (cond) EvictOne();` with as many rounds as there are entries. -/
def evictWhile (cond : HPackTable → Bool) : Nat → HPackTable → Option HPackTable
  | 0, t => if cond t then none else some t
  | n + 1, t => if cond t then t.evictOne.bind (evictWhile cond n) else some t

def setMaxBytes (t : HPackTable) (maxBytes : Nat) : Option HPackTable :=
  if t.maxBytes = maxBytes then some t
  else
    (evictWhile (fun t => maxBytes < t.memUsed) t.entries.numEntries t).map fun t =>
      { t with maxBytes := maxBytes }

def setCurrentTableSize (t : HPackTable) (bytes : Nat) :
    Option (Except TableError HPackTable) :=
  if t.currentTableBytes = bytes then some (.ok t)
  else if t.maxBytes < bytes then some (.error (.aboveMax bytes t.maxBytes))
  else
    (evictWhile (fun t => bytes < t.memUsed) t.entries.numEntries t).bind fun t =>
      let newCap := max (entriesForBytes bytes) kInitialTableEntries
      (t.entries.rebuild newCap).map fun entries =>
        .ok { t with currentTableBytes := bytes, entries := entries }

/-- `static_cast<size_t>(current_table_bytes_) - mem_used_`, in 64-bit arithmetic. -/
def room (t : HPackTable) : Nat := (t.currentTableBytes + 2 ^ 64 - t.memUsed) % 2 ^ 64

def add (t : HPackTable) (md : Memento) : Option (Except TableError HPackTable) :=
  if t.maxBytes < t.currentTableBytes then
    some (.error (.notReflected t.maxBytes t.currentTableBytes))
  else if t.currentTableBytes < md.transportSize then
    (evictWhile (fun t => t.entries.numEntries ≠ 0) t.entries.numEntries t).map .ok
  else
    (evictWhile (fun t => t.room < md.transportSize) t.entries.numEntries t).bind fun t =>
      (t.entries.put md).map fun entries =>
        .ok { t with memUsed := u32 (t.memUsed + md.transportSize), entries := entries }

def lookupDynamic (t : HPackTable) (index : Nat) : Option Memento :=
  t.entries.lookup (index - (kLastStaticEntry + 1))

/-- `Lookup`: the static entries first, then the dynamic ones. -/
def lookup (t : HPackTable) (index : Nat) : Option Memento :=
  if index ≤ kLastStaticEntry then staticMementos[index - 1]? else t.lookupDynamic index

def numEntries (t : HPackTable) : Nat := t.entries.numEntries

end HPackTable

/-! ## The live entries of a ring -/

/-- The ring keeps the entries `l`, the newest first. While its vector is shorter than
`max_entries_` the queue ends where the vector ends; afterwards it wraps around. -/
structure MementoRingBuffer.Live (r : MementoRingBuffer) (l : List Memento) : Prop where
  maxEntries : r.maxEntries = 128
  numEntries : r.numEntries = l.length
  le : l.length ≤ 128
  holds : Ring.Holds r.entries 128 r.firstEntry l.reverse
  layout : r.entries.length = 128 ∨
    r.entries.length < 128 ∧ r.entries.length = r.firstEntry + l.length

theorem two_pow_32_dvd : 128 ∣ 2 ^ 32 := ⟨2 ^ 25, rfl⟩

namespace MementoRingBuffer.Live

variable {r r' : MementoRingBuffer} {l : List Memento} {m : Memento}

theorem init : Live {} [] where
  maxEntries := kInitialTableEntries_eq
  numEntries := rfl
  le := Nat.zero_le _
  holds := Ring.holds_nil _ _ _
  layout := .inr ⟨by decide, rfl⟩

theorem put_none (h : r.Live l) (hl : l.length = 128) : r.put m = none := by
  simp [put, h.numEntries, h.maxEntries, hl]

theorem put_some (h : r.Live l) (hl : l.length < 128) :
    ∃ r', r.put m = some r' ∧ r'.Live (m :: l) := by
  have hnum : u32 (r.numEntries + 1) = l.length + 1 := by
    rw [h.numEntries, u32_of_lt (by omega)]
  rcases h.layout with hlen | ⟨hlt, hlen⟩
  · refine ⟨_, by rw [put, h.maxEntries, h.numEntries, if_pos hl, if_neg (by omega)], ?_⟩
    have hidx : u32 (r.firstEntry + l.length) % 128 = (r.firstEntry + l.reverse.length) % 128 := by
      rw [u32, Nat.mod_mod_of_dvd _ two_pow_32_dvd, length_reverse]
    exact {
      maxEntries := rfl
      numEntries := by rw [← h.numEntries]; exact hnum
      le := hl
      holds := by
        have := h.holds.push hlen (by rw [length_reverse]; exact hl) m
        simp only [hidx, reverse_cons]
        exact this
      layout := .inl (by rw [length_set]; exact hlen) }
  · refine ⟨_, by rw [put, h.maxEntries, h.numEntries, if_pos hl, if_pos hlt], ?_⟩
    exact {
      maxEntries := rfl
      numEntries := by rw [← h.numEntries]; exact hnum
      le := hl
      holds := by
        rw [reverse_cons]
        exact h.holds.grow (by rw [length_reverse]; exact hlen) hlt m
      layout := by
        simp only [length_append, length_cons, length_nil]
        omega }

theorem popOne (h : r.Live (l ++ [m])) : ∃ r', r.popOne = some (m, r') ∧ r'.Live l := by
  have hlen : (l ++ [m]).length = l.length + 1 := by simp
  have hholds := h.holds
  rw [reverse_append, reverse_singleton, singleton_append] at hholds
  refine ⟨{ r with firstEntry := u32 (r.firstEntry + 1), numEntries := r.numEntries - 1 }, ?_, ?_⟩
  · rw [MementoRingBuffer.popOne, if_pos (by rw [h.numEntries, hlen]; omega), h.maxEntries]
    simp [hholds.head]
  · have hle := h.le
    rw [hlen] at hle
    exact {
      maxEntries := h.maxEntries
      numEntries := by simp only [h.numEntries, hlen]; omega
      le := by omega
      holds := hholds.tail.wrap two_pow_32_dvd
      layout := by
        rcases h.layout with h1 | ⟨h1, h2⟩
        · exact .inl h1
        · rw [hlen] at h2
          refine .inr ⟨h1, ?_⟩
          simp only
          rw [u32_of_lt (by omega)]
          omega }

theorem lookup (h : r.Live l) (k : Nat) : r.lookup k = l[k]? := by
  rw [MementoRingBuffer.lookup, h.numEntries, h.maxEntries]
  split
  · next hk => exact (List.getElem?_eq_none hk).symm
  · next hk =>
    have hk : k < l.length := by omega
    have := h.holds.lookup (i := k) (by rwa [length_reverse])
    rw [reverse_reverse, length_reverse] at this
    rw [← this, u32, Nat.mod_mod_of_dvd _ two_pow_32_dvd, Nat.add_comm]

theorem rebuild (h : r.Live l) (cap : Nat) : ∃ r', r.rebuild cap = some r' ∧ r'.Live l := by
  rw [MementoRingBuffer.rebuild]
  split
  · exact ⟨r, rfl, h⟩
  · have hread : ((List.range r.numEntries).mapM fun i =>
        r.entries[(r.firstEntry + i) % r.entries.length]?) = some l.reverse := by
      refine Ring.mapM_range_eq (by rw [length_reverse, h.numEntries]) fun i hi => ?_
      rw [h.numEntries] at hi
      have hi' := h.holds i (by rwa [length_reverse])
      rcases h.layout with h1 | ⟨h1, h2⟩
      · rw [h1, hi']
      · rw [Nat.mod_eq_of_lt (by omega)] at hi'
        rw [Nat.mod_eq_of_lt (by omega), hi']
    rw [hread]
    refine ⟨_, rfl, ?_⟩
    exact {
      maxEntries := h.maxEntries
      numEntries := h.numEntries
      le := h.le
      holds := Ring.holds_self (by rw [length_reverse]; exact h.le)
      layout := by
        have := h.le
        simp only [length_reverse]
        omega }

end MementoRingBuffer.Live

/-! ## The live entries of a table -/

/-- The table as a list: the two byte limits and the live entries, the newest first. -/
structure DynTable where
  maxBytes : Nat := kInitialTableSize
  currentTableBytes : Nat := kInitialTableSize
  live : List Memento := []

/-- The sum of the transport sizes of entries. -/
abbrev totalSize (l : List Memento) : Nat := total Memento.transportSize l

/-- The newest entries that fit into `cap` bytes. -/
abbrev fitBytes (cap : Nat) (l : List Memento) : List Memento :=
  fit Memento.transportSize cap l

/-- The ring keeps `l` and `mem_used_` is its size. -/
structure HPackTable.Tracks (t : HPackTable) (l : List Memento) : Prop where
  ring : t.entries.Live l
  memUsed : t.memUsed = totalSize l

/-- The table keeps the entries of `s` within both of its limits. -/
structure HPackTable.Live (t : HPackTable) (s : DynTable) : Prop extends t.Tracks s.live where
  maxBytes : t.maxBytes = s.maxBytes
  currentTableBytes : t.currentTableBytes = s.currentTableBytes
  le_current : totalSize s.live ≤ s.currentTableBytes
  le_max : totalSize s.live ≤ s.maxBytes
  current_lt : s.currentTableBytes < 2 ^ 32

namespace HPackTable

variable {t : HPackTable} {l : List Memento} {m : Memento} {s : DynTable}

theorem Tracks.evictOne (h : t.Tracks (l ++ [m])) :
    ∃ r mem, t.evictOne = some { t with memUsed := mem, entries := r } ∧
      Tracks { t with memUsed := mem, entries := r } l := by
  obtain ⟨r, hpop, hr⟩ := h.ring.popOne
  have hmem := h.memUsed
  rw [totalSize, total_append, total_cons, total_nil] at hmem
  refine ⟨r, t.memUsed - m.transportSize, ?_, hr, ?_⟩
  · rw [HPackTable.evictOne, hpop]
    exact if_pos (by omega)
  · simp only [totalSize]; omega

theorem Tracks.evictWhile (cond : HPackTable → Bool) (p : List Memento → Bool)
    (hcond : ∀ r mem l', l' <+: l → Tracks { t with memUsed := mem, entries := r } l' →
      cond { t with memUsed := mem, entries := r } = p l')
    (hnil : p [] = false) (h : t.Tracks l) :
    ∃ r mem, HPackTable.evictWhile cond l.length t =
        some { t with memUsed := mem, entries := r } ∧
      Tracks { t with memUsed := mem, entries := r } (drain p l.length l) := by
  -- the loop keeps every field but the two it names, so the condition is read at such tables
  suffices H : ∀ n l' r mem, l'.length = n → l' <+: l →
      Tracks { t with memUsed := mem, entries := r } l' →
      ∃ r' mem', HPackTable.evictWhile cond n { t with memUsed := mem, entries := r } =
          some { t with memUsed := mem', entries := r' } ∧
        Tracks { t with memUsed := mem', entries := r' } (drain p n l') from
    H l.length l t.entries t.memUsed rfl (prefix_refl l) h
  intro n
  induction n with
  | zero =>
    intro l' r mem hl hp h
    obtain rfl := length_eq_zero_iff.1 hl
    exact ⟨r, mem, by rw [HPackTable.evictWhile, hcond r mem [] hp h, hnil]; rfl, h⟩
  | succ n ih =>
    intro l' r mem hl hp h
    rw [HPackTable.evictWhile, drain, hcond r mem l' hp h]
    cases hpl : p l' with
    | false => exact ⟨r, mem, rfl, h⟩
    | true =>
      obtain ⟨l', m, rfl⟩ : ∃ l'' m, l' = l'' ++ [m] :=
        ⟨l'.dropLast, l'.getLast (by rintro rfl; cases hl), (dropLast_append_getLast _).symm⟩
      obtain ⟨r', mem', hev, ht⟩ := h.evictOne
      rw [if_pos rfl, if_pos rfl, hev, bind_some, dropLast_concat]
      exact ih l' r' mem' (by simpa using hl) ((prefix_append l' [m]).trans hp) ht

theorem Tracks.evictTo (h : t.Tracks l) (cap : Nat) :
    ∃ r mem, HPackTable.evictWhile (fun t => cap < t.memUsed) t.entries.numEntries t =
        some { t with memUsed := mem, entries := r } ∧
      Tracks { t with memUsed := mem, entries := r } (fitBytes cap l) := by
  have := h.evictWhile (fun t => decide (cap < t.memUsed)) (fun l => decide (cap < totalSize l))
    (fun r mem l _ h => by rw [h.memUsed]) (by simp)
  rwa [drain_fit _ (Nat.le_refl _), ← h.ring.numEntries] at this

/-- The subtraction of `Add` does not wrap while `mem_used_` is within the table size. -/
theorem room_eq (hle : t.memUsed ≤ t.currentTableBytes) (hlt : t.currentTableBytes < 2 ^ 32) :
    t.room = t.currentTableBytes - t.memUsed := by
  rw [room]
  omega

/-- The ring is full and the new entry would be added without an eviction. -/
def RingFull (t : HPackTable) (md : Memento) : Prop :=
  t.currentTableBytes ≤ t.maxBytes ∧ t.memUsed + md.transportSize ≤ t.currentTableBytes ∧
    t.entries.numEntries = kInitialTableEntries

end HPackTable

namespace DynTable

def setMaxBytes (s : DynTable) (maxBytes : Nat) : DynTable :=
  { s with maxBytes := maxBytes, live := fitBytes maxBytes s.live }

def setCurrentTableSize (s : DynTable) (bytes : Nat) : Except TableError DynTable :=
  if s.currentTableBytes = bytes then .ok s
  else if s.maxBytes < bytes then .error (.aboveMax bytes s.maxBytes)
  else .ok { s with currentTableBytes := bytes, live := fitBytes bytes s.live }

def add (s : DynTable) (md : Memento) : Except TableError DynTable :=
  if s.maxBytes < s.currentTableBytes then
    .error (.notReflected s.maxBytes s.currentTableBytes)
  else .ok { s with live := fitBytes s.currentTableBytes (md :: s.live) }

end DynTable

/-- Both results are the same error, or a table and its list. -/
def HPackTable.ResultLive : Except TableError HPackTable → Except TableError DynTable → Prop
  | .ok t, .ok s => t.Live s
  | .error e, .error e' => e = e'
  | _, _ => False

namespace HPackTable.Live

variable {t : HPackTable} {s : DynTable} {md : Memento}

theorem init : Live {} {} where
  ring := MementoRingBuffer.Live.init
  memUsed := rfl
  maxBytes := rfl
  currentTableBytes := rfl
  le_current := Nat.zero_le _
  le_max := Nat.zero_le _
  current_lt := by decide

theorem setMaxBytes (h : t.Live s) (m : Nat) :
    ∃ t', t.setMaxBytes m = some t' ∧ t'.Live (s.setMaxBytes m) := by
  have hle : totalSize (fitBytes m s.live) ≤ totalSize s.live :=
    total_mono _ (fit_newest _ m s.live)
  rw [HPackTable.setMaxBytes]
  split
  · next heq =>
    have hfit : fitBytes m s.live = s.live :=
      fit_eq_self _ (by rw [← heq, h.maxBytes]; exact h.le_max)
    refine ⟨t, rfl, ?_⟩
    rw [DynTable.setMaxBytes, hfit, ← heq, h.maxBytes]
    exact h
  · obtain ⟨r, mem, hev, htr⟩ := h.toTracks.evictTo m
    refine ⟨_, by rw [hev, map_some], ?_⟩
    exact {
      ring := htr.ring
      memUsed := htr.memUsed
      maxBytes := rfl
      currentTableBytes := h.currentTableBytes
      le_current := hle.trans h.le_current
      le_max := total_fit_le _ _ _
      current_lt := h.current_lt }

theorem setCurrentTableSize (h : t.Live s) {b : Nat} (hb : b < 2 ^ 32) :
    ∃ r, t.setCurrentTableSize b = some r ∧ ResultLive r (s.setCurrentTableSize b) := by
  rw [HPackTable.setCurrentTableSize, DynTable.setCurrentTableSize, h.currentTableBytes,
    h.maxBytes]
  split
  · exact ⟨_, rfl, h⟩
  split
  · exact ⟨_, rfl, rfl⟩
  · next hmax =>
    obtain ⟨r, mem, hev, htr⟩ := h.toTracks.evictTo b
    obtain ⟨r', hreb, hr'⟩ := htr.ring.rebuild (max (entriesForBytes b) kInitialTableEntries)
    have hle := total_fit_le Memento.transportSize b s.live
    refine ⟨_, by rw [hev, bind_some]; simp only [hreb, map_some]; rfl, ?_⟩
    exact {
      ring := hr'
      memUsed := htr.memUsed
      maxBytes := h.maxBytes
      currentTableBytes := rfl
      le_current := hle
      le_max := hle.trans (Nat.not_lt.1 hmax)
      current_lt := hb }

theorem add_none (h : t.Live s) (hfull : t.RingFull md) : t.add md = none := by
  obtain ⟨hmax, hfits, hnum⟩ := hfull
  have hroom := room_eq (t := t) (by omega) (by rw [h.currentTableBytes]; exact h.current_lt)
  have hlen : s.live.length = 128 := by rw [← h.ring.numEntries]; exact hnum
  rw [HPackTable.add, if_neg (by omega), if_neg (by omega)]
  have hstop : HPackTable.evictWhile (fun t => t.room < md.transportSize) t.entries.numEntries t =
      some t := by
    have : decide (t.room < md.transportSize) = false := by
      rw [hroom, decide_eq_false_iff_not]
      omega
    rw [hnum, kInitialTableEntries_eq, HPackTable.evictWhile, this]
    rfl
  rw [hstop, bind_some, h.ring.put_none hlen, map_none]

theorem add (h : t.Live s) (hfull : ¬ t.RingFull md) :
    ∃ r, t.add md = some r ∧ ResultLive r (s.add md) := by
  have hmem := h.memUsed
  have hcur := h.currentTableBytes
  have hle := h.le_current
  have hlt := h.current_lt
  rw [HPackTable.add, DynTable.add, h.maxBytes, hcur]
  split
  · exact ⟨_, rfl, rfl⟩
  next hmax =>
  split
  · next hbig =>
    -- larger than the whole table: everything goes
    obtain ⟨r, mem, hev, htr⟩ := h.toTracks.evictWhile
      (fun t => decide (t.entries.numEntries ≠ 0)) (fun l => decide (l.length ≠ 0))
      (fun r mem l _ h => by rw [h.ring.numEntries]) rfl
    rw [drain_all (Nat.le_refl _)] at htr
    refine ⟨_, by rw [h.ring.numEntries, hev, map_some], ?_⟩
    rw [fitBytes, fit, if_neg (Nat.not_le.2 hbig)]
    exact {
      ring := htr.ring
      memUsed := htr.memUsed
      maxBytes := h.maxBytes
      currentTableBytes := hcur
      le_current := Nat.zero_le _
      le_max := Nat.zero_le _
      current_lt := hlt }
  · next hfits =>
    have hsz : md.transportSize ≤ s.currentTableBytes := Nat.not_lt.1 hfits
    set cap := s.currentTableBytes - md.transportSize with hcap
    -- the loop condition, read at a beginning of the live entries
    obtain ⟨r, mem, hev, htr⟩ := h.toTracks.evictWhile
      (fun t => decide (t.room < md.transportSize)) (fun l => decide (cap < totalSize l))
      (fun r mem l hp htr => by
        have hl : totalSize l ≤ totalSize s.live := total_mono _ hp
        rw [room_eq (by rw [htr.memUsed]; simp only [hcur]; omega) (by simp only [hcur]; exact hlt),
          htr.memUsed]
        simp only [hcur]
        congr 1
        apply propext
        omega) (by simp)
    rw [drain_fit _ (Nat.le_refl _)] at htr
    have htot : totalSize (fitBytes cap s.live) ≤ cap := total_fit_le _ cap s.live
    have hlen : (fitBytes cap s.live).length < 128 := by
      have hlive := h.ring.le
      have hpre : (fitBytes cap s.live).length ≤ s.live.length :=
        (fit_newest _ cap s.live).length_le
      by_contra hge
      -- a ring that is still full has evicted nothing, so the entry fits beside 128 others
      refine hfull ⟨by rw [hcur, h.maxBytes]; omega, ?_, by
        rw [h.ring.numEntries, kInitialTableEntries_eq]; omega⟩
      by_contra hover
      have hover' : cap < totalSize s.live := by omega
      have : (fitBytes cap s.live).length < s.live.length := length_fit_lt _ hover'
      omega
    obtain ⟨r', hput, hr'⟩ := htr.ring.put_some (m := md) hlen
    refine ⟨_, by rw [h.ring.numEntries, hev, bind_some]; simp only [hput]; rfl, ?_⟩
    rw [fitBytes, fit, if_pos hsz]
    have hmem' : mem = totalSize (fitBytes cap s.live) := htr.memUsed
    have hsum : totalSize (md :: fitBytes cap s.live) =
        md.transportSize + totalSize (fitBytes cap s.live) := rfl
    exact {
      ring := hr'
      memUsed := by
        show u32 (mem + md.transportSize) = totalSize (md :: fitBytes cap s.live)
        rw [u32_of_lt (by omega), hsum, hmem', Nat.add_comm]
      maxBytes := h.maxBytes
      currentTableBytes := hcur
      le_current := by show totalSize (md :: fitBytes cap s.live) ≤ s.currentTableBytes; omega
      le_max := by show totalSize (md :: fitBytes cap s.live) ≤ s.maxBytes; omega
      current_lt := hlt }

theorem lookupDynamic (h : t.Live s) (k : Nat) :
    t.lookupDynamic (kLastStaticEntry + 1 + k) = s.live[k]? := by
  rw [HPackTable.lookupDynamic, Nat.add_sub_cancel_left, h.ring.lookup]

/-- Entries of at least 32 bytes never fill the ring of a table of at most 4127 bytes. -/
theorem not_ringFull (h : t.Live s) (h32 : ∀ m ∈ s.live, 32 ≤ m.transportSize)
    (hmd : 32 ≤ md.transportSize) (hcur : s.currentTableBytes < 4128) : ¬ t.RingFull md := by
  rintro ⟨-, hfits, hnum⟩
  have hlen : s.live.length = 128 := by rw [← h.ring.numEntries]; exact hnum
  have hmul : 32 * s.live.length ≤ totalSize s.live := mul_length_le_total _ h32
  rw [h.memUsed, h.currentTableBytes] at hfits
  omega

end HPackTable.Live

/-! ## Runs of table operations -/

inductive TableOp where
  | setMaxBytes (maxBytes : UInt32)
  | setCurrentTableSize (bytes : UInt32)
  | add (md : Memento)

/-- The table after a call that may return an error: an error leaves it as it was. -/
def keepOnError {ε α : Type} (old : α) : Except ε α → α
  | .ok new => new
  | .error _ => old

/-- One operation; `none` is a failed assertion. -/
def HPackTable.step (t : HPackTable) : TableOp → Option HPackTable
  | .setMaxBytes m => t.setMaxBytes m.toNat
  | .setCurrentTableSize b => (t.setCurrentTableSize b.toNat).map (keepOnError t)
  | .add md => (t.add md).map (keepOnError t)

/-- The same operation on the list of live entries. -/
def DynTable.step (s : DynTable) : TableOp → DynTable
  | .setMaxBytes m => s.setMaxBytes m.toNat
  | .setCurrentTableSize b => keepOnError s (s.setCurrentTableSize b.toNat)
  | .add md => keepOnError s (s.add md)

/-- What a table shows of its live entries: `mem_used_` is their size and within both limits, and
`LookupDynamic` finds the `k`-th most recently added one at `62 + k`. -/
structure HPackTable.Shows (t : HPackTable) (s : DynTable) : Prop where
  memUsed_eq : t.memUsed = totalSize s.live
  memUsed_le_current : t.memUsed ≤ t.currentTableBytes
  memUsed_le_max : t.memUsed ≤ t.maxBytes
  room_eq : t.room + t.memUsed = t.currentTableBytes
  numEntries_eq : t.numEntries = s.live.length
  lookup_eq : ∀ k, t.lookupDynamic (62 + k) = s.live[k]?

/-- The operation does not add to a full ring. -/
def HPackTable.HasSlot (t : HPackTable) (op : TableOp) : Prop :=
  ∀ md, op = .add md → ¬ t.RingFull md

namespace HPackTable

variable {t : HPackTable} {s : DynTable} {op : TableOp}

theorem Live.shows (h : t.Live s) : t.Shows s where
  memUsed_eq := h.memUsed
  memUsed_le_current := by rw [h.memUsed, h.currentTableBytes]; exact h.le_current
  memUsed_le_max := by rw [h.memUsed, h.maxBytes]; exact h.le_max
  room_eq := by
    have hle : t.memUsed ≤ t.currentTableBytes := by
      rw [h.memUsed, h.currentTableBytes]; exact h.le_current
    rw [HPackTable.room_eq hle (by rw [h.currentTableBytes]; exact h.current_lt)]
    omega
  numEntries_eq := h.ring.numEntries
  lookup_eq := h.lookupDynamic

theorem ResultLive.keep {r : Except TableError HPackTable} {q : Except TableError DynTable}
    (h : t.Live s) (hr : ResultLive r q) : (keepOnError t r).Live (keepOnError s q) := by
  match r, q, hr with
  | .ok _, .ok _, hr => exact hr
  | .error _, .error _, _ => exact h

theorem Live.step (h : t.Live s) (hop : t.HasSlot op) :
    ∃ t', t.step op = some t' ∧ t'.Live (s.step op) := by
  cases op with
  | setMaxBytes m => exact h.setMaxBytes m.toNat
  | setCurrentTableSize b =>
    obtain ⟨r, hr, hlive⟩ := h.setCurrentTableSize b.toNat_lt
    exact ⟨_, by rw [HPackTable.step, hr, map_some], hlive.keep h⟩
  | add md =>
    obtain ⟨r, hr, hlive⟩ := h.add (hop md rfl)
    exact ⟨_, by rw [HPackTable.step, hr, map_some], hlive.keep h⟩

theorem Live.step_none (h : t.Live s) (hop : ¬ t.HasSlot op) : t.step op = none := by
  simp only [HasSlot, not_forall, not_not] at hop
  obtain ⟨md, rfl, hfull⟩ := hop
  rw [HPackTable.step, h.add_none hfull, map_none]

/-- A run of table operations from the initial table keeps every assertion and shows the live
entries after each operation, exactly when no `Add` meets a full ring. -/
theorem run_shows_iff (ops : List TableOp) :
    (∀ pre, pre <+: ops → ∃ t, Run.run HPackTable.step {} pre = some t ∧
      t.Shows (pre.foldl DynTable.step {})) ↔ Run.Along HPackTable.step HasSlot {} ops := by
  constructor
  · intro h
    obtain ⟨t, hrun, -⟩ := h ops (prefix_refl ops)
    exact Run.along_of_run hrun (fun _ _ _ h => h.step) (fun _ _ _ h => h.step_none) Live.init
  · intro h pre hp
    obtain ⟨t, hrun, hlive⟩ := Run.run_simulates (h.mono hp) (fun _ _ _ h => h.step) Live.init
    exact ⟨t, hrun, hlive.shows⟩

/-- A header of an empty key and value. -/
def emptyHeader : Memento := ⟨[], [], 32⟩

/-- With the limit and the size at 8192 bytes, 129 entries of 32 bytes fit, and the last of them
fails the assertion of `Put`. -/
theorem run_add_129_none :
    Run.run HPackTable.step {} ([.setMaxBytes 8192, .setCurrentTableSize 8192] ++
      List.replicate 129 (.add emptyHeader)) = none := by
  decide +kernel

end HPackTable

end GrpcCore
