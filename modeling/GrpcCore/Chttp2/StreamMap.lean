import GrpcCore.Lib.Buffer
import GrpcCore.Lib.Run
import Mathlib.Data.List.Nodup

/-!
# The stream map

`stream_map.cc`: the map from stream ids to streams, two arrays of which the first `count` cells are
in use. A deleted entry keeps its key and has a null value; `free` counts those, and they are swept
out when the arrays are full and more than a quarter of the entries is deleted, when all entries
are, and by `rand`. Memory is a `Buffer`: an operation that reads a cell which was never written
fails, as does one that breaks a `GPR_ASSERT` or follows a null pointer. The assertions of debug
builds are left out. The functions have the names of the source without the prefix
`grpc_chttp2_stream_map_`.

The map is used with keys that increase with every `add`. `FiniteMap` is the finite map it stands
for (`StreamMap.run_refines_finiteMap`).
-/

namespace GrpcCore

open List Buffer
open Option hiding guard

/-- `grpc_chttp2_stream_map`. -/
structure StreamMap (α : Type) where
  keys : Buffer Nat
  values : Buffer (Option α)
  count : Nat
  free : Nat
  capacity : Nat

namespace StreamMap

variable {α : Type}

def init (initialCapacity : Nat) : StreamMap α where
  keys := .malloc initialCapacity
  values := .malloc initialCapacity
  count := 0
  free := 0
  capacity := initialCapacity

/-- The loop of `compact` from `i` on, with `n` rounds to go. -/
def compactLoop : Nat → Nat → Nat → Buffer Nat → Buffer (Option α) →
    Option (Nat × Buffer Nat × Buffer (Option α))
  | 0, _, out, keys, values => some (out, keys, values)
  | n + 1, i, out, keys, values => do
    match ← values.read i with
    | some value =>
      let key ← keys.read i
      let keys ← keys.write out key
      let values ← values.write out (some value)
      compactLoop n (i + 1) (out + 1) keys values
    | none => compactLoop n (i + 1) out keys values

/-- `compact`: the live entries are moved to the front, and their number is returned. -/
def compact (keys : Buffer Nat) (values : Buffer (Option α)) (count : Nat) :
    Option (Nat × Buffer Nat × Buffer (Option α)) :=
  compactLoop count 0 0 keys values

/-- The part of `grpc_chttp2_stream_map_add` that makes room for one more entry. -/
def makeRoom (map : StreamMap α) : Option (StreamMap α) :=
  if map.count = map.capacity then
    if map.capacity / 4 < map.free then do
      let (count, keys, values) ← compact map.keys map.values map.count
      some { map with keys, values, count, free := 0 }
    else
      let capacity := 2 * map.capacity
      some { map with
        capacity, keys := map.keys.realloc capacity, values := map.values.realloc capacity }
  else
    some map

/-- The assertion of `grpc_chttp2_stream_map_add`: the last key of the array is below `key`. -/
def keyIncreases (map : StreamMap α) (key : Nat) : Option Unit :=
  if map.count = 0 then
    some ()
  else do
    let last ← map.keys.read (map.count - 1)
    guard (last < key)

def add (map : StreamMap α) (key : Nat) (value : α) : Option (StreamMap α) := do
  map.keyIncreases key
  let map ← map.makeRoom
  let keys ← map.keys.write map.count key
  let values ← map.values.write map.count (some value)
  some { map with keys, values, count := map.count + 1 }

/-- The binary search of `find`, for at most `fuel` rounds. -/
def searchLoop (keys : Buffer Nat) (key : Nat) : Nat → Nat → Nat → Option (Option Nat)
  | 0, _, _ => none
  | fuel + 1, minIdx, maxIdx =>
    if minIdx < maxIdx then do
      let midIdx := minIdx + (maxIdx - minIdx) / 2
      let midKey ← keys.read midIdx
      if midKey < key then
        searchLoop keys key fuel (midIdx + 1) maxIdx
      else if key < midKey then
        searchLoop keys key fuel minIdx midIdx
      else
        some (some midIdx)
    else
      some none

/-- `find`: the cell of `values` that belongs to `key`. -/
def search (strictFind : Bool) (map : StreamMap α) (key : Nat) : Option (Option Nat) :=
  if !strictFind && map.count = 0 then
    some none
  else
    searchLoop map.keys key (map.count + 1) 0 map.count

/-- `grpc_chttp2_stream_map_delete`, with the value it returns. -/
def delete (map : StreamMap α) (key : Nat) : Option (StreamMap α × Option α) := do
  let pvalue ← (← map.search true key)
  let out ← map.values.read pvalue
  let values ← map.values.write pvalue none
  let free := map.free + 1
  if free = map.count then
    some ({ map with values, free := 0, count := 0 }, out)
  else
    some ({ map with values, free }, out)

def find (map : StreamMap α) (key : Nat) : Option (Option α) := do
  match ← map.search false key with
  | some pvalue => map.values.read pvalue
  | none => some none

def size (map : StreamMap α) : Nat := map.count - map.free

/-- `grpc_chttp2_stream_map_rand`, where `rand()` returns `random`. -/
def rand (map : StreamMap α) (random : Nat) : Option (StreamMap α × Option α) :=
  if map.count = map.free then
    some (map, none)
  else if map.free ≠ 0 then do
    let (count, keys, values) ← compact map.keys map.values map.count
    guard (0 < count)
    let value ← values.read (random % count)
    some ({ map with keys, values, count, free := 0 }, value)
  else do
    let value ← map.values.read (random % map.count)
    some (map, value)

/-- The loop of `grpc_chttp2_stream_map_for_each` from `i` on, with `n` rounds to go: the entries
that the callback sees. -/
def forEachLoop (map : StreamMap α) : Nat → Nat → Option (List (Nat × α))
  | 0, _ => some []
  | n + 1, i => do
    match ← map.values.read i with
    | some value =>
      let key ← map.keys.read i
      let rest ← map.forEachLoop n (i + 1)
      some ((key, value) :: rest)
    | none => map.forEachLoop n (i + 1)

def forEach (map : StreamMap α) : Option (List (Nat × α)) := map.forEachLoop map.count 0

/-- A call of one of the functions above. -/
inductive Op (α : Type) where
  | add (key : Nat) (value : α)
  | delete (key : Nat)
  | find (key : Nat)
  | rand (random : Nat)
  | size
  | forEach

def step (map : StreamMap α) : Op α → Option (StreamMap α)
  | .add key value => map.add key value
  | .delete key => (map.delete key).map Prod.fst
  | .find key => (map.find key).map fun _ => map
  | .rand random => (map.rand random).map Prod.fst
  | .size => some map
  | .forEach => map.forEach.map fun _ => map

end StreamMap

/-! ## The finite map it stands for -/

/-- A finite map with keys that increase: the keys added so far are below `next`. -/
structure FiniteMap (α : Type) where
  lookup : Nat → Option α
  next : Nat

namespace FiniteMap

variable {α : Type}

def empty : FiniteMap α := ⟨fun _ => none, 0⟩

/-- What the calls of the stream map do to the finite map. -/
def step (t : FiniteMap α) : StreamMap.Op α → FiniteMap α
  | .add key value => ⟨Function.update t.lookup key (some value), key + 1⟩
  | .delete key => { t with lookup := Function.update t.lookup key none }
  | .find _ | .rand _ | .size | .forEach => t

/-- Keys increase with every `add`, and only present keys are deleted. -/
def Allowed (t : FiniteMap α) : StreamMap.Op α → Prop
  | .add key _ => t.next ≤ key
  | .delete key => (t.lookup key).isSome
  | .find _ | .rand _ | .size | .forEach => True

instance (t : FiniteMap α) (op : StreamMap.Op α) : Decidable (t.Allowed op) := by
  cases op <;> unfold Allowed <;> exact inferInstance

end FiniteMap

namespace StreamMap

variable {α : Type} {keys keys' : Buffer Nat} {values values' : Buffer (Option α)} {i k : Nat}
  {l r kept : List (Nat × Option α)} {e : Nat × Option α} {v : Option α}

/-! ## The cells in use -/

/-- The cells from `i` on hold the entries of `l`. -/
structure Stored (keys : Buffer Nat) (values : Buffer (Option α)) (i : Nat)
    (l : List (Nat × Option α)) : Prop where
  keys : keys.Holds i (l.map Prod.fst)
  values : values.Holds i (l.map Prod.snd)

theorem stored_nil : Stored keys values i [] := ⟨holds_nil, holds_nil⟩

theorem Stored.key_head (h : Stored keys values i (e :: l)) : keys.read i = some e.1 := h.keys.head

theorem Stored.value_head (h : Stored keys values i (e :: l)) : values.read i = some e.2 :=
  h.values.head

theorem Stored.tail (h : Stored keys values i (e :: l)) : Stored keys values (i + 1) l :=
  ⟨h.keys.tail, h.values.tail⟩

variable {j : Nat} {a : α} {map : StreamMap α} {l₁ l₂ : List (Nat × Option α)}

theorem Stored.key_read (h : Stored keys values 0 l) (hj : j < l.length) :
    keys.read j = some l[j].1 := by
  have := h.keys j (by rwa [length_map])
  rwa [Nat.zero_add, getElem?_map, getElem?_eq_getElem hj] at this

theorem Stored.value_read (h : Stored keys values 0 l) (hj : j < l.length) :
    values.read j = some l[j].2 := by
  have := h.values j (by rwa [length_map])
  rwa [Nat.zero_add, getElem?_map, getElem?_eq_getElem hj] at this

theorem Stored.push (h : Stored keys values i l) (hk : keys.write (i + l.length) k = some keys')
    (hv : values.write (i + l.length) v = some values') :
    Stored keys' values' i (l ++ [(k, v)]) := by
  constructor
  · rw [map_append]
    exact h.keys.push (by rwa [length_map])
  · rw [map_append]
    exact h.values.push (by rwa [length_map])

theorem Stored.write_before (h : Stored keys values i l) (hj : j < i)
    (hk : keys.write j k = some keys') (hv : values.write j v = some values') :
    Stored keys' values' i l :=
  ⟨h.keys.write_before hj hk, h.values.write_before hj hv⟩

/-! ## `compact` -/

def live (l : List (Nat × Option α)) : List (Nat × Option α) := l.filter (·.2.isSome)

theorem live_cons_none : live ((k, none) :: l) = live l := rfl

/-- The loop has moved the live entries `kept` to the front; it sweeps the entries `r` that are
left. The write position never passes the read position, so `r` is still in place. -/
theorem compactLoop_stored (hkept : Stored keys values 0 kept) (hr : Stored keys values i r)
    (hi : kept.length ≤ i) (hks : i + r.length ≤ keys.size) (hvs : i + r.length ≤ values.size) :
    ∃ keys' values',
      compactLoop r.length i kept.length keys values =
        some ((kept ++ live r).length, keys', values') ∧
      Stored keys' values' 0 (kept ++ live r) ∧
      keys'.size = keys.size ∧ values'.size = values.size := by
  induction r generalizing i kept keys values with
  | nil => exact ⟨keys, values, by simp [compactLoop, live], by simpa [live] using hkept, rfl, rfl⟩
  | cons e r ih =>
    obtain ⟨k, v⟩ := e
    rw [length_cons] at hks hvs
    rw [length_cons, compactLoop, hr.value_head]
    cases v with
    | none =>
      rw [live_cons_none]
      exact ih hkept hr.tail (by omega) (by omega) (by omega)
    | some a =>
      obtain ⟨keys₁, hk₁⟩ := exists_write (b := keys) (i := kept.length) (by omega) k
      obtain ⟨values₁, hv₁⟩ :=
        exists_write (b := values) (i := kept.length) (by omega) (some a)
      have hkept₁ : Stored keys₁ values₁ 0 (kept ++ [(k, some a)]) :=
        hkept.push (by rwa [Nat.zero_add]) (by rwa [Nat.zero_add])
      obtain ⟨keys₂, values₂, hloop, hst, hk₂, hv₂⟩ :=
        ih hkept₁ (hr.tail.write_before (by omega) hk₁ hv₁) (by simpa using hi)
          (by rw [size_of_write hk₁]; omega) (by rw [size_of_write hv₁]; omega)
      rw [append_assoc] at hst hloop
      refine ⟨keys₂, values₂, ?_, hst, hk₂.trans (size_of_write hk₁),
        hv₂.trans (size_of_write hv₁)⟩
      rw [length_append, length_singleton] at hloop
      simp only [bind_eq_bind, bind_some, hr.key_head, hk₁, hv₁]
      exact hloop

theorem compact_stored (h : Stored keys values 0 l) (hks : l.length ≤ keys.size)
    (hvs : l.length ≤ values.size) :
    ∃ keys' values',
      compact keys values l.length = some ((live l).length, keys', values') ∧
      Stored keys' values' 0 (live l) ∧ keys'.size = keys.size ∧ values'.size = values.size :=
  compactLoop_stored stored_nil h (Nat.le_refl _) (by omega) (by omega)

/-! ## The invariant of the arrays -/

/-- The entries `l`, deleted ones included, as a map of some capacity keeps them. -/
structure Layout (map : StreamMap α) (l : List (Nat × Option α)) : Prop where
  stored : Stored map.keys map.values 0 l
  count : l.length = map.count
  free : map.free = l.countP (·.2.isNone)
  keysSize : map.keys.size = map.capacity
  valuesSize : map.values.size = map.capacity
  count_le : map.count ≤ map.capacity
  two_le : 2 ≤ map.capacity
  sorted : l.Pairwise (·.1 < ·.1)

theorem layout_init {initialCapacity : Nat} (h : 2 ≤ initialCapacity) :
    Layout (init initialCapacity : StreamMap α) [] where
  stored := stored_nil
  count := rfl
  free := rfl
  keysSize := size_malloc
  valuesSize := size_malloc
  count_le := Nat.zero_le _
  two_le := h
  sorted := .nil

theorem length_live : (live l).length + l.countP (·.2.isNone) = l.length := by
  rw [live, ← countP_eq_length_filter, length_eq_countP_add_countP (·.2.isSome)]
  simp [-isNone_iff_eq_none]

theorem countP_live : (live l).countP (·.2.isNone) = 0 := by
  rw [countP_eq_zero]
  intro e he
  simpa [isSome_iff_ne_none] using (mem_filter.1 he).2

/-- A map after `compact`. -/
theorem Layout.compact (h : Layout map l) :
    ∃ keys values,
      StreamMap.compact map.keys map.values map.count = some ((live l).length, keys, values) ∧
      Layout { map with keys, values, count := (live l).length, free := 0 } (live l) := by
  have hcount := h.count
  have hcount_le := h.count_le
  obtain ⟨keys, values, hc, hst, hks, hvs⟩ := compact_stored h.stored
    (by rw [h.keysSize]; omega) (by rw [h.valuesSize]; omega)
  rw [hcount] at hc
  have hlen := length_live (l := l)
  exact ⟨keys, values, hc, hst, rfl, countP_live.symm, hks.trans h.keysSize, hvs.trans h.valuesSize,
    show (live l).length ≤ map.capacity by omega, h.two_le, h.sorted.filter _⟩

/-! ## `add` -/

/-- There is room for one more entry, perhaps after a sweep. -/
theorem Layout.makeRoom (h : Layout map l) :
    ∃ map' l', map.makeRoom = some map' ∧ Layout map' l' ∧ map'.count < map'.capacity ∧
      (l' = l ∨ l' = live l) := by
  have hcap := h.two_le
  have hcount := h.count
  rw [StreamMap.makeRoom]
  by_cases hfull : map.count = map.capacity
  · rw [if_pos hfull]
    by_cases hfree : map.capacity / 4 < map.free
    · obtain ⟨keys, values, hc, hl⟩ := h.compact
      rw [if_pos hfree, hc]
      refine ⟨_, _, rfl, hl, ?_, .inr rfl⟩
      have hlen := length_live (l := l)
      have := h.free
      show (live l).length < map.capacity
      omega
    · rw [if_neg hfree]
      have hks := h.keysSize
      have hvs := h.valuesSize
      have hkeys := h.stored.keys.realloc (n := 2 * map.capacity) (by omega)
        (by rw [length_map]; omega)
      have hvalues := h.stored.values.realloc (n := 2 * map.capacity) (by omega)
        (by rw [length_map]; omega)
      refine ⟨_, l, rfl, ⟨⟨hkeys, hvalues⟩, hcount, h.free, size_realloc (by omega),
        size_realloc (by omega), ?_, ?_, h.sorted⟩, ?_, .inl rfl⟩
      all_goals
        dsimp only
        omega
  · rw [if_neg hfull]
    exact ⟨map, l, rfl, h, Nat.lt_of_le_of_ne h.count_le hfull, .inl rfl⟩

theorem Layout.keyIncreases (h : Layout map l) (hk : ∀ e ∈ l, e.1 < k) :
    map.keyIncreases k = some () := by
  rw [StreamMap.keyIncreases]
  by_cases hz : map.count = 0
  · rw [if_pos hz]
  · have hj : map.count - 1 < l.length := by
      rw [h.count]
      omega
    rw [if_neg hz, h.stored.key_read hj]
    show guard (l[map.count - 1].1 < k) = some ()
    rw [guard, if_pos (hk _ (getElem_mem hj))]
    rfl

/-- An entry is added where there is room. -/
theorem Layout.push (h : Layout map l) (hlt : map.count < map.capacity)
    (hk : ∀ e ∈ l, e.1 < k) (a : α) :
    ∃ keys values, map.keys.write map.count k = some keys ∧
      map.values.write map.count (some a) = some values ∧
      Layout { map with keys, values, count := map.count + 1 } (l ++ [(k, some a)]) := by
  obtain ⟨keys, hkeys⟩ := exists_write (b := map.keys) (by rwa [h.keysSize]) k
  obtain ⟨values, hvalues⟩ := exists_write (b := map.values) (by rwa [h.valuesSize]) (some a)
  refine ⟨keys, values, hkeys, hvalues, ?_, ?_, ?_, ?_, ?_, hlt, h.two_le, ?_⟩
  · exact h.stored.push (by rwa [Nat.zero_add, h.count]) (by rwa [Nat.zero_add, h.count])
  · rw [length_append, h.count]
    rfl
  · rw [countP_append, ← h.free]
    rfl
  · exact (size_of_write hkeys).trans h.keysSize
  · exact (size_of_write hvalues).trans h.valuesSize
  · rw [pairwise_append]
    refine ⟨h.sorted, pairwise_singleton _ _, ?_⟩
    intro e he e' he'
    rw [mem_singleton.1 he']
    exact hk e he

theorem Layout.add (h : Layout map l) (hk : ∀ e ∈ l, e.1 < k) (a : α) :
    ∃ map' l', map.add k a = some map' ∧ Layout map' (l' ++ [(k, some a)]) ∧
      (l' = l ∨ l' = live l) := by
  obtain ⟨map₁, l', hroom, h₁, hlt, hl'⟩ := h.makeRoom
  have hk' : ∀ e ∈ l', e.1 < k := by
    rcases hl' with rfl | rfl
    · exact hk
    · exact fun e he => hk e (mem_filter.1 he).1
  obtain ⟨keys, values, hkeys, hvalues, h₂⟩ := h₁.push hlt hk' a
  refine ⟨_, l', ?_, h₂, hl'⟩
  simp only [StreamMap.add, h.keyIncreases hk, hroom, hkeys, hvalues, bind_eq_bind,
    bind_some]

/-! ## The binary search -/

/-- The cell at which a search for `key` ends. -/
inductive Located (l : List (Nat × Option α)) (key : Nat) : Option Nat → Prop
  | found {l₁ l₂ : List (Nat × Option α)} {v : Option α} :
      l = l₁ ++ (key, v) :: l₂ → Located l key (some l₁.length)
  | missing : (∀ e ∈ l, e.1 ≠ key) → Located l key none

theorem located_of_getElem (hj : j < l.length) (hk : l[j].1 = k) :
    Located l k (some j) := by
  have hl : l = l.take j ++ (k, l[j].2) :: l.drop (j + 1) := by
    rw [← hk, ← drop_eq_getElem_cons hj, take_append_drop]
  have hlen : (l.take j).length = j := length_take_of_le (Nat.le_of_lt hj)
  exact hlen ▸ Located.found hl

/-- The keys before `minIdx` are too small and those from `maxIdx` on too large; every round keeps
this and brings the two closer, so that as many rounds as there are entries between them are
enough. -/
theorem searchLoop_located {fuel minIdx maxIdx : Nat} (h : Stored keys values 0 l)
    (hsorted : l.Pairwise (·.1 < ·.1)) (hle : minIdx ≤ maxIdx) (hmax : maxIdx ≤ l.length)
    (hlow : ∀ j (hj : j < l.length), j < minIdx → l[j].1 < k)
    (hhigh : ∀ j (hj : j < l.length), maxIdx ≤ j → k < l[j].1) (hfuel : maxIdx < minIdx + fuel) :
    ∃ p, searchLoop keys k fuel minIdx maxIdx = some p ∧ Located l k p := by
  have hlt_of_lt := pairwise_iff_getElem.1 hsorted
  induction fuel generalizing minIdx maxIdx with
  | zero => omega
  | succ fuel ih =>
    rw [searchLoop]
    by_cases hlt : minIdx < maxIdx
    · obtain ⟨mid, hmid⟩ : ∃ mid, mid = minIdx + (maxIdx - minIdx) / 2 := ⟨_, rfl⟩
      have hj : mid < l.length := by omega
      rw [if_pos hlt, ← hmid]
      dsimp only
      rw [h.key_read hj]
      show ∃ p, (if l[mid].1 < k then _ else _) = some p ∧ Located l k p
      rcases Nat.lt_trichotomy l[mid].1 k with hk | hk | hk
      · rw [if_pos hk]
        refine ih (by omega) hmax (fun j hj' hjm => ?_) hhigh (by omega)
        rcases Nat.lt_succ_iff_lt_or_eq.1 hjm with hjm | rfl
        · exact Nat.lt_trans (hlt_of_lt j mid hj' hj hjm) hk
        · exact hk
      · rw [if_neg (by omega), if_neg (by omega)]
        exact ⟨_, rfl, located_of_getElem hj hk⟩
      · rw [if_neg (by omega), if_pos hk]
        refine ih (by omega) (by omega) hlow (fun j hj' hjm => ?_) (by omega)
        rcases Nat.lt_or_eq_of_le hjm with hjm | rfl
        · exact Nat.lt_trans hk (hlt_of_lt mid j hj hj' hjm)
        · exact hk
    · rw [if_neg hlt]
      refine ⟨none, rfl, .missing fun e he => ?_⟩
      obtain ⟨j, hj, rfl⟩ := getElem_of_mem he
      by_cases hjm : j < minIdx
      · exact Nat.ne_of_lt (hlow j hj hjm)
      · exact Nat.ne_of_gt (hhigh j hj (by omega))

theorem Layout.search (h : Layout map l) (strictFind : Bool) (key : Nat) :
    ∃ p, map.search strictFind key = some p ∧ Located l key p := by
  have hcount := h.count
  rw [StreamMap.search]
  by_cases hz : (!strictFind && decide (map.count = 0)) = true
  · have hnil : l = [] := length_eq_zero_iff.1 (by simp_all)
    rw [if_pos hz]
    exact ⟨none, rfl, .missing (by simp [hnil])⟩
  · rw [if_neg hz]
    exact searchLoop_located h.stored h.sorted (Nat.zero_le _) (by omega)
      (fun j _ hj => absurd hj (Nat.not_lt_zero j))
        (fun j hj hj' => absurd hj (by omega)) (by omega)

/-! ## `delete` -/

theorem Stored.value_at
    (h : Stored keys values 0 (l₁ ++ (k, v) :: l₂)) : values.read l₁.length = some v := by
  rw [h.value_read (by simp), getElem_append_right (Nat.le_refl _)]
  simp

theorem Stored.clear (h : Stored keys values 0 (l₁ ++ (k, v) :: l₂))
    (hw : values.write l₁.length none = some values') :
    Stored keys values' 0 (l₁ ++ (k, none) :: l₂) := by
  constructor
  · simpa using h.keys
  · have := h.values.set (k := l₁.length) (by simp) (by rwa [Nat.zero_add])
    simpa [set_append_right] using this

theorem value_unique {v' : Option α} (hsorted : l.Pairwise (·.1 < ·.1)) (hv : (k, v) ∈ l)
    (hv' : (k, v') ∈ l) : v = v' := by
  have hnodup : (l.map Prod.fst).Nodup := pairwise_map.2 (hsorted.imp Nat.ne_of_lt)
  exact (Prod.mk.inj (inj_on_of_nodup_map hnodup hv hv' rfl)).2

/-- `delete` of a live entry returns its value. It leaves the key behind, or no entry at all when
the others were deleted before. -/
theorem Layout.delete (h : Layout map l) (hmem : (k, some a) ∈ l) :
    ∃ map' l₁ l₂ l', map.delete k = some (map', some a) ∧ l = l₁ ++ (k, some a) :: l₂ ∧
      Layout map' l' ∧
      (l' = l₁ ++ (k, none) :: l₂ ∨ l' = [] ∧ live (l₁ ++ (k, none) :: l₂) = []) := by
  obtain ⟨p, hp, hloc⟩ := h.search true k
  cases hloc with
  | missing hne => exact absurd rfl (hne _ hmem)
  | @found l₁ l₂ v hl =>
    obtain rfl : v = some a := value_unique h.sorted (by rw [hl]; simp) hmem
    subst hl
    have hcount := h.count
    have hfree := h.free
    have hle := h.count_le
    simp only [length_append, length_cons, countP_append, countP_cons,
      isNone_some] at hcount hfree
    obtain ⟨values, hvalues⟩ := exists_write (b := map.values) (i := l₁.length)
      (by rw [h.valuesSize]; omega) none
    have hst := h.stored.clear hvalues
    have hsize := (size_of_write hvalues).trans h.valuesSize
    have hlive := length_live (l := l₁ ++ (k, none) :: l₂)
    simp only [length_append, length_cons, countP_append, countP_cons,
      isNone_none] at hlive
    have hdel : map.delete k = if map.free + 1 = map.count then
        some ({ map with values, free := 0, count := 0 }, some a)
      else some ({ map with values, free := map.free + 1 }, some a) := by
      simp only [StreamMap.delete, hp, h.stored.value_at, hvalues, bind_eq_bind,
        bind_some]
    rw [hdel]
    by_cases hempty : map.free + 1 = map.count
    · rw [if_pos hempty]
      refine ⟨_, l₁, l₂, [], rfl, rfl, ⟨stored_nil, rfl, rfl, h.keysSize, hsize, Nat.zero_le _,
        h.two_le, .nil⟩, .inr ⟨rfl, length_eq_zero_iff.1 ?_⟩⟩
      simp at hfree hlive
      omega
    · rw [if_neg hempty]
      refine ⟨_, l₁, l₂, _, rfl, rfl, ⟨hst, ?_, ?_, h.keysSize, hsize, hle, h.two_le, ?_⟩, .inl rfl⟩
      · simpa using h.count
      · simp at hfree ⊢
        omega
      · have := h.sorted
        simp only [pairwise_append, pairwise_cons, mem_cons, forall_eq_or_imp] at this ⊢
        exact this

/-! ## `find`, `for_each` and `rand` -/

theorem Layout.find_of_mem (h : Layout map l) (hmem : (k, v) ∈ l) :
    map.find k = some v := by
  obtain ⟨p, hp, hloc⟩ := h.search false k
  rw [StreamMap.find, hp]
  cases hloc with
  | missing hne => exact absurd rfl (hne _ hmem)
  | @found l₁ l₂ v' hl =>
    obtain rfl : v' = v := value_unique h.sorted (by rw [hl]; simp) hmem
    exact (hl ▸ h.stored).value_at

theorem Layout.find_of_not_mem (h : Layout map l) (hne : ∀ e ∈ l, e.1 ≠ k) :
    map.find k = some none := by
  obtain ⟨p, hp, hloc⟩ := h.search false k
  rw [StreamMap.find, hp]
  cases hloc with
  | missing => rfl
  | found hl => exact absurd rfl (hne _ (by rw [hl]; exact mem_append_right _ (.head _)))

def entries (l : List (Nat × Option α)) : List (Nat × α) := l.filterMap fun e => e.2.map (e.1, ·)

theorem mem_entries : (k, a) ∈ entries l ↔ (k, some a) ∈ l := by
  simp [entries, mem_filterMap]

theorem length_entries : (entries l).length = (live l).length := by
  simp [entries, live, length_filterMap_eq_countP, countP_eq_length_filter]

theorem entries_sorted (h : l.Pairwise (·.1 < ·.1)) :
    (entries l).Pairwise (·.1 < ·.1) := by
  refine List.Pairwise.filterMap _ ?_ h
  rintro ⟨k, v⟩ ⟨k', v'⟩ hlt ⟨j, a⟩ ha ⟨j', a'⟩ ha'
  simp_all

theorem forEachLoop_eq (h : Stored map.keys map.values i l) :
    map.forEachLoop l.length i = some (entries l) := by
  induction l generalizing i with
  | nil => rfl
  | cons e l ih =>
    obtain ⟨k, v⟩ := e
    rw [length_cons, forEachLoop, h.value_head]
    cases v with
    | none => exact ih h.tail
    | some a =>
      simp only [bind_eq_bind, bind_some, h.key_head, ih h.tail]
      rfl

theorem Layout.forEach (h : Layout map l) : map.forEach = some (entries l) := by
  rw [StreamMap.forEach, ← h.count]
  exact forEachLoop_eq h.stored

theorem Layout.size (h : Layout map l) : map.size = (entries l).length := by
  have hlive := length_live (l := l)
  rw [StreamMap.size, length_entries, ← h.count, h.free]
  omega

/-- Where nothing is deleted every cell in use has a live entry. -/
theorem Layout.read_random (h : Layout map l) (hfree : map.free = 0)
    (hcount : 0 < map.count) (random : Nat) :
    ∃ k a, map.values.read (random % map.count) = some (some a) ∧ (k, some a) ∈ l := by
  have hj : random % map.count < l.length := by
    rw [h.count]
    exact Nat.mod_lt _ hcount
  have hmem := getElem_mem hj
  rw [h.stored.value_read hj]
  rw [h.free, countP_eq_zero] at hfree
  have hsome := hfree _ hmem
  obtain ⟨⟨k, v⟩, he⟩ : ∃ e, l[random % map.count] = e := ⟨_, rfl⟩
  rw [he] at hmem hsome ⊢
  cases v with
  | none => exact absurd rfl hsome
  | some a => exact ⟨k, a, rfl, hmem⟩

/-- `rand` returns a live entry if there is one. -/
theorem Layout.rand (h : Layout map l) (random : Nat) :
    ∃ map' l' v, map.rand random = some (map', v) ∧ Layout map' l' ∧ (l' = l ∨ l' = live l) ∧
      (v = none → live l = []) ∧ ∀ a, v = some a → ∃ k, (k, some a) ∈ l := by
  have hlive := length_live (l := l)
  have hcount := h.count
  have hfree := h.free
  rw [StreamMap.rand]
  by_cases hempty : map.count = map.free
  · rw [if_pos hempty]
    exact ⟨map, l, none, rfl, h, .inl rfl, fun _ => length_eq_zero_iff.1 (by omega), nofun⟩
  rw [if_neg hempty]
  by_cases hz : map.free = 0
  · obtain ⟨k, a, hread, hmem⟩ := h.read_random hz (by omega) random
    rw [if_neg (not_not.2 hz), hread]
    exact ⟨map, l, some a, rfl, h, .inl rfl, nofun, fun _ ha => ⟨k, some.inj ha ▸ hmem⟩⟩
  · obtain ⟨keys, values, hc, hl⟩ := h.compact
    have hpos : 0 < (live l).length := by omega
    obtain ⟨k, a, hread, hmem⟩ := hl.read_random rfl hpos random
    refine ⟨_, live l, some a, ?_, hl, .inr rfl, nofun,
      fun _ ha => ⟨k, some.inj ha ▸ (mem_filter.1 hmem).1⟩⟩
    rw [if_pos hz, hc]
    simp only [bind_eq_bind, bind_some, guard, if_pos hpos]
    exact congrArg (Option.bind · _) hread

/-! ## Refinement -/

/-- The entries `l` are those of the finite map `t`. -/
structure Denotes (l : List (Nat × Option α)) (t : FiniteMap α) : Prop where
  lookup : ∀ k a, (k, some a) ∈ l ↔ t.lookup k = some a
  below : ∀ e ∈ l, e.1 < t.next

theorem denotes_nil : Denotes ([] : List (Nat × Option α)) .empty :=
  ⟨by simp [FiniteMap.empty], nofun⟩

variable {t : FiniteMap α}

theorem Denotes.of_live {l' : List (Nat × Option α)} (h : Denotes l t)
    (hl' : l' = l ∨ l' = live l) :
    Denotes l' t := by
  rcases hl' with rfl | rfl
  · exact h
  · refine ⟨fun k a => ?_, fun e he => h.below e (mem_filter.1 he).1⟩
    rw [← h.lookup, live, mem_filter]
    exact and_iff_left rfl

/-- An entry with a new key. -/
theorem Denotes.add (h : Denotes l t) (hk : t.next ≤ k) (a : α) :
    Denotes (l ++ [(k, some a)]) (t.step (.add k a)) := by
  refine ⟨fun j b => ?_, fun e he => ?_⟩
  · rw [mem_append, mem_singleton, h.lookup, FiniteMap.step]
    by_cases hj : j = k
    · subst hj
      have hnone : t.lookup j ≠ some b := by
        intro hb
        have := h.below _ ((h.lookup j b).2 hb)
        omega
      simp [hnone, eq_comm]
    · simp [hj]
  · rcases mem_append.1 he with he | he
    · exact Nat.lt_of_lt_of_le (h.below e he) (Nat.le_succ_of_le hk)
    · rw [mem_singleton.1 he]
      exact Nat.lt_succ_self k

/-- An entry whose value is taken away. -/
theorem Denotes.delete (h : Denotes (l₁ ++ (k, some a) :: l₂) t)
    (hsorted : (l₁ ++ (k, some a) :: l₂).Pairwise (·.1 < ·.1)) :
    Denotes (l₁ ++ (k, none) :: l₂) (t.step (.delete k)) := by
  refine ⟨fun j b => ?_, ?_⟩
  · have hlookup := h.lookup j b
    dsimp only [FiniteMap.step]
    by_cases hj : j = k
    · -- the neighbours of the deleted entry have other keys
      subst hj
      obtain ⟨-, hright, hcross⟩ := pairwise_append.1 hsorted
      have hleft : (j, some b) ∉ l₁ := fun hb => Nat.lt_irrefl j (hcross _ hb _ (.head _))
      have hright : (j, some b) ∉ l₂ := fun hb =>
        Nat.lt_irrefl j ((pairwise_cons.1 hright).1 _ hb)
      simp [hleft, hright]
    · rw [Function.update_of_ne hj, ← hlookup]
      simp [hj]
  · have := h.below
    simp only [forall_mem_append, forall_mem_cons] at this ⊢
    exact this

/-- The map is laid out in some way, and stands for the finite map `t`. -/
def Represents (map : StreamMap α) (t : FiniteMap α) : Prop := ∃ l, Layout map l ∧ Denotes l t

/-- `find` answers as the finite map does. -/
theorem Represents.find (h : Represents map t) (k : Nat) :
    map.find k = some (t.lookup k) := by
  obtain ⟨l, hl, ht⟩ := h
  by_cases hmem : ∃ v, (k, v) ∈ l
  · obtain ⟨v, hv⟩ := hmem
    rw [hl.find_of_mem hv]
    cases v with
    | some a => rw [(ht.lookup k a).1 hv]
    | none =>
      cases hk : t.lookup k with
      | none => rfl
      | some a => exact absurd (value_unique hl.sorted hv ((ht.lookup k a).2 hk)) nofun
  · have hne : ∀ e ∈ l, e.1 ≠ k := by
      rintro ⟨j, v⟩ hv rfl
      exact hmem ⟨v, hv⟩
    rw [hl.find_of_not_mem hne]
    cases hk : t.lookup k with
    | none => rfl
    | some a => exact absurd ⟨_, (ht.lookup k a).2 hk⟩ hmem

/-- Every call the finite map allows goes through. -/
theorem Represents.step (h : Represents map t) {op : Op α}
    (hop : t.Allowed op) : ∃ map', map.step op = some map' ∧ Represents map' (t.step op) := by
  obtain ⟨l, hl, ht⟩ := h
  cases op with
  | add key value =>
    obtain ⟨map', l', hadd, hlay, hl'⟩ :=
      hl.add (fun e he => Nat.lt_of_lt_of_le (ht.below e he) hop) value
    exact ⟨map', hadd, _, hlay, (ht.of_live hl').add hop value⟩
  | delete key =>
    obtain ⟨a, ha⟩ := isSome_iff_exists.1 hop
    obtain ⟨map', l₁, l₂, l', hdel, rfl, hlay, hl'⟩ := hl.delete ((ht.lookup key a).2 ha)
    refine ⟨map', by rw [StreamMap.step, hdel]; rfl, l', hlay, ?_⟩
    have ht' := ht.delete hl.sorted
    refine ht'.of_live ?_
    rcases hl' with rfl | ⟨rfl, hnil⟩
    · exact .inl rfl
    · exact .inr hnil.symm
  | find key => exact ⟨map, by rw [StreamMap.step, Represents.find ⟨l, hl, ht⟩]; rfl, l, hl, ht⟩
  | rand random =>
    obtain ⟨map', l', v, hrand, hlay, hl', -⟩ := hl.rand random
    exact ⟨map', by rw [StreamMap.step, hrand]; rfl, l', hlay, ht.of_live hl'⟩
  | size => exact ⟨map, rfl, l, hl, ht⟩
  | forEach => exact ⟨map, by rw [StreamMap.step, hl.forEach]; rfl, l, hl, ht⟩

/-- What the functions of a map that stands for `t` return, and the state of its arrays. -/
structure Refines (map : StreamMap α) (t : FiniteMap α) : Prop where
  /-- The first `count` keys increase. -/
  keys : ∃ ks, map.keys.Holds 0 ks ∧ ks.length = map.count ∧ ks.Pairwise (· < ·)
  /-- `free` is the number of null values. -/
  free : ∃ vs, map.values.Holds 0 vs ∧ vs.length = map.count ∧ map.free = vs.countP Option.isNone
  count_le : map.count ≤ map.capacity
  find : ∀ k, map.find k = some (t.lookup k)
  /-- `for_each` visits the live entries in the order of their keys, and `size` counts them. -/
  forEach : ∃ es, map.forEach = some es ∧ es.Pairwise (·.1 < ·.1) ∧
    (∀ k a, (k, a) ∈ es ↔ t.lookup k = some a) ∧ map.size = es.length
  /-- `rand` returns a live entry, and none only when there is none. -/
  rand : ∀ random, ∃ map' v, map.rand random = some (map', v) ∧
    (v = none → ∀ k, t.lookup k = none) ∧ ∀ a, v = some a → ∃ k, t.lookup k = some a

/-- What the functions return. -/
theorem Represents.refines (h : Represents map t) : Refines map t := by
  have hfind := h.find
  obtain ⟨l, hl, ht⟩ := h
  refine ⟨⟨_, hl.stored.keys, ?_, pairwise_map.2 hl.sorted⟩, ⟨_, hl.stored.values, ?_, ?_⟩,
    hl.count_le, hfind, ⟨_, hl.forEach, entries_sorted hl.sorted, ?_, hl.size⟩, fun random => ?_⟩
  · rw [length_map, hl.count]
  · rw [length_map, hl.count]
  · rw [countP_map, hl.free]
    rfl
  · exact fun k a => mem_entries.trans (ht.lookup k a)
  · obtain ⟨map', l', v, hrand, -, -, hnone, hsome⟩ := hl.rand random
    refine ⟨map', v, hrand, fun hv k => ?_, fun a ha => ?_⟩
    · by_contra hk
      obtain ⟨a, ha⟩ := ne_none_iff_exists'.1 hk
      have : (k, some a) ∈ live l := mem_filter.2 ⟨(ht.lookup k a).2 ha, rfl⟩
      rw [hnone hv] at this
      exact absurd this not_mem_nil
    · obtain ⟨k, hk⟩ := hsome a ha
      exact ⟨k, (ht.lookup k a).1 hk⟩

/-- Every sequence of calls in which keys increase and only present keys are deleted goes through,
from an empty map of any capacity of at least two, and the map it leaves answers as the finite map
does. -/
theorem run_refines_finiteMap {initialCapacity : Nat} (hcap : 2 ≤ initialCapacity)
    {ops : List (Op α)}
    (hops : Run.Allows FiniteMap.step FiniteMap.Allowed .empty ops) :
    ∃ map, Run.run step (init initialCapacity) ops = some map ∧
      Refines map (ops.foldl FiniteMap.step .empty) := by
  obtain ⟨map, hrun, hmap⟩ := Run.run_refines (R := Represents) hops
    (fun map t op h hop => h.step hop) ⟨[], layout_init hcap, denotes_nil⟩
  exact ⟨map, hrun, hmap.refines⟩

/-- Calls on a map of capacity two: the arrays are swept when the third key is added, and doubled
for the fourth. -/
def sweptAndDoubled : List (Op Char) :=
  [.add 1 'a', .add 3 'b', .delete 1, .add 5 'c', .add 9 'd', .delete 5, .rand 3]

theorem run_refines_sweptAndDoubled :
    ∃ map, Run.run step (init 2) sweptAndDoubled = some map ∧
      Refines map (sweptAndDoubled.foldl FiniteMap.step .empty) :=
  run_refines_finiteMap (by decide) (by decide)

example : (Run.run step (init 2) sweptAndDoubled).map (fun map => (map.capacity, map.forEach)) =
    some (4, some [(3, 'b'), (9, 'd')]) := by decide

end StreamMap

end GrpcCore
