import GrpcCore.Gprpp.Time
import GrpcCore.Lib.Run
import Mathlib.Algebra.BigOperators.Group.List.Basic
import Mathlib.Data.List.AList

/-!
# The cache of the RLS policy

`RlsLb::Cache` of `rls.cc`: a map of entries, a list of their keys from the least to the most
recently used, in which each entry keeps its place as an iterator, and the number of bytes of all
entries.

The nodes of the list are numbered in the order of their creation, and an iterator is the number of
its node. `Orphan` of an entry, which destroys it, erases its node; an iterator without a node is
not followed. `MarkUsed` inserts a new node and erases the old one. The operations act on the list
of keys alone (`RlsCache.Inv`); `RlsCacheRun.cache_run_correct` puts them together for all
histories.

`FindOrInsert` makes room before it inserts an entry, and does nothing about the size when it finds
one. So the cache may stay above its limit, with an entry that could be evicted, until the next
insertion: `RlsCacheRun.hit_does_not_shrink`.

The clock is read once in a call, as the time is cached for the length of a call. Of an entry the
data of the response is left out (status, header data, child policies and the backoff timer).
-/

namespace GrpcCore

open List Option

/-! ## Time -/

def kMinExpirationTime : Int := 5000

/-! ## Keys -/

structure RequestKey where
  keyMap : List (String × String)
  deriving DecidableEq

/-- The sizes of the types `RequestKey` and `Entry`. -/
structure RlsSizes where
  requestKey : Nat
  entry : Nat

/-- `RequestKey::Size`, before it is cut to a `size_t`. -/
def RequestKey.size (sz : RlsSizes) (key : RequestKey) : Nat :=
  sz.requestKey + (key.keyMap.map fun kv => kv.1.utf8ByteSize + kv.2.utf8ByteSize).sum

/-- `EntrySizeForKey`, before it is cut to a `size_t`. -/
def entryBytes (sz : RlsSizes) (key : RequestKey) : Nat := key.size sz * 2 + sz.entry

def entrySizeForKey (sz : RlsSizes) (key : RequestKey) : Nat := entryBytes sz key % 2 ^ 64

/-! ## Cache -/

/-- `Cache::Entry`. -/
structure RlsEntry where
  minExpirationTime : Int
  dataExpirationTime : Int := int64Min
  backoffExpirationTime : Int := int64Min
  lruIterator : Nat

def RlsEntry.shouldRemove (entry : RlsEntry) (now : Int) : Bool :=
  entry.dataExpirationTime < now ∧ entry.backoffExpirationTime < now

def RlsEntry.canEvict (entry : RlsEntry) (now : Int) : Bool := entry.minExpirationTime < now

/-- `Cache`, with the number of the next list node. -/
structure RlsCache where
  sizeLimit : Nat := 0
  size : Nat := 0
  lruList : List (Nat × RequestKey) := []
  map : AList (fun _ : RequestKey => RlsEntry) := ∅
  nextNode : Nat := 0

/-- A response, as far as it matters for the cache. After a failure the expiration of the backoff is
computed in floating point: it may be any time. -/
inductive RlsResponse where
  | failed (backoffExpirationTime : Int)
  | succeeded (maxAge : Int)

namespace RlsCache

variable (sz : RlsSizes)

def deref (c : RlsCache) (it : Nat) : Option RequestKey :=
  (c.lruList.find? fun node => node.1 = it).map Prod.snd

/-- The list without the node of an iterator. -/
def eraseNode (c : RlsCache) (it : Nat) : List (Nat × RequestKey) :=
  c.lruList.filter fun node => node.1 ≠ it

/-- `MarkUsed` of the entry of a key. -/
def markUsed (c : RlsCache) (key : RequestKey) (entry : RlsEntry) : Option RlsCache :=
  (c.deref entry.lruIterator).map fun lruKey =>
    { c with
      lruList := c.eraseNode entry.lruIterator ++ [(c.nextNode, lruKey)]
      map := c.map.insert key { entry with lruIterator := c.nextNode }
      nextNode := c.nextNode + 1 }

/-- `Find`, with whether there is an entry. -/
def find (c : RlsCache) (key : RequestKey) : Option (RlsCache × Bool) :=
  match c.map.lookup key with
  | none => some (c, false)
  | some entry => (c.markUsed key entry).map fun c => (c, true)

/-- The size of an entry is taken off, and the entry is erased and orphaned. -/
def evict (c : RlsCache) (key : RequestKey) (entry : RlsEntry) : Option RlsCache :=
  (c.deref entry.lruIterator).map fun lruKey =>
    { c with
      size := (c.size + 2 ^ 64 - entrySizeForKey sz lruKey) % 2 ^ 64
      lruList := c.eraseNode entry.lruIterator
      map := c.map.erase key }

/-- The loop of `MaybeShrinkSize`. Each round removes a node of the list, so that there are no more
rounds than nodes. -/
def shrinkLoop (now : Int) (bytes : Nat) : Nat → RlsCache → Option RlsCache
  | 0, c => some c
  | fuel + 1, c =>
    if c.size ≤ bytes then some c
    else
      match c.lruList with
      | [] => some c
      | (_, key) :: _ =>
        (c.map.lookup key).bind fun entry =>
          if entry.canEvict now then (c.evict sz key entry).bind (shrinkLoop now bytes fuel)
          else some c

def maybeShrinkSize (c : RlsCache) (now : Int) (bytes : Nat) : Option RlsCache :=
  shrinkLoop sz now bytes c.lruList.length c

/-- The constructor of `Entry` and its insertion. -/
def insert (c : RlsCache) (now : Int) (key : RequestKey) : RlsCache :=
  { c with
    size := (c.size + entrySizeForKey sz key) % 2 ^ 64
    lruList := c.lruList ++ [(c.nextNode, key)]
    map := c.map.insert key
      { minExpirationTime := millisAdd now kMinExpirationTime, lruIterator := c.nextNode }
    nextNode := c.nextNode + 1 }

def findOrInsert (c : RlsCache) (now : Int) (key : RequestKey) : Option RlsCache :=
  match c.map.lookup key with
  | none =>
    let entrySize := entrySizeForKey sz key
    (c.maybeShrinkSize sz now (c.sizeLimit - min c.sizeLimit entrySize)).map fun c =>
      c.insert sz now key
  | some entry => c.markUsed key entry

/-- `OnRlsResponseLocked` of the entry of a key. -/
def onRlsResponse (c : RlsCache) (now : Int) (key : RequestKey) (response : RlsResponse) :
    Option RlsCache :=
  (c.map.lookup key).bind fun entry =>
    (c.markUsed key entry).bind fun c =>
      (c.map.lookup key).map fun entry =>
        let entry :=
          match response with
          | .failed time => { entry with backoffExpirationTime := time }
          | .succeeded maxAge =>
            { entry with
              dataExpirationTime := millisAdd now maxAge, backoffExpirationTime := int64Min }
        { c with map := c.map.insert key entry }

def resize (c : RlsCache) (now : Int) (bytes : Nat) : Option RlsCache :=
  maybeShrinkSize sz { c with sizeLimit := bytes } now bytes

/-- The loop of `OnCleanupTimer`, over the keys of the map. -/
def cleanupLoop (now : Int) : List RequestKey → RlsCache → Option RlsCache
  | [], c => some c
  | key :: keys, c =>
    (c.map.lookup key).bind fun entry =>
      if entry.shouldRemove now ∧ entry.canEvict now then
        (c.evict sz key entry).bind (cleanupLoop now keys)
      else cleanupLoop now keys c

def onCleanupTimer (c : RlsCache) (now : Int) : Option RlsCache := cleanupLoop sz now c.map.keys c

end RlsCache

/-! ## Histories -/

namespace RlsCache

/-- The keys from the least to the most recently used. -/
def lruKeys (c : RlsCache) : List RequestKey := c.lruList.map Prod.snd

def bytes (sz : RlsSizes) (c : RlsCache) : Nat := (c.map.keys.map (entryBytes sz)).sum

/-- The entry of the key is older than its minimum expiration time. -/
def Evictable (c : RlsCache) (now : Int) (key : RequestKey) : Prop :=
  ∃ entry, c.map.lookup key = some entry ∧ entry.canEvict now = true

/-- The least recently used entry cannot be evicted. -/
def Stuck (c : RlsCache) (now : Int) : Prop :=
  ∃ key rest, c.lruKeys = key :: rest ∧ ¬ c.Evictable now key

/-- Entries were evicted from the least recently used one on, none before its time. -/
def Shrinks (c c' : RlsCache) (now : Int) : Prop :=
  ∃ n, c'.lruKeys = c.lruKeys.drop n ∧ ∀ key ∈ c.lruKeys.take n, c.Evictable now key

end RlsCache

/-- A cache with the time of the last call, the number of uses of entries so far, and the number of
the last use of each key. -/
structure RlsCacheRun where
  cache : RlsCache := {}
  now : Int := int64Min
  uses : Nat := 0
  lastUse : RequestKey → Nat := fun _ => 0

inductive RlsOp where
  | find (key : RequestKey)
  | findOrInsert (key : RequestKey)
  | onRlsResponse (key : RequestKey) (response : RlsResponse)
  | resize (bytes : Nat)
  | onCleanupTimer

/-- The key of the entry that a response is for. -/
def RlsOp.responseKey : RlsOp → Option RequestKey
  | .onRlsResponse key _ => some key
  | .find _ | .findOrInsert _ | .resize _ | .onCleanupTimer => none

structure RlsCall where
  now : Int
  op : RlsOp

namespace RlsCacheRun

variable (sz : RlsSizes)

def use (s : RlsCacheRun) (now : Int) (key : RequestKey) (c : RlsCache) : RlsCacheRun where
  cache := c
  now := now
  uses := s.uses + 1
  lastUse k := if k = key then s.uses else s.lastUse k

def step (s : RlsCacheRun) (call : RlsCall) : Option RlsCacheRun :=
  match call.op with
  | .find key => (s.cache.find key).map fun r =>
    if r.2 then s.use call.now key r.1 else { s with cache := r.1, now := call.now }
  | .findOrInsert key => (s.cache.findOrInsert sz call.now key).map (s.use call.now key)
  | .onRlsResponse key response =>
    (s.cache.onRlsResponse call.now key response).map (s.use call.now key)
  | .resize bytes => (s.cache.resize sz call.now bytes).map fun c =>
      { s with cache := c, now := call.now }
  | .onCleanupTimer =>
    (s.cache.onCleanupTimer sz call.now).map fun c => { s with cache := c, now := call.now }

/-- The clock does not go back, a response is for an entry of the cache, and the entries are in
memory: their sizes add up to less than `2 ^ 64`. -/
def Allowed (s : RlsCacheRun) (call : RlsCall) : Prop :=
  s.now ≤ call.now ∧ (∀ key, call.op.responseKey = some key → key ∈ s.cache.map) ∧
    ∀ s', s.step sz call = some s' → s'.cache.bytes sz < 2 ^ 64

instance (s : RlsCacheRun) (call : RlsCall) : Decidable (s.Allowed sz call) :=
  decidable_of_iff (s.now ≤ call.now ∧ call.op.responseKey.all (· ∈ s.cache.map) = true ∧
    (s.step sz call).all (·.cache.bytes sz < 2 ^ 64) = true) <| by
    simp only [Allowed, Option.all_eq_true, decide_eq_true_eq]

/-- The counter, the list and the map agree. -/
structure Correct (s : RlsCacheRun) : Prop where
  size : s.cache.size = s.cache.bytes sz
  keys : s.cache.lruKeys.Perm s.cache.map.keys
  ordered : s.cache.lruKeys.Pairwise fun a b => s.lastUse a < s.lastUse b

/-- What an insertion and `Resize` do about the size. -/
def Limits (s : RlsCacheRun) (call : RlsCall) : Prop :=
  ∀ s', s.step sz call = some s' →
    match call.op with
    | .findOrInsert key => key ∉ s.cache.map →
      (∃ c, s.cache.Shrinks c call.now ∧ s'.cache.lruKeys = c.lruKeys ++ [key]) ∧
      (s'.cache.size ≤ s'.cache.sizeLimit ∨ s'.cache.Stuck call.now ∨
        s'.cache.sizeLimit < entrySizeForKey sz key)
    | .resize _ => s.cache.Shrinks s'.cache call.now ∧
      (s'.cache.size ≤ s'.cache.sizeLimit ∨ s'.cache.Stuck call.now)
    | _ => True

end RlsCacheRun

/-! ## The list of keys -/

namespace RlsCache

variable {sz : RlsSizes} {c c' : RlsCache} {key : RequestKey} {entry : RlsEntry}

/-- Every entry has a node with its key, and every node an entry. -/
structure Inv (sz : RlsSizes) (c : RlsCache) : Prop where
  nodes : (c.lruList.map Prod.fst).Nodup
  fresh : ∀ node ∈ c.lruList, node.1 < c.nextNode
  keys : c.lruKeys.Perm c.map.keys
  iterator : ∀ key entry, c.map.lookup key = some entry → (entry.lruIterator, key) ∈ c.lruList
  size : c.size = c.bytes sz
  fits : c.bytes sz < 2 ^ 64

theorem Inv.init : Inv sz {} where
  nodes := nodup_nil
  fresh := fun _ h => (nomatch h)
  keys := List.Perm.nil
  iterator := fun _ _ h => (nomatch h)
  size := rfl
  fits := Nat.two_pow_pos 64

theorem Inv.nodup (h : Inv sz c) : c.lruKeys.Nodup := h.keys.nodup_iff.2 c.map.keys_nodup

theorem Inv.mem_iff (h : Inv sz c) : key ∈ c.lruKeys ↔ key ∈ c.map := by
  rw [h.keys.mem_iff, AList.mem_keys]

theorem Inv.fst_eq_iff (h : Inv sz c) {node node' : Nat × RequestKey} (hn : node ∈ c.lruList)
    (hn' : node' ∈ c.lruList) : node.1 = node'.1 ↔ node.2 = node'.2 :=
  ⟨fun heq => congrArg Prod.snd (inj_on_of_nodup_map h.nodes hn hn' heq),
    fun heq => congrArg Prod.fst (inj_on_of_nodup_map h.nodup hn hn' heq)⟩

theorem Inv.deref (h : Inv sz c) (hentry : c.map.lookup key = some entry) :
    c.deref entry.lruIterator = some key := by
  have hmem := h.iterator key entry hentry
  obtain ⟨node, hnode⟩ : ∃ node, c.lruList.find?
      (fun node => node.1 = entry.lruIterator) = some node := by
    refine isSome_iff_exists.1 (find?_isSome.2 ⟨_, hmem, ?_⟩)
    simp
  have heq : node.1 = entry.lruIterator := by simpa using find?_some hnode
  rw [RlsCache.deref, hnode, map_some, some.injEq]
  exact (h.fst_eq_iff (mem_of_find?_eq_some hnode) hmem).1 heq

theorem Inv.eraseNode (h : Inv sz c) (hentry : c.map.lookup key = some entry) :
    (c.eraseNode entry.lruIterator).map Prod.snd = c.lruKeys.erase key := by
  have hmem := h.iterator key entry hentry
  rw [h.nodup.erase_eq_filter, lruKeys, List.filter_map, RlsCache.eraseNode]
  congr 1
  refine filter_congr fun node hnode => ?_
  have hiff := h.fst_eq_iff hnode hmem
  simp only at hiff
  by_cases hkey : node.2 = key <;> simp [hiff, hkey]

theorem bytes_erase (sz : RlsSizes) (h : key ∈ c.map) :
    ((c.map.erase key).keys.map (entryBytes sz)).sum + entryBytes sz key = c.bytes sz := by
  rw [AList.keys_erase, bytes, Nat.add_comm]
  exact sum_map_erase (entryBytes sz) (AList.mem_keys.1 h)

/-! ## Operations -/

theorem Inv.evict (h : Inv sz c) (hentry : c.map.lookup key = some entry) :
    ∃ c', c.evict sz key entry = some c' ∧ Inv sz c' ∧ c'.lruKeys = c.lruKeys.erase key ∧
      c'.map = c.map.erase key ∧ c'.sizeLimit = c.sizeLimit := by
  have hmem : key ∈ c.map := AList.lookup_isSome.1 (by rw [hentry]; rfl)
  have hbytes := bytes_erase sz hmem
  have hfits := h.fits
  refine ⟨{ c with
      size := (c.size + 2 ^ 64 - entrySizeForKey sz key) % 2 ^ 64
      lruList := c.eraseNode entry.lruIterator
      map := c.map.erase key }, by rw [RlsCache.evict, h.deref hentry]; rfl, ?_,
        h.eraseNode hentry, rfl, rfl⟩
  refine ⟨?_, fun node hnode => h.fresh node (mem_of_mem_filter hnode), ?_,
    fun k e hk => ?_, ?_, ?_⟩
  · exact h.nodes.sublist (filter_sublist.map _)
  · show ((c.eraseNode entry.lruIterator).map Prod.snd).Perm (c.map.erase key).keys
    rw [h.eraseNode hentry, AList.keys_erase]
    exact h.keys.erase key
  · have hne : k ≠ key := by
      rintro rfl
      cases (AList.lookup_erase _ _).symm.trans hk
    have hnode := h.iterator k e ((AList.lookup_erase_ne hne).symm.trans hk)
    refine mem_filter.2 ⟨hnode, ?_⟩
    have hiff := h.fst_eq_iff hnode (h.iterator key entry hentry)
    simpa using mt hiff.1 hne
  · -- the size of the entry is part of the whole
    show (c.size + 2 ^ 64 - entrySizeForKey sz key) % 2 ^ 64 =
      ((c.map.erase key).keys.map (entryBytes sz)).sum
    rw [entrySizeForKey, h.size]
    omega
  · show ((c.map.erase key).keys.map (entryBytes sz)).sum < 2 ^ 64
    omega

theorem keys_insert_perm (hentry : c.map.lookup key = some entry) (entry' : RlsEntry) :
    (c.map.insert key entry').keys.Perm c.map.keys := by
  have hmem : key ∈ c.map := AList.lookup_isSome.1 (by rw [hentry]; rfl)
  rw [AList.keys_insert]
  exact (perm_cons_erase (AList.mem_keys.1 hmem)).symm

theorem Inv.nodes_push {l : List (Nat × RequestKey)} (h : Inv sz c) (hl : l.Sublist c.lruList) :
    ((l ++ [(c.nextNode, key)]).map Prod.fst).Nodup := by
  rw [map_append, nodup_append]
  refine ⟨h.nodes.sublist (hl.map _), nodup_singleton _, fun a ha b hb hab => ?_⟩
  obtain ⟨node, hnode, rfl⟩ := mem_map.1 ha
  obtain rfl := mem_singleton.1 hb
  exact Nat.ne_of_lt (h.fresh node (hl.subset hnode)) hab

theorem Inv.fresh_push {l : List (Nat × RequestKey)} (h : Inv sz c) (hl : l.Sublist c.lruList) :
    ∀ node ∈ l ++ [(c.nextNode, key)], node.1 < c.nextNode + 1 := by
  intro node hnode
  rcases mem_append.1 hnode with hnode | hnode
  · exact Nat.lt_succ_of_lt (h.fresh node (hl.subset hnode))
  · rw [mem_singleton.1 hnode]
    exact Nat.lt_succ_self _

theorem Inv.moveToEnd (h : Inv sz c) (hentry : c.map.lookup key = some entry) (entry' : RlsEntry)
    (hit : entry'.lruIterator = c.nextNode) :
    Inv sz { c with
      lruList := c.eraseNode entry.lruIterator ++ [(c.nextNode, key)]
      map := c.map.insert key entry'
      nextNode := c.nextNode + 1 } := by
  have hmem : key ∈ c.map := AList.lookup_isSome.1 (by rw [hentry]; rfl)
  have hperm := keys_insert_perm hentry entry'
  have hbytes : ((c.map.insert key entry').keys.map (entryBytes sz)).sum = c.bytes sz :=
    (hperm.map _).sum_eq
  refine ⟨h.nodes_push filter_sublist, h.fresh_push filter_sublist, ?_, fun k e hk => ?_,
    h.size.trans hbytes.symm, hbytes.trans_lt h.fits⟩
  · show ((c.eraseNode entry.lruIterator ++ [(c.nextNode, key)]).map Prod.snd).Perm _
    rw [map_append, h.eraseNode hentry]
    refine List.Perm.trans ?_ (h.keys.trans hperm.symm)
    exact (perm_append_singleton key _).trans (perm_cons_erase (h.mem_iff.2 hmem)).symm
  · by_cases hkey : k = key
    · subst hkey
      cases (AList.lookup_insert _).symm.trans hk
      rw [hit]
      exact mem_append_right _ (mem_singleton_self _)
    · have hnode := h.iterator k e ((AList.lookup_insert_ne hkey).symm.trans hk)
      refine mem_append_left _ (mem_filter.2 ⟨hnode, ?_⟩)
      have hiff := h.fst_eq_iff hnode (h.iterator key entry hentry)
      simpa using mt hiff.1 hkey

theorem Inv.markUsed (h : Inv sz c) (hentry : c.map.lookup key = some entry) :
    ∃ c', c.markUsed key entry = some c' ∧ Inv sz c' ∧ c'.lruKeys = c.lruKeys.erase key ++ [key] ∧
      c'.map.lookup key = some { entry with lruIterator := c.nextNode } := by
  refine ⟨_, by rw [RlsCache.markUsed, h.deref hentry]; rfl, h.moveToEnd hentry _ rfl, ?_,
    AList.lookup_insert _⟩
  rw [lruKeys, map_append, h.eraseNode hentry]
  rfl

theorem Inv.setEntry (h : Inv sz c) (hentry : c.map.lookup key = some entry) (entry' : RlsEntry)
    (hit : entry'.lruIterator = entry.lruIterator) :
    Inv sz { c with map := c.map.insert key entry' } := by
  have hperm := keys_insert_perm hentry entry'
  have hbytes : ((c.map.insert key entry').keys.map (entryBytes sz)).sum = c.bytes sz :=
    (hperm.map _).sum_eq
  refine ⟨h.nodes, h.fresh, h.keys.trans hperm.symm, fun k e hk => ?_, h.size.trans hbytes.symm,
    hbytes.trans_lt h.fits⟩
  by_cases hkey : k = key
  · subst hkey
    cases (AList.lookup_insert _).symm.trans hk
    rw [hit]
    exact h.iterator k entry hentry
  · exact h.iterator k e ((AList.lookup_insert_ne hkey).symm.trans hk)

theorem Inv.insert (h : Inv sz c) (hnew : key ∉ c.map) (now : Int)
    (hfits : (c.insert sz now key).bytes sz < 2 ^ 64) : Inv sz (c.insert sz now key) := by
  have hkeys : (c.insert sz now key).map.keys = key :: c.map.keys := by
    show (c.map.insert key _).keys = _
    rw [AList.keys_insert, erase_of_not_mem (mt AList.mem_keys.2 hnew)]
  have hbytes : (c.insert sz now key).bytes sz = entryBytes sz key + c.bytes sz := by
    rw [bytes, hkeys]
    rfl
  refine ⟨h.nodes_push (List.Sublist.refl _), h.fresh_push (List.Sublist.refl _), ?_,
    fun k e hk => ?_, ?_, hfits⟩
  · rw [hkeys]
    show ((c.lruList ++ [(c.nextNode, key)]).map Prod.snd).Perm _
    rw [map_append]
    exact (perm_append_singleton key _).trans (h.keys.cons key)
  · by_cases hkey : k = key
    · subst hkey
      cases (AList.lookup_insert _).symm.trans hk
      exact mem_append_right _ (mem_singleton_self _)
    · exact mem_append_left _ (h.iterator k e ((AList.lookup_insert_ne hkey).symm.trans hk))
  · rw [hbytes] at hfits ⊢
    show (c.size + entrySizeForKey sz key) % 2 ^ 64 = _
    rw [entrySizeForKey, h.size]
    omega

/-! ## Eviction -/

theorem Inv.size_eq_zero (h : Inv sz c) (hnil : c.lruList = []) : c.size = 0 := by
  have hperm := h.keys
  rw [lruKeys, hnil] at hperm
  have hkeys : c.map.keys = [] := hperm.nil_eq.symm
  rw [h.size, bytes, hkeys]
  rfl

/-- The loop of `MaybeShrinkSize`: a beginning of the list is evicted, until the size is small
enough or the next entry is too young. The entries that are left stay as they are. -/
theorem Inv.shrinkLoop (h : Inv sz c) (now : Int) (bytes : Nat) {fuel : Nat}
    (hfuel : c.lruList.length ≤ fuel) :
    ∃ c', RlsCache.shrinkLoop sz now bytes fuel c = some c' ∧ Inv sz c' ∧ c.Shrinks c' now ∧
      (c'.size ≤ bytes ∨ c'.Stuck now) ∧ c'.sizeLimit = c.sizeLimit ∧
      ∀ k ∈ c'.map, c'.map.lookup k = c.map.lookup k := by
  -- a cache that is returned as it is
  have hstay : c.Shrinks c now := ⟨0, rfl, fun _ hk => (nomatch hk)⟩
  induction fuel generalizing c with
  | zero =>
    have hzero := h.size_eq_zero (length_eq_zero_iff.1 (Nat.le_zero.1 hfuel))
    exact ⟨c, rfl, h, hstay, .inl (by omega), rfl, fun _ _ => rfl⟩
  | succ fuel ih =>
    rw [RlsCache.shrinkLoop]
    by_cases hsize : c.size ≤ bytes
    · exact ⟨c, if_pos hsize, h, hstay, .inl hsize, rfl, fun _ _ => rfl⟩
    · rw [if_neg hsize]
      cases hlist : c.lruList with
      | nil =>
        have hzero := h.size_eq_zero hlist
        omega
      | cons node rest =>
        obtain ⟨it, key⟩ := node
        have hkeys : c.lruKeys = key :: rest.map Prod.snd := by rw [lruKeys, hlist]; rfl
        have hmem : key ∈ c.map := h.mem_iff.1 (by rw [hkeys]; exact mem_cons_self)
        obtain ⟨entry, hentry⟩ := isSome_iff_exists.1 (AList.lookup_isSome.2 hmem)
        simp only [hentry, bind_some]
        by_cases hevict : entry.canEvict now = true
        · obtain ⟨c₁, h₁, hinv, hkeys₁, hmap₁, hlimit₁⟩ := h.evict hentry
          have hkeys₁ : c₁.lruKeys = rest.map Prod.snd := by rw [hkeys₁, hkeys, erase_cons_head]
          have hlength : c₁.lruList.length ≤ fuel := by
            have hlen := congrArg List.length hkeys₁
            rw [lruKeys, length_map, length_map] at hlen
            rw [hlist, length_cons] at hfuel
            omega
          obtain ⟨c', hc', hinv', ⟨n, hdrop, htake⟩, hstop, hlimit, hlookup⟩ :=
            ih hinv hlength ⟨0, rfl, fun _ hk => (nomatch hk)⟩
          rw [hkeys₁] at hdrop htake
          have hold {k : RequestKey} (hk : k ∈ c₁.map) : c₁.map.lookup k = c.map.lookup k := by
            rw [hmap₁] at hk ⊢
            exact AList.lookup_erase_ne (AList.mem_erase.1 hk).1
          refine ⟨c', by rw [if_pos hevict, h₁, bind_some, hc'], hinv',
            ⟨n + 1, by rw [hkeys, drop_succ_cons, hdrop], fun k hk => ?_⟩, hstop,
            hlimit.trans hlimit₁, fun k hk => ?_⟩
          · rw [hkeys, take_succ_cons] at hk
            rcases mem_cons.1 hk with rfl | hk
            · exact ⟨entry, hentry, hevict⟩
            · obtain ⟨e, he, hcan⟩ := htake k hk
              have hk₁ : k ∈ c₁.map := AList.lookup_isSome.1 (by rw [he]; rfl)
              exact ⟨e, (hold hk₁).symm.trans he, hcan⟩
          · have hk₁ : k ∈ c₁.map := AList.lookup_isSome.1 (by
              rw [← hlookup k hk]
              exact AList.lookup_isSome.2 hk)
            exact (hlookup k hk).trans (hold hk₁)
        · refine ⟨c, if_neg hevict, h, hstay, .inr ⟨key, _, hkeys, ?_⟩, rfl, fun _ _ => rfl⟩
          rintro ⟨e, he, hcan⟩
          cases hentry.symm.trans he
          exact hevict hcan

theorem Inv.cleanupLoop (h : Inv sz c) (now : Int) {keys : List RequestKey}
    (hkeys : ∀ k ∈ keys, k ∈ c.map)
    (hnodup : keys.Nodup) :
    ∃ c', RlsCache.cleanupLoop sz now keys c = some c' ∧ Inv sz c' ∧
      c'.lruKeys.Sublist c.lruKeys := by
  induction keys generalizing c with
  | nil => exact ⟨c, rfl, h, List.Sublist.refl _⟩
  | cons key keys ih =>
    obtain ⟨hnot, hnodup⟩ := nodup_cons.1 hnodup
    obtain ⟨entry, hentry⟩ := isSome_iff_exists.1
      (AList.lookup_isSome.2 (hkeys key mem_cons_self))
    rw [RlsCache.cleanupLoop, hentry, bind_some]
    split_ifs
    · obtain ⟨c₁, h₁, hinv, hlru, hmap, -⟩ := h.evict hentry
      obtain ⟨c', hc', hinv', hsub⟩ := ih hinv (fun k hk => by
        rw [hmap]
        exact AList.mem_erase.2 ⟨fun heq => hnot (heq ▸ hk), hkeys k (mem_cons_of_mem _ hk)⟩) hnodup
      refine ⟨c', by rw [h₁, bind_some, hc'], hinv', hsub.trans ?_⟩
      rw [hlru]
      exact erase_sublist
    · exact ih h (fun k hk => hkeys k (mem_cons_of_mem _ hk)) hnodup

end RlsCache

/-! ## Whole histories -/

namespace RlsCacheRun

variable {sz : RlsSizes} {s s' : RlsCacheRun} {call : RlsCall} {now : Int} {key : RequestKey}
  {c : RlsCache}

/-- The list is ordered by the last uses, all of which are in the past. -/
structure Inv (sz : RlsSizes) (s : RlsCacheRun) : Prop where
  cache : s.cache.Inv sz
  ordered : s.cache.lruKeys.Pairwise fun a b => s.lastUse a < s.lastUse b
  past : ∀ k ∈ s.cache.lruKeys, s.lastUse k < s.uses

theorem Inv.init : Inv sz {} := ⟨RlsCache.Inv.init, List.Pairwise.nil, fun _ h => (nomatch h)⟩

theorem Inv.correct (h : Inv sz s) : Correct sz s := ⟨h.cache.size, h.cache.keys, h.ordered⟩

theorem Inv.keep (h : Inv sz s) (hc : c.Inv sz) (hsub : c.lruKeys.Sublist s.cache.lruKeys)
    (now : Int) :
    Inv sz { s with cache := c, now := now } :=
  ⟨hc, h.ordered.sublist hsub, fun k hk => h.past k (hsub.subset hk)⟩

theorem Inv.use {keys : List RequestKey} (h : Inv sz s) (hc : c.Inv sz)
    (hkeys : c.lruKeys = keys ++ [key]) (hsub : keys.Sublist s.cache.lruKeys) (now : Int) :
    Inv sz (s.use now key c) := by
  have hnot (k : RequestKey) (hk : k ∈ keys) : k ≠ key := by
    have hnodup := hc.nodup
    rw [hkeys, nodup_append] at hnodup
    exact hnodup.2.2 k hk key (mem_singleton_self key)
  have hlast {k : RequestKey} (hk : k ∈ keys) : (s.use now key c).lastUse k = s.lastUse k :=
    if_neg (hnot k hk)
  have hself : (s.use now key c).lastUse key = s.uses := if_pos rfl
  refine ⟨hc, ?_, fun k hk => ?_⟩
  · show c.lruKeys.Pairwise _
    rw [hkeys, pairwise_append]
    refine ⟨(h.ordered.sublist hsub).imp_of_mem fun {a b} ha hb hab => ?_, pairwise_singleton _ _,
      fun a ha b hb => ?_⟩
    · rw [hlast ha, hlast hb]
      exact hab
    · rw [mem_singleton.1 hb, hlast ha, hself]
      exact h.past a (hsub.subset ha)
  · rw [show (s.use now key c).cache.lruKeys = keys ++ [key] from hkeys] at hk
    show _ < s.uses + 1
    rcases mem_append.1 hk with hk | hk
    · rw [hlast hk]
      exact Nat.lt_succ_of_lt (h.past k (hsub.subset hk))
    · rw [mem_singleton.1 hk, hself]
      exact Nat.lt_succ_self _

theorem Inv.insert (h : Inv sz s) (hnew : key ∉ s.cache.map)
    (hfits : ∀ s', s.step sz ⟨now, .findOrInsert key⟩ = some s' → s'.cache.bytes sz < 2 ^ 64) :
    ∃ s', s.step sz ⟨now, .findOrInsert key⟩ = some s' ∧ Inv sz s' ∧
      s.Limits sz ⟨now, .findOrInsert key⟩ := by
  obtain ⟨c, hc, hinv, hshrinks, hstop, hlimit, hlookup⟩ := h.cache.shrinkLoop now
    (s.cache.sizeLimit - min s.cache.sizeLimit (entrySizeForKey sz key)) (Nat.le_refl _)
  have hstep : s.step sz ⟨now, .findOrInsert key⟩ = some (s.use now key (c.insert sz now key)) := by
    simp only [step, RlsCache.findOrInsert, AList.lookup_eq_none.2 hnew,
      RlsCache.maybeShrinkSize, hc, map_some]
  have hnew' : key ∉ c.map := fun hmem => by
    have hsome := AList.lookup_isSome.2 hmem
    rw [hlookup key hmem, AList.lookup_isSome] at hsome
    exact hnew hsome
  have hfits' : (c.insert sz now key).bytes sz < 2 ^ 64 := hfits _ hstep
  have hinsert := hinv.insert hnew' now hfits'
  have hkeys : (c.insert sz now key).lruKeys = c.lruKeys ++ [key] := map_append
  obtain ⟨n, hdrop, -⟩ := id hshrinks
  refine ⟨_, hstep, h.use hinsert hkeys (by rw [hdrop]; exact drop_sublist n _) now, ?_⟩
  intro s' hs' _
  obtain rfl := some.inj (hstep.symm.trans hs')
  refine ⟨⟨c, hshrinks, hkeys⟩, ?_⟩
  show (c.size + entrySizeForKey sz key) % 2 ^ 64 ≤ c.sizeLimit ∨ (c.insert sz now key).Stuck now ∨
    c.sizeLimit < entrySizeForKey sz key
  rw [hlimit]
  rcases hstop with hsize | ⟨k, rest, hk, hyoung⟩
  · by_cases hlarge : s.cache.sizeLimit < entrySizeForKey sz key
    · exact .inr (.inr hlarge)
    · refine .inl ((Nat.mod_le _ _).trans ?_)
      omega
  · refine .inr (.inl ⟨k, rest ++ [key], by rw [hkeys, hk, cons_append], ?_⟩)
    -- the entry that is too young is not the new one
    rintro ⟨entry, hentry, hcan⟩
    have hkc : k ∈ c.map := hinv.mem_iff.1 (by rw [hk]; exact mem_cons_self)
    have hne : k ≠ key := fun heq => hnew' (heq ▸ hkc)
    exact hyoung ⟨entry, (AList.lookup_insert_ne hne).symm.trans hentry, hcan⟩

theorem Inv.exists_step (h : Inv sz s) (ha : s.Allowed sz call) :
    ∃ s', s.step sz call = some s' ∧ Inv sz s' ∧ s.Limits sz call := by
  obtain ⟨now, op⟩ := call
  obtain ⟨-, hresponse, hfits⟩ := ha
  cases op with
  | find key =>
    cases hentry : s.cache.map.lookup key with
    | none =>
      refine ⟨{ s with now := now }, ?_, h.keep h.cache (List.Sublist.refl _) now,
        fun _ _ => trivial⟩
      simp [step, RlsCache.find, hentry]
    | some entry =>
      obtain ⟨c, hc, hinv, hkeys, -⟩ := h.cache.markUsed hentry
      refine ⟨_, ?_, h.use hinv hkeys erase_sublist now, fun _ _ => trivial⟩
      simp [step, RlsCache.find, hentry, hc]
  | findOrInsert key =>
    cases hentry : s.cache.map.lookup key with
    | none => exact h.insert (AList.lookup_eq_none.1 hentry) hfits
    | some entry =>
      obtain ⟨c, hc, hinv, hkeys, -⟩ := h.cache.markUsed hentry
      refine ⟨_, ?_, h.use hinv hkeys erase_sublist now, fun _ _ hnew => (hnew ?_).elim⟩
      · simp only [step, RlsCache.findOrInsert, hentry, hc, map_some]
      · exact AList.lookup_isSome.1 (by rw [hentry]; rfl)
  | onRlsResponse key response =>
    obtain ⟨entry, hentry⟩ := isSome_iff_exists.1
      (AList.lookup_isSome.2 (hresponse key rfl))
    obtain ⟨c, hc, hinv, hkeys, hlookup⟩ := h.cache.markUsed hentry
    cases response with
    | failed time =>
      refine ⟨_, ?_, h.use (hinv.setEntry hlookup { entry with
        lruIterator := s.cache.nextNode, backoffExpirationTime := time } rfl) hkeys
        erase_sublist now, fun _ _ => trivial⟩
      simp [step, RlsCache.onRlsResponse, hentry, hc, hlookup]
    | succeeded maxAge =>
      refine ⟨_, ?_, h.use (hinv.setEntry hlookup { entry with
        lruIterator := s.cache.nextNode, dataExpirationTime := millisAdd now maxAge
        backoffExpirationTime := int64Min } rfl) hkeys erase_sublist now, fun _ _ => trivial⟩
      simp [step, RlsCache.onRlsResponse, hentry, hc, hlookup]
  | resize bytes =>
    have hinv₀ : RlsCache.Inv sz { s.cache with sizeLimit := bytes } := { h.cache with }
    obtain ⟨c, hc, hinv, hshrinks, hstop, hlimit, -⟩ := hinv₀.shrinkLoop now bytes (Nat.le_refl _)
    have hstep : s.step sz ⟨now, .resize bytes⟩ = some { s with cache := c, now := now } := by
      simp only [step, RlsCache.resize, RlsCache.maybeShrinkSize, hc, map_some]
    obtain ⟨n, hdrop, -⟩ := id hshrinks
    refine ⟨_, hstep, h.keep hinv (by rw [hdrop]; exact drop_sublist n _) now, fun s' hs' => ?_⟩
    obtain rfl := some.inj (hstep.symm.trans hs')
    refine ⟨hshrinks, ?_⟩
    show c.size ≤ c.sizeLimit ∨ c.Stuck now
    rwa [hlimit]
  | onCleanupTimer =>
    obtain ⟨c, hc, hinv, hsub⟩ := h.cache.cleanupLoop now
      (fun k hk => AList.mem_keys.2 hk) s.cache.map.keys_nodup
    refine ⟨_, ?_, h.keep hinv hsub now, fun _ _ => trivial⟩
    simp only [step, RlsCache.onCleanupTimer, hc, map_some]

/-- In every history with a clock that does not go back: every call goes through (no assertion
fails), the counter, the list and the map agree, and insertions and `Resize` evict from the least
recently used entry on, until the size is within the limit or the next entry is too young. -/
theorem cache_run_correct (calls : List RlsCall)
    (h : Run.Along (RlsCacheRun.step sz) (Allowed sz) {} calls) :
    (∃ s, Run.run (RlsCacheRun.step sz) {} calls = some s ∧ Correct sz s) ∧
      Run.Along (RlsCacheRun.step sz) (Limits sz) {} calls := by
  constructor
  · obtain ⟨s, hrun, hinv⟩ := h.exists_run (fun s call hs ha =>
      (hs.exists_step ha).imp fun _ h => ⟨h.1, h.2.1⟩) Inv.init
    exact ⟨s, hrun, hinv.correct⟩
  · intro pre call post s hcalls hpre
    have hinv := Run.run_invariant (h.mono (hcalls ▸ prefix_append _ _)) hpre
      (fun s call s' hs ha hstep => by
        obtain ⟨s₁, h₁, hinv, -⟩ := hs.exists_step ha
        obtain rfl := some.inj (h₁.symm.trans hstep)
        exact hinv) Inv.init
    obtain ⟨-, -, -, hlimits⟩ := hinv.exists_step (h pre call post s hcalls hpre)
    exact hlimits

/-- The second insertion evicts the first entry, which is old enough. -/
theorem cache_run_correct_two_entries : ∃ s, Run.run (RlsCacheRun.step ⟨48, 200⟩) {}
    [⟨0, .resize 300⟩, ⟨0, .findOrInsert ⟨[("a", "1")]⟩⟩,
      ⟨0, .onRlsResponse ⟨[("a", "1")]⟩ (.succeeded 1000)⟩, ⟨6000, .findOrInsert ⟨[("a", "2")]⟩⟩,
      ⟨7000, .find ⟨[("a", "2")]⟩⟩, ⟨60000, .onCleanupTimer⟩] = some s ∧ Correct ⟨48, 200⟩ s :=
  (cache_run_correct _ (by decide +kernel)).1

/-- The second entry is inserted while the first one is too young. Later the first one is found: the
size is above the limit, and the second entry, now the least recently used one, could be evicted. -/
theorem hit_does_not_shrink :
    Run.Along (RlsCacheRun.step ⟨48, 200⟩) (Allowed ⟨48, 200⟩) {}
      [⟨0, .resize 300⟩, ⟨0, .findOrInsert ⟨[("a", "1")]⟩⟩, ⟨1000, .findOrInsert ⟨[("a", "2")]⟩⟩,
        ⟨10000, .findOrInsert ⟨[("a", "1")]⟩⟩] ∧
    (Run.run (RlsCacheRun.step ⟨48, 200⟩) {}
      [⟨0, .resize 300⟩, ⟨0, .findOrInsert ⟨[("a", "1")]⟩⟩, ⟨1000, .findOrInsert ⟨[("a", "2")]⟩⟩,
        ⟨10000, .findOrInsert ⟨[("a", "1")]⟩⟩]).map (fun s =>
          (s.cache.size, s.cache.sizeLimit, s.cache.lruKeys,
            (s.cache.map.lookup ⟨[("a", "2")]⟩).map (·.canEvict 10000))) =
      some (600, 300, [⟨[("a", "2")]⟩, ⟨[("a", "1")]⟩], some true) ∧
    entrySizeForKey ⟨48, 200⟩ ⟨[("a", "1")]⟩ = 300 := by
  refine ⟨by decide +kernel, by decide +kernel, by decide +kernel⟩

end RlsCacheRun

end GrpcCore
