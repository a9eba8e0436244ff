import GrpcCore.Lib.Linked
import GrpcCore.Lib.Run
import Mathlib.Data.List.AList

/-!
# The cache of SSL sessions

`SslSessionLRUCache` of `ssl_session_cache.cc`: a map from keys to nodes, and the nodes in a doubly
linked list, the most recently used one first. A node is a number, and the heap gives its contents
as long as it is not deleted; a failing assertion, or a node that is read after it was deleted, is
`none`.

The cache is an LRU map (`LruMap`): `SslSessionLRUCache.run_refines_lruMap` says that no call fails,
that every `Get` returns what the LRU map returns, and that the list holds the entries of the map in
the order of their last use.
-/

namespace GrpcCore

open List Function Option Linked AList

/-! ## LRU maps -/

/-- The entries, the most recently used one first. -/
abbrev LruMap (κ σ : Type*) := List (κ × σ)

namespace LruMap

variable {κ σ : Type*} [DecidableEq κ]

/-- Put a value under a key; when there are too many entries, the least recently used one goes. -/
def put (capacity : Nat) (m : LruMap κ σ) (key : κ) (value : σ) : LruMap κ σ :=
  ((key, value) :: m.filter (·.1 ≠ key)).take capacity

def get (m : LruMap κ σ) (key : κ) : LruMap κ σ × Option σ :=
  match m.find? (·.1 = key) with
  | none => (m, none)
  | some entry => (entry :: m.filter (·.1 ≠ key), some entry.2)

end LruMap

/-! ## The cache -/

/-- `SslSessionLRUCache::Node`, without its links. -/
structure SslNode (σ : Type) where
  key : String
  session : σ

/-- `SslSessionLRUCache`, with the nodes that are not deleted and the next one that is allocated. -/
structure SslSessionLRUCache (σ : Type) where
  capacity : Nat
  useOrderList : Links Nat := {}
  useOrderListSize : Nat := 0
  entryByKey : AList (fun _ : String => Nat) := ∅
  nodes : Nat → Option (SslNode σ) := fun _ => none
  nextNode : Nat := 0

namespace SslSessionLRUCache

variable {σ : Type}

def remove (c : SslSessionLRUCache σ) (node : Nat) : Option (SslSessionLRUCache σ) :=
  if 1 ≤ c.useOrderListSize then
    some { c with
      useOrderList := c.useOrderList.remove node
      useOrderListSize := c.useOrderListSize - 1 }
  else none

def pushFront (c : SslSessionLRUCache σ) (node : Nat) : SslSessionLRUCache σ :=
  { c with
    useOrderList := c.useOrderList.pushFront node
    useOrderListSize := c.useOrderListSize + 1 }

/-- The loop of `AssertInvariants`: the last node and the number of nodes. More rounds than the list
has nodes are not needed: a longer list fails the comparison of the sizes. -/
def assertLoop (c : SslSessionLRUCache σ) :
    Nat → Option Nat → Option Nat → Nat → Option (Option Nat × Nat)
  | _, prev, none, size => some (prev, size)
  | 0, _, some _, _ => none
  | fuel + 1, prev, some current, size =>
    if c.useOrderList.prev current = prev ∧
        (c.nodes current).bind (fun n => c.entryByKey.lookup n.key) = some current then
      assertLoop c fuel (some current) (c.useOrderList.next current) (size + 1)
    else none

def assertInvariants (c : SslSessionLRUCache σ) : Option (SslSessionLRUCache σ) :=
  (c.assertLoop (c.useOrderListSize + 1) none c.useOrderList.head 0).bind fun r =>
    if r.1 = c.useOrderList.tail ∧ r.2 = c.useOrderListSize ∧
        c.entryByKey.keys.length = c.useOrderListSize then
      some c
    else none

def findLocked (c : SslSessionLRUCache σ) (key : String) :
    Option (SslSessionLRUCache σ × Option Nat) :=
  match c.entryByKey.lookup key with
  | none => some (c, none)
  | some node =>
    (c.remove node).bind fun c => (c.pushFront node).assertInvariants.map fun c => (c, some node)

/-- The end of `Put`: the least recently used node is removed if there are too many. -/
def evict (c : SslSessionLRUCache σ) : Option (SslSessionLRUCache σ) :=
  if c.capacity < c.useOrderListSize then
    c.useOrderList.tail.bind fun node =>
      (c.remove node).bind fun c =>
        (c.nodes node).bind fun n =>
          assertInvariants { c with
            entryByKey := c.entryByKey.erase n.key
            nodes := update c.nodes node none }
  else some c

/-- A new node for a key that is not in the map. -/
def insert (c : SslSessionLRUCache σ) (key : String) (session : σ) : SslSessionLRUCache σ :=
  { c with
    useOrderList := c.useOrderList.pushFront c.nextNode
    useOrderListSize := c.useOrderListSize + 1
    entryByKey := c.entryByKey.insert key c.nextNode
    nodes := update c.nodes c.nextNode (some ⟨key, session⟩)
    nextNode := c.nextNode + 1 }

def put (c : SslSessionLRUCache σ) (key : String) (session : σ) : Option (SslSessionLRUCache σ) :=
  (c.findLocked key).bind fun r =>
    match r.2 with
    | some node =>
      (r.1.nodes node).map fun n =>
        { r.1 with nodes := update r.1.nodes node (some { n with session }) }
    | none => (r.1.insert key session).assertInvariants.bind evict

def get (c : SslSessionLRUCache σ) (key : String) : Option (SslSessionLRUCache σ × Option σ) :=
  (c.findLocked key).bind fun r =>
    match r.2 with
    | none => some (r.1, none)
    | some node => (r.1.nodes node).map fun n => (r.1, some n.session)

/-! ## The list and the map -/

/-- A node and its contents as an entry. -/
def entry (cell : Nat × SslNode σ) : String × σ := (cell.2.key, cell.2.session)

/-- The list holds the nodes of `cells`, and the map their keys. -/
structure Inv (c : SslSessionLRUCache σ) (cells : List (Nat × SslNode σ)) : Prop where
  list : c.useOrderList.Holds (cells.map Prod.fst)
  size : c.useOrderListSize = cells.length
  nodes : ∀ cell ∈ cells, c.nodes cell.1 = some cell.2
  fresh : ∀ cell ∈ cells, cell.1 < c.nextNode
  keys : (cells.map (·.2.key)).Nodup
  lookup : ∀ key node, c.entryByKey.lookup key = some node ↔ ∃ n, (node, n) ∈ cells ∧ n.key = key
  count : c.entryByKey.keys.length = cells.length

variable {c : SslSessionLRUCache σ} {cells pre post : List (Nat × SslNode σ)}
  {cell : Nat × SslNode σ}
  {key : String} {session : σ}

theorem inv_init (capacity : Nat) : Inv ({ capacity } : SslSessionLRUCache σ) [] where
  list := Links.holds_nil
  size := rfl
  nodes := fun _ h => (nomatch h)
  fresh := fun _ h => (nomatch h)
  keys := nodup_nil
  lookup := fun _ _ => ⟨fun h => (nomatch h), fun ⟨_, h, _⟩ => (nomatch h)⟩
  count := rfl

/-- The loop of `AssertInvariants` walks over the whole list. -/
theorem Inv.assertLoop_eq (h : Inv c cells) (pre : List (Nat × SslNode σ))
    (hcells : cells = pre ++ post) {fuel : Nat} (hfuel : post.length ≤ fuel) :
    c.assertLoop fuel (pre.map Prod.fst).getLast? (post.map Prod.fst).head? pre.length =
      some ((cells.map Prod.fst).getLast?, cells.length) := by
  induction post generalizing pre fuel with
  | nil =>
    rw [append_nil] at hcells
    cases fuel <;> rw [hcells] <;> rfl
  | cons cell post ih =>
    obtain ⟨fuel, rfl⟩ : ∃ n, fuel = n + 1 := ⟨fuel - 1, by simp at hfuel; omega⟩
    have hmem : cell ∈ cells := by simp [hcells]
    have hlist : c.useOrderList.Holds (pre.map Prod.fst ++ cell.1 :: post.map Prod.fst) := by
      have := h.list
      rwa [hcells, map_append, map_cons] at this
    have hlookup : c.entryByKey.lookup cell.2.key = some cell.1 :=
      (h.lookup _ _).2 ⟨cell.2, hmem, rfl⟩
    have hnext := ih (pre ++ [cell]) (by simp [hcells]) (Nat.le_of_succ_le_succ hfuel)
    rw [map_append, getLast?_append, length_append] at hnext
    rw [map_cons, head?_cons, assertLoop, if_pos, hlist.next_eq]
    · exact hnext
    · refine ⟨hlist.prev_eq, ?_⟩
      rw [h.nodes cell hmem]
      exact hlookup

theorem Inv.assertInvariants (h : Inv c cells) : c.assertInvariants = some c := by
  have hloop := h.assertLoop_eq [] rfl (Nat.le_succ cells.length)
  rw [SslSessionLRUCache.assertInvariants, h.size, h.list.head]
  simp only [map_nil, getLast?_nil, length_nil] at hloop
  rw [hloop, bind_some, if_pos ⟨h.list.tail.symm, rfl, h.count⟩]

theorem Inv.holds (h : Inv c (pre ++ cell :: post)) :
    c.useOrderList.Holds (pre.map Prod.fst ++ cell.1 :: post.map Prod.fst) := by
  have hlist := h.list
  rwa [map_append, map_cons] at hlist

/-- A node is moved to the front. -/
theorem Inv.promote (h : Inv c (pre ++ cell :: post)) :
    ∃ c', c.remove cell.1 = some c' ∧ Inv (c'.pushFront cell.1) (cell :: (pre ++ post)) ∧
      (c'.pushFront cell.1).capacity = c.capacity := by
  have hperm : (cell :: (pre ++ post)).Perm (pre ++ cell :: post) := perm_middle.symm
  have hmem : ∀ {x}, x ∈ cell :: (pre ++ post) ↔ x ∈ pre ++ cell :: post := hperm.mem_iff
  have hsize := h.size
  rw [length_append, length_cons] at hsize
  have hrest : cell.1 ∉ pre.map Prod.fst ++ post.map Prod.fst := by
    have hnodup := h.holds.nodup
    exact (nodup_cons.1 (perm_middle.nodup_iff.1 hnodup)).1
  refine ⟨_, if_pos (by omega), ⟨?_, ?_, ?_, ?_, ?_, ?_, ?_⟩, rfl⟩
  · rw [map_cons, map_append]
    exact h.holds.remove.pushFront hrest
  · simp only [pushFront, hsize, length_cons, length_append]
    omega
  · exact fun x hx => h.nodes x (hmem.1 hx)
  · exact fun x hx => h.fresh x (hmem.1 hx)
  · exact (hperm.map _).nodup_iff.2 h.keys
  · intro key node
    simp only [hmem]
    exact h.lookup key node
  · rw [hperm.length_eq]
    exact h.count

theorem Inv.split (h : Inv c cells) {node : Nat} (hlookup : c.entryByKey.lookup key = some node) :
    ∃ pre n post, cells = pre ++ (node, n) :: post ∧ n.key = key ∧
      ∀ x ∈ pre ++ post, x.2.key ≠ key := by
  obtain ⟨n, hmem, hkey⟩ := (h.lookup key node).1 hlookup
  obtain ⟨pre, post, rfl⟩ := append_of_mem hmem
  refine ⟨pre, n, post, rfl, hkey, fun x hx heq => ?_⟩
  have hnodup := (perm_middle.map _).nodup_iff.1 h.keys
  refine (nodup_cons.1 hnodup).1 ?_
  exact mem_map.2 ⟨x, hx, heq.trans hkey.symm⟩

theorem Inv.not_mem (h : Inv c cells) (hlookup : c.entryByKey.lookup key = none) :
    ∀ x ∈ cells, x.2.key ≠ key := by
  intro x hx heq
  have hsome := (h.lookup key x.1).2 ⟨x.2, hx, heq⟩
  rw [hlookup] at hsome
  cases hsome

/-- `FindLocked` finds no node of the key, or moves it to the front. -/
theorem Inv.findLocked (h : Inv c cells) (key : String) :
    (c.findLocked key = some (c, none) ∧ ∀ x ∈ cells, x.2.key ≠ key) ∨
    ∃ pre n post node c', cells = pre ++ (node, n) :: post ∧ n.key = key ∧
      (∀ x ∈ pre ++ post, x.2.key ≠ key) ∧ c.findLocked key = some (c', some node) ∧
      Inv c' ((node, n) :: (pre ++ post)) ∧ c'.capacity = c.capacity := by
  unfold SslSessionLRUCache.findLocked
  cases hlookup : c.entryByKey.lookup key with
  | none => exact .inl ⟨rfl, h.not_mem hlookup⟩
  | some node =>
    obtain ⟨pre, n, post, rfl, hkey, hother⟩ := h.split hlookup
    obtain ⟨c', hremove, hinv, hcapacity⟩ := h.promote
    refine .inr ⟨pre, n, post, node, _, rfl, hkey, hother, ?_, hinv, hcapacity⟩
    simp only [hremove, bind_some, hinv.assertInvariants, map_some]

/-- The session of the first node is replaced. -/
theorem Inv.setSession {node : Nat} {n : SslNode σ} (h : Inv c ((node, n) :: post)) (session : σ) :
    Inv { c with nodes := update c.nodes node (some { n with session }) }
      ((node, { n with session }) :: post) where
  list := h.list
  size := h.size
  nodes := by
    intro x hx
    rcases mem_cons.1 hx with rfl | hx
    · exact update_self ..
    · have hne : x.1 ≠ node := fun heq =>
        (nodup_cons.1 h.list.nodup).1 (mem_map.2 ⟨x, hx, heq⟩)
      rw [← h.nodes x (mem_cons_of_mem _ hx)]
      exact update_of_ne hne ..
  fresh := by
    intro x hx
    rcases mem_cons.1 hx with rfl | hx
    · exact h.fresh (node, n) mem_cons_self
    · exact h.fresh x (mem_cons_of_mem _ hx)
  keys := h.keys
  lookup := by
    intro key a
    rw [h.lookup]
    simp only [mem_cons, Prod.mk.injEq]
    constructor <;> rintro ⟨m, ⟨rfl, rfl⟩ | hm, hkey⟩
    · exact ⟨_, .inl ⟨rfl, rfl⟩, hkey⟩
    · exact ⟨m, .inr hm, hkey⟩
    · exact ⟨_, .inl ⟨rfl, rfl⟩, hkey⟩
    · exact ⟨m, .inr hm, hkey⟩
  count := h.count

/-- A node for a new key is put in front. -/
theorem Inv.insert (h : Inv c cells) (hkey : ∀ x ∈ cells, x.2.key ≠ key) (session : σ) :
    Inv (c.insert key session) ((c.nextNode, ⟨key, session⟩) :: cells) := by
  have hnode : ∀ x ∈ cells, x.1 ≠ c.nextNode := fun x hx => Nat.ne_of_lt (h.fresh x hx)
  have hnone : key ∉ c.entryByKey := by
    rw [← lookup_isSome]
    intro hsome
    obtain ⟨node, hnode⟩ := isSome_iff_exists.1 hsome
    obtain ⟨n, hmem, hn⟩ := (h.lookup key node).1 hnode
    exact hkey _ hmem hn
  refine ⟨?_, ?_, ?_, ?_, ?_, ?_, ?_⟩
  · refine h.list.pushFront fun hmem => ?_
    obtain ⟨x, hx, heq⟩ := mem_map.1 hmem
    exact hnode x hx heq
  · simp only [SslSessionLRUCache.insert, h.size, length_cons]
  · intro x hx
    rcases mem_cons.1 hx with rfl | hx
    · exact update_self ..
    · rw [← h.nodes x hx]
      exact update_of_ne (hnode x hx) ..
  · intro x hx
    rcases mem_cons.1 hx with rfl | hx
    · exact Nat.lt_succ_self _
    · exact Nat.lt_succ_of_lt (h.fresh x hx)
  · refine nodup_cons.2 ⟨fun hmem => ?_, h.keys⟩
    obtain ⟨x, hx, heq⟩ := mem_map.1 hmem
    exact hkey x hx heq
  · intro k node
    simp only [SslSessionLRUCache.insert, mem_cons, Prod.mk.injEq]
    by_cases hk : k = key
    · subst hk
      rw [lookup_insert]
      constructor
      · rintro ⟨⟩
        exact ⟨_, .inl ⟨rfl, rfl⟩, rfl⟩
      · rintro ⟨n, ⟨rfl, -⟩ | hmem, hn⟩
        · rfl
        · exact absurd hn (hkey _ hmem)
    · rw [lookup_insert_ne hk, h.lookup]
      constructor
      · rintro ⟨n, hmem, hn⟩
        exact ⟨n, .inr hmem, hn⟩
      · rintro ⟨n, ⟨-, rfl⟩ | hmem, hn⟩
        · exact absurd hn.symm hk
        · exact ⟨n, hmem, hn⟩
  · simp only [SslSessionLRUCache.insert, keys_insert, length_cons,
      erase_of_not_mem (fun hmem => hnone (mem_keys.1 hmem)), h.count]

/-- Above the capacity the last node goes. -/
theorem Inv.evict (h : Inv c (pre ++ [cell])) (hfull : c.capacity < c.useOrderListSize) :
    ∃ c', c.evict = some c' ∧ Inv c' pre ∧ c'.capacity = c.capacity := by
  have hmem : ∀ {x}, x ∈ pre → x ∈ pre ++ [cell] := mem_append_left _
  have hcell : cell ∈ pre ++ [cell] := mem_append_right _ mem_cons_self
  have hnodup := (nodup_cons.1 (perm_middle.nodup_iff.1 h.holds.nodup)).1
  have hkeys := (nodup_cons.1 ((perm_middle.map _).nodup_iff.1 h.keys)).1
  rw [map_nil, append_nil] at hnodup
  rw [append_nil] at hkeys
  have hne : ∀ x ∈ pre, x.1 ≠ cell.1 := fun x hx heq => hnodup (mem_map.2 ⟨x, hx, heq⟩)
  have hkey : ∀ x ∈ pre, x.2.key ≠ cell.2.key := fun x hx heq => hkeys (mem_map.2 ⟨x, hx, heq⟩)
  have hsize := h.size
  have hcount := h.count
  rw [length_append, length_singleton] at hsize hcount
  have hlookup := (h.lookup cell.2.key cell.1).2 ⟨cell.2, hcell, rfl⟩
  set c' : SslSessionLRUCache σ := { c with
    useOrderList := c.useOrderList.remove cell.1
    useOrderListSize := c.useOrderListSize - 1
    entryByKey := c.entryByKey.erase cell.2.key
    nodes := update c.nodes cell.1 none } with hc'
  have hinv : Inv c' pre := by
    refine ⟨?_, ?_, ?_, fun x hx => h.fresh x (hmem hx), ?_, ?_, ?_⟩
    · have hlist := h.holds.remove
      rwa [map_nil, append_nil] at hlist
    · simp only [hc', hsize, Nat.add_sub_cancel]
    · intro x hx
      rw [← h.nodes x (hmem hx)]
      exact update_of_ne (hne x hx) ..
    · exact h.keys.sublist ((sublist_append_left pre [cell]).map _)
    · intro k node
      by_cases hk : k = cell.2.key
      · rw [hk, lookup_erase]
        constructor
        · intro hnone
          cases hnone
        · rintro ⟨n, hn, heq⟩
          exact absurd heq (hkey _ hn)
      · rw [lookup_erase_ne hk, h.lookup]
        simp only [mem_append, mem_singleton]
        constructor
        · rintro ⟨n, hn | rfl, heq⟩
          · exact ⟨n, hn, heq⟩
          · exact absurd heq.symm hk
        · rintro ⟨n, hn, heq⟩
          exact ⟨n, .inl hn, heq⟩
    · have hkeymem : cell.2.key ∈ c.entryByKey.keys :=
        mem_keys.2 (lookup_isSome.1 (isSome_of_eq_some hlookup))
      rw [keys_erase, length_erase_of_mem hkeymem, hcount, Nat.add_sub_cancel]
  refine ⟨c', ?_, hinv, rfl⟩
  have htail : c.useOrderList.tail = some cell.1 := by
    rw [h.list.tail, map_append, getLast?_append]
    rfl
  rw [SslSessionLRUCache.evict, if_pos hfull, htail, bind_some, SslSessionLRUCache.remove,
    if_pos (by omega), bind_some]
  simp only [h.nodes cell hcell, bind_some]
  exact hinv.assertInvariants

/-! ## Calls -/

theorem filter_entry (hother : ∀ x ∈ cells, x.2.key ≠ key) :
    (cells.map entry).filter (·.1 ≠ key) = cells.map entry := by
  refine filter_eq_self.2 fun e he => ?_
  obtain ⟨x, hx, rfl⟩ := mem_map.1 he
  exact decide_eq_true (hother x hx)

theorem filter_entry_split (cell : Nat × SslNode σ)
    (hother : ∀ x ∈ pre ++ post, x.2.key ≠ cell.2.key) :
    ((pre ++ cell :: post).map entry).filter (·.1 ≠ cell.2.key) = (pre ++ post).map entry := by
  have hpre := filter_entry fun x hx => hother x (mem_append_left post hx)
  have hpost := filter_entry fun x hx => hother x (mem_append_right pre hx)
  have hcell : decide ((entry cell).1 ≠ cell.2.key) = false := decide_eq_false fun h => h rfl
  rw [map_append, map_cons, filter_append, filter_cons, hcell, hpre, hpost,
    map_append]
  rfl

theorem find_entry (hother : ∀ x ∈ cells, x.2.key ≠ key) :
    (cells.map entry).find? (·.1 = key) = none := by
  refine find?_eq_none.2 fun e he => ?_
  obtain ⟨x, hx, rfl⟩ := mem_map.1 he
  exact fun h => hother x hx (of_decide_eq_true h)

theorem find_entry_split (cell : Nat × SslNode σ)
    (hother : ∀ x ∈ pre ++ post, x.2.key ≠ cell.2.key) :
    ((pre ++ cell :: post).map entry).find? (·.1 = cell.2.key) = some (entry cell) := by
  have hpre := find_entry fun x hx => hother x (mem_append_left post hx)
  have hcell : decide ((entry cell).1 = cell.2.key) = true := decide_eq_true rfl
  rw [map_append, map_cons, find?_append, hpre, find?_cons, hcell]
  rfl

/-- `Put` does what an LRU map does. -/
theorem Inv.put (h : Inv c cells) (hlength : cells.length ≤ c.capacity)
    (key : String) (session : σ) :
    ∃ c' cells', c.put key session = some c' ∧ Inv c' cells' ∧ c'.capacity = c.capacity ∧
      cells'.map entry = LruMap.put c.capacity (cells.map entry) key session := by
  unfold SslSessionLRUCache.put LruMap.put
  obtain ⟨hfind, hother⟩ | ⟨pre, n, post, node, c', rfl, rfl, hother, hfind, hinv, hcap⟩ :=
    h.findLocked key
  · have hinsert := h.insert hother session
    rw [hfind, bind_some, filter_entry hother]
    simp only [hinsert.assertInvariants, bind_some]
    by_cases hfull : (c.insert key session).capacity < (c.insert key session).useOrderListSize
    · obtain hnil | ⟨front, last, hlast⟩ := eq_nil_or_concat'
        ((c.nextNode, SslNode.mk key session) :: cells)
      · cases hnil
      have hfront : front.length = c.capacity := by
        have hsome : c.capacity < c.useOrderListSize + 1 := hfull
        have hsize := congrArg List.length hlast
        rw [length_append, length_singleton, length_cons] at hsize
        rw [h.size] at hsome
        omega
      rw [hlast] at hinsert
      obtain ⟨c', hevict, hinv, hcap⟩ := hinsert.evict hfull
      refine ⟨c', front, hevict, hinv, hcap, ?_⟩
      have hmap : (key, session) :: cells.map entry = front.map entry ++ [entry last] := by
        have := congrArg (List.map entry) hlast
        rwa [map_append, map_cons] at this
      rw [hmap, ← hfront, ← length_map (f := entry), take_left]
    · refine ⟨c.insert key session, _, if_neg hfull, hinsert, rfl, ?_⟩
      have hnotFull : ¬ c.capacity < c.useOrderListSize + 1 := hfull
      rw [h.size] at hnotFull
      rw [take_of_length_le]
      · rfl
      · rw [length_cons, length_map]
        omega
  · rw [hfind, bind_some]
    simp only [hinv.nodes (node, n) mem_cons_self, map_some]
    refine ⟨_, _, rfl, hinv.setSession session, hcap, ?_⟩
    rw [filter_entry_split (node, n) hother, take_of_length_le]
    · rfl
    · rw [length_append, length_cons] at hlength
      rw [length_cons, length_map, length_append]
      omega

/-- `Get` does what an LRU map does. -/
theorem Inv.get (h : Inv c cells) (key : String) :
    ∃ c' cells' found, c.get key = some (c', found) ∧ Inv c' cells' ∧ cells'.Perm cells ∧
      c'.capacity = c.capacity ∧ LruMap.get (cells.map entry) key = (cells'.map entry, found) := by
  unfold SslSessionLRUCache.get LruMap.get
  obtain ⟨hfind, hother⟩ | ⟨pre, n, post, node, c', rfl, rfl, hother, hfind, hinv, hcap⟩ :=
    h.findLocked key
  · refine ⟨c, cells, none, by rw [hfind]; rfl, h, .refl cells, rfl, ?_⟩
    rw [find_entry hother]
  · refine ⟨c', _, some n.session, ?_, hinv, perm_middle.symm, hcap, ?_⟩
    · rw [hfind, bind_some]
      simp only [hinv.nodes (node, n) mem_cons_self, map_some]
    · rw [find_entry_split (node, n) hother, filter_entry_split (node, n) hother]
      rfl

end SslSessionLRUCache

/-! ## Runs -/

inductive SslOp (σ : Type) where
  | put (key : String) (session : σ)
  | get (key : String)

/-- The cache and what its calls of `Get` have returned. -/
structure SslRun (σ : Type) where
  cache : SslSessionLRUCache σ
  gets : List (Option σ) := []

namespace SslSessionLRUCache

variable {σ : Type}

def create (capacity : Nat) : Option (SslRun σ) :=
  if 0 < capacity then some { cache := { capacity } } else none

def step (s : SslRun σ) : SslOp σ → Option (SslRun σ)
  | .put key session => (s.cache.put key session).map fun c => { s with cache := c }
  | .get key => (s.cache.get key).map fun r => { cache := r.1, gets := s.gets ++ [r.2] }

/-- The calls on an LRU map, with what `get` has returned. -/
def lruStep (capacity : Nat) (t : LruMap String σ × List (Option σ)) :
    SslOp σ → LruMap String σ × List (Option σ)
  | .put key session => (LruMap.put capacity t.1 key session, t.2)
  | .get key => ((LruMap.get t.1 key).1, t.2 ++ [(LruMap.get t.1 key).2])

/-- The cache holds the entries of the LRU map, in the same order. -/
structure Refines (n : Nat) (s : SslRun σ) (t : LruMap String σ × List (Option σ)) : Prop where
  capacity : s.cache.capacity = n
  cells : ∃ cells, Inv s.cache cells ∧ cells.map entry = t.1
  length : t.1.length ≤ n
  gets : s.gets = t.2

/-- A call keeps the cache and the LRU map together. -/
theorem Refines.step {capacity : Nat} {s : SslRun σ} {t : LruMap String σ × List (Option σ)}
    (h : Refines capacity s t) (op : SslOp σ) :
    ∃ s', step s op = some s' ∧ Refines capacity s' (lruStep capacity t op) := by
  obtain ⟨rfl, ⟨cells, hinv, hcells⟩, hlength, hgets⟩ := h
  cases op with
  | put key session =>
    rw [← hcells, length_map] at hlength
    obtain ⟨c', cells', hput, hinv', hcap, hmap⟩ := hinv.put hlength key session
    refine ⟨{ s with cache := c' }, ?_, hcap, ⟨cells', hinv', ?_⟩, length_take_le _ _, hgets⟩
    · rw [SslSessionLRUCache.step, hput]
      rfl
    · rw [hmap, hcells]
      rfl
  | get key =>
    obtain ⟨c', cells', found, hget, hinv', hperm, hcap, hmap⟩ := hinv.get key
    rw [hcells] at hmap
    refine ⟨{ cache := c', gets := s.gets ++ [found] }, ?_, hcap, ⟨cells', hinv', ?_⟩, ?_, ?_⟩
    · rw [SslSessionLRUCache.step, hget]
      rfl
    · rw [lruStep, hmap]
    · rw [lruStep, hmap, (hperm.map entry).length_eq, hcells]
      exact hlength
    · rw [lruStep, hmap, hgets]

/-- In every run no assertion fails, `Get` returns what an LRU map returns, and the list and the map
hold the entries of the LRU map in the order of their last use. -/
theorem run_refines_lruMap (capacity : Nat) (hcapacity : 0 < capacity) (ops : List (SslOp σ)) :
    ∃ s₀ s, create capacity = some s₀ ∧ Run.run step s₀ ops = some s ∧
      Refines capacity s (ops.foldl (lruStep capacity) ([], [])) := by
  have hrefines : Refines capacity ({ cache := { capacity } } : SslRun σ) ([], []) :=
    ⟨rfl, ⟨[], inv_init capacity, rfl⟩, Nat.zero_le _, rfl⟩
  have htrue : Run.Along step (fun _ _ => True) ({ cache := { capacity } } : SslRun σ) ops :=
    fun _ _ _ _ _ _ => trivial
  obtain ⟨s, hrun, hs⟩ := Run.run_simulates htrue (fun s t op h _ => h.step op) hrefines
  exact ⟨_, s, if_pos hcapacity, hrun, hs⟩

/-- With room for two sessions, the use of the first one makes the second one go. -/
theorem run_refines_lruMap_of_two : ∃ s₀ s : SslRun Nat, create 2 = some s₀ ∧
    Run.run step s₀ [.put "a" 1, .put "b" 2, .get "a", .put "c" 3, .get "b", .put "a" 4, .get "a"] =
      some s ∧ s.gets = [some 1, none, some 4] := by
  obtain ⟨s₀, s, hcreate, hrun, hs⟩ := run_refines_lruMap 2 (by decide)
    [SslOp.put "a" 1, .put "b" 2, .get "a", .put "c" 3, .get "b", .put "a" 4, .get "a"]
  exact ⟨s₀, s, hcreate, hrun, hs.gets.trans (by decide)⟩

end SslSessionLRUCache

end GrpcCore
