import Mathlib.Data.List.Nodup
import Mathlib.Data.List.Perm.Subperm

/-!
# Doubly linked lists

A head, a tail and the two links of each node. `Links.Holds L l` says that the links describe the
list `l` in both directions; removing a node anywhere and adding one at an end keep it
(`Holds.remove`, `Holds.pushFront`, `Holds.pushBack`). The backward links describe the reversed list
as the forward links describe the list (`Follows`), so that each write needs one argument only.
-/

namespace Linked

open List Function

variable {α : Type*} [DecidableEq α] {f g : α → Option α} {x : α} {l pre post : List α}

/-! ## One direction -/

/-- Every node of the list is followed by the next one. -/
def Follows (f : α → Option α) : List α → Prop
  | [] => True
  | x :: l => f x = l.head? ∧ Follows f l

omit [DecidableEq α] in
/-- Only the links of the nodes count. -/
theorem Follows.congr (h : Follows f l) (hfg : ∀ y ∈ l, g y = f y) : Follows g l := by
  induction l with
  | nil => trivial
  | cons y l ih =>
    refine ⟨(hfg y mem_cons_self).trans h.1, ih h.2 fun z hz => ?_⟩
    exact hfg z (mem_cons_of_mem y hz)

omit [DecidableEq α] in
/-- The link of a node inside the list. -/
theorem Follows.apply (h : Follows f (pre ++ x :: post)) : f x = post.head? := by
  induction pre with
  | nil => exact h.1
  | cons y pre ih => exact ih h.2

/-- The link of a node outside the list may be written. -/
theorem Follows.update_of_not_mem (h : Follows f l) (hx : x ∉ l) (v : Option α) :
    Follows (update f x v) l :=
  h.congr fun _ hy => update_of_ne (ne_of_mem_of_not_mem hy hx) v f

/-- A node is put in front. -/
theorem Follows.cons (h : Follows f l) (hx : x ∉ l) :
    Follows (update f x l.head?) (x :: l) :=
  ⟨update_self x _ f, h.update_of_not_mem hx _⟩

/-- The link of the last node, if there is one, is written. -/
def writeLast (f : α → Option α) (l : List α) (v : Option α) : α → Option α :=
  match l.getLast? with
  | none => f
  | some y => update f y v

/-- The other links stay. -/
theorem writeLast_of_not_mem (hx : x ∉ l) (v : Option α) : writeLast f l v x = f x := by
  unfold writeLast
  cases hlast : l.getLast? with
  | none => rfl
  | some y =>
    exact update_of_ne (ne_of_mem_of_not_mem (mem_of_getLast? hlast) hx).symm v f

theorem writeLast_cons_cons (x y : α) (l : List α) (v : Option α) :
    writeLast f (x :: y :: l) v = writeLast f (y :: l) v := by
  simp only [writeLast, getLast?_cons_cons]

/-- A node is skipped: the link of the one before it is written. -/
theorem Follows.erase (h : Follows f (pre ++ x :: post)) (hnodup : (pre ++ x :: post).Nodup) :
    Follows (writeLast f pre post.head?) (pre ++ post) := by
  induction pre with
  | nil => exact h.2
  | cons y pre ih =>
    obtain ⟨hy, hrest⟩ := nodup_cons.1 hnodup
    cases pre with
    | nil =>
      have hpost : y ∉ post := fun hmem => hy (mem_cons_of_mem x hmem)
      exact h.2.2.cons hpost
    | cons z pre =>
      have hpre : y ∉ z :: pre := fun hmem => hy (mem_append_left _ hmem)
      rw [writeLast_cons_cons]
      refine ⟨?_, ih h.2 hrest⟩
      rw [writeLast_of_not_mem hpre]
      exact h.1

/-- A node is put behind the last one. -/
theorem Follows.concat (h : Follows f l) (hnodup : l.Nodup) (hx : x ∉ l) :
    Follows (update (writeLast f l (some x)) x none) (l ++ [x]) := by
  induction l with
  | nil =>
    refine ⟨?_, trivial⟩
    rw [update_self]
    rfl
  | cons y l ih =>
    obtain ⟨hy, hrest⟩ := nodup_cons.1 hnodup
    have hxy : y ≠ x := (ne_of_not_mem_cons hx).symm
    have hxl : x ∉ l := not_mem_of_not_mem_cons hx
    cases l with
    | nil =>
      refine ⟨?_, ?_, trivial⟩
      · rw [update_of_ne hxy]
        exact update_self y (some x) f
      · rw [update_self]
        rfl
    | cons z l =>
      rw [writeLast_cons_cons]
      refine ⟨?_, ih h.2 hrest hxl⟩
      rw [update_of_ne hxy, writeLast_of_not_mem hy]
      exact h.1

/-- Numbers below `n` that are all different are at most `n`. -/
theorem length_le_of_lt {l : List Nat} {n : Nat} (hnodup : l.Nodup) (h : ∀ x ∈ l, x < n) :
    l.length ≤ n := by
  have hsub : l ⊆ List.range n := fun x hx => mem_range.2 (h x hx)
  simpa using (subperm_of_subset hnodup hsub).length_le

/-! ## Both directions -/

/-- The ends of a list and the links of its nodes. -/
structure Links (α : Type*) where
  head : Option α := none
  tail : Option α := none
  next : α → Option α := fun _ => none
  prev : α → Option α := fun _ => none

namespace Links

/-- Take a node out: the links of its neighbours, or the ends of the list, are written in the order
of the usual code. -/
def remove (L : Links α) (x : α) : Links α :=
  let L : Links α :=
    match L.prev x with
    | none => { L with head := L.next x }
    | some p => { L with next := update L.next p (L.next x) }
  match L.next x with
  | none => { L with tail := L.prev x }
  | some n => { L with prev := update L.prev n (L.prev x) }

def pushFront (L : Links α) (x : α) : Links α :=
  match L.head with
  | none =>
    { head := some x
      tail := some x
      next := update L.next x none
      prev := update L.prev x none }
  | some h =>
    { head := some x
      tail := L.tail
      next := update L.next x (some h)
      prev := update (update L.prev h (some x)) x none }

def pushBack (L : Links α) (x : α) : Links α :=
  let L' : Links α :=
    { L with next := update L.next x none, prev := update L.prev x L.tail }
  match L.tail with
  | none => { L' with head := some x, tail := some x }
  | some t => { L' with next := update L'.next t (some x), tail := some x }

def popFront (L : Links α) (x : α) : Links α :=
  match L.next x with
  | none => { L with head := none, tail := none }
  | some n => { L with head := some n, prev := update L.prev n none }

omit [DecidableEq α] in
/-- The links describe the list in both directions. -/
structure Holds (L : Links α) (l : List α) : Prop where
  nodup : l.Nodup
  head : L.head = l.head?
  tail : L.tail = l.getLast?
  next : Follows L.next l
  prev : Follows L.prev l.reverse

variable {L : Links α}

omit [DecidableEq α] in
theorem holds_nil : (({} : Links α)).Holds [] := ⟨nodup_nil, rfl, rfl, trivial, trivial⟩

omit [DecidableEq α] in
/-- The backward links, around a node. -/
theorem Holds.reverse_eq (h : L.Holds (pre ++ x :: post)) :
    Follows L.prev (post.reverse ++ x :: pre.reverse) := by
  have hprev := h.prev
  rwa [reverse_append, reverse_cons, append_assoc, singleton_append] at hprev

omit [DecidableEq α] in
/-- The node after a node. -/
theorem Holds.next_eq (h : L.Holds (pre ++ x :: post)) : L.next x = post.head? := h.next.apply

omit [DecidableEq α] in
/-- The node before a node. -/
theorem Holds.prev_eq (h : L.Holds (pre ++ x :: post)) : L.prev x = pre.getLast? := by
  rw [h.reverse_eq.apply, head?_reverse]

/-- Whichever neighbours there are, `remove` writes the links or ends next to the node. -/
theorem Holds.remove_eq (h : L.Holds (pre ++ x :: post)) : L.remove x =
    { head := (pre ++ post).head?
      tail := (pre ++ post).getLast?
      next := writeLast L.next pre post.head?
      prev := writeLast L.prev post.reverse pre.reverse.head? } := by
  have hhead := h.head
  have htail := h.tail
  unfold Links.remove
  rw [h.prev_eq, h.next_eq, writeLast, writeLast, getLast?_reverse, head?_reverse]
  rcases pre.eq_nil_or_concat with rfl | ⟨pre, p, rfl⟩
  · simp only [getLast?_nil, h.next_eq]
    cases post with
    | nil => simp [h.prev_eq]
    | cons n post => simp [h.prev_eq, htail]
  · have hne : x ≠ p := by
      rintro rfl
      exact (nodup_append.1 h.nodup).2.2 x (by simp) x mem_cons_self rfl
    rw [concat_eq_append] at h hhead htail
    cases post with
    | nil => simp [h.prev_eq, h.next_eq, hhead, hne]
    | cons n post => simp [h.prev_eq, h.next_eq, hhead, htail, hne]

/-- `remove` takes the node out of the list. -/
theorem Holds.remove (h : L.Holds (pre ++ x :: post)) : (L.remove x).Holds (pre ++ post) := by
  rw [h.remove_eq]
  have hnodup : (post.reverse ++ x :: pre.reverse).Nodup := by
    have := nodup_reverse.2 h.nodup
    rwa [reverse_append, reverse_cons, append_assoc, singleton_append] at this
  refine ⟨?_, rfl, rfl, h.next.erase h.nodup, ?_⟩
  · exact h.nodup.sublist ((List.Sublist.refl pre).append (sublist_cons_self x post))
  · rw [reverse_append]
    exact h.reverse_eq.erase hnodup

/-- `pushFront` puts a new node in front. -/
theorem Holds.pushFront (h : L.Holds l) (hx : x ∉ l) : (L.pushFront x).Holds (x :: l) := by
  have hnodup : (x :: l).Nodup := nodup_cons.2 ⟨hx, h.nodup⟩
  have hnext := h.next.cons hx
  have hprev := h.prev.concat (nodup_reverse.2 h.nodup) (fun hmem => hx (mem_reverse.1 hmem))
  rw [writeLast, getLast?_reverse] at hprev
  rw [Links.pushFront, h.head]
  cases l with
  | nil => exact ⟨hnodup, rfl, rfl, hnext, hprev⟩
  | cons y l =>
    refine ⟨hnodup, rfl, ?_, hnext, ?_⟩
    · rw [getLast?_cons_cons]
      exact h.tail
    · rw [reverse_cons]
      exact hprev

/-- `pushBack` puts a new node at the end. -/
theorem Holds.pushBack (h : L.Holds l) (hx : x ∉ l) : (L.pushBack x).Holds (l ++ [x]) := by
  have hnodup : (l ++ [x]).Nodup := nodup_append.2 ⟨h.nodup, nodup_singleton x,
    fun a ha b hb hab => hx (mem_singleton.1 hb ▸ hab ▸ ha)⟩
  have hnext := h.next.concat h.nodup hx
  have hprev := h.prev.cons (fun hmem => hx (mem_reverse.1 hmem))
  have htail := h.tail
  rw [head?_reverse, ← reverse_concat] at hprev
  rw [writeLast] at hnext
  rw [Links.pushBack, htail]
  cases hlast : l.getLast? with
  | none =>
    obtain rfl := getLast?_eq_none_iff.1 hlast
    exact ⟨hnodup, rfl, rfl, hnext, hprev⟩
  | some t =>
    have hne : t ≠ x := ne_of_mem_of_not_mem (mem_of_getLast? hlast) hx
    rw [hlast] at hnext hprev
    refine ⟨hnodup, ?_, ?_, ?_, hprev⟩
    · rw [head?_append_of_ne_nil _ (fun hnil => by simp [hnil] at hlast)]
      exact h.head
    · rw [getLast?_concat]
    · show Follows (update (update L.next x none) t (some x)) (l ++ [x])
      rw [update_comm hne.symm]
      exact hnext

/-- `popFront` is the removal of the first node. -/
theorem Holds.popFront (h : L.Holds (x :: l)) : (L.popFront x).Holds l := by
  rw [← nil_append (x :: l)] at h
  have hprev : L.prev x = none := h.prev_eq
  have heq : L.popFront x = L.remove x := by
    rw [Links.popFront, Links.remove]
    cases hnext : L.next x <;> simp only [hprev, hnext]
  rw [heq]
  exact h.remove

end Links

end Linked
