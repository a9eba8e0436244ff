import Mathlib.Data.List.Forall2
import Mathlib.Data.List.GetD
import Mathlib.Order.Lattice
import GrpcCore.Lib.Run

/-!
# AVL trees

`AVL` (`avl.h`) is a persistent ordered map: `Add` and `Remove` build a new tree that shares its
unchanged parts with the old one, which its owners keep. Every node stores its height, and
`Rebalance` restores the balance on the way up from a changed child.

A null pointer that is dereferenced is a `none`. The functions that call `Rebalance` are written for
any function in its place, so that one can ask with which arguments it is called
(`rebalanceWithin`). `AVL<K, void>` is the same code for nodes without a value, the case `V = Unit`.
-/

namespace GrpcCore.Avl

open List Option Run

/-- `NodePtr`: null, or a node with its key, value, children and height. -/
inductive NodePtr (K V : Type*) where
  | null
  | node (key : K) (value : V) (left right : NodePtr K V) (height : Int)

namespace NodePtr

variable {K V S : Type*}

/-- `ForEachImpl`; the function works on a state. -/
def forEach (f : S → K → V → S) : S → NodePtr K V → S
  | s, null => s
  | s, node key value left right _ => forEach f (f (forEach f s left) key value) right

def height : NodePtr K V → Int
  | null => 0
  | node _ _ _ _ h => h

def makeNode (key : K) (value : V) (left right : NodePtr K V) : NodePtr K V :=
  node key value left right (1 + max left.height right.height)

def rotateLeft (key : K) (value : V) (left : NodePtr K V) : NodePtr K V → Option (NodePtr K V)
  | null => none
  | node rkey rvalue rleft rright _ =>
    some (makeNode rkey rvalue (makeNode key value left rleft) rright)

def rotateRight (key : K) (value : V) (left right : NodePtr K V) : Option (NodePtr K V) :=
  match left with
  | null => none
  | node lkey lvalue lleft lright _ =>
    some (makeNode lkey lvalue lleft (makeNode key value lright right))

def rotateLeftRight (key : K) (value : V) (left right : NodePtr K V) : Option (NodePtr K V) :=
  match left with
  | node lkey lvalue lleft (node mkey mvalue mleft mright _) _ =>
    some (makeNode mkey mvalue (makeNode lkey lvalue lleft mleft) (makeNode key value mright right))
  | _ => none

def rotateRightLeft (key : K) (value : V) (left right : NodePtr K V) : Option (NodePtr K V) :=
  match right with
  | node rkey rvalue (node mkey mvalue mleft mright _) rright _ =>
    some (makeNode mkey mvalue (makeNode key value left mleft) (makeNode rkey rvalue mright rright))
  | _ => none

def rebalance (key : K) (value : V) (left right : NodePtr K V) : Option (NodePtr K V) :=
  if left.height - right.height = 2 then
    match left with
    | null => none
    | node _ _ lleft lright _ =>
      if lleft.height - lright.height = -1 then rotateLeftRight key value left right
      else rotateRight key value left right
  else if left.height - right.height = -2 then
    match right with
    | null => none
    | node _ _ rleft rright _ =>
      if rleft.height - rright.height = 1 then rotateRightLeft key value left right
      else rotateLeft key value left right
  else some (makeNode key value left right)

/-- `Rebalance`, refused when the heights of the children differ by more than `d`. -/
def rebalanceWithin (d : Int) (key : K) (value : V) (left right : NodePtr K V) :
    Option (NodePtr K V) :=
  if left.height - right.height ≤ d ∧ right.height - left.height ≤ d then
    rebalance key value left right
  else none

/-- `InOrderHead`: the key and value of the node it returns. -/
def inOrderHead : NodePtr K V → Option (K × V)
  | null => none
  | node key value null _ _ => some (key, value)
  | node _ _ (node k v l r h) _ _ => inOrderHead (node k v l r h)

def inOrderTail : NodePtr K V → Option (K × V)
  | null => none
  | node key value _ null _ => some (key, value)
  | node _ _ _ (node k v l r h) _ => inOrderTail (node k v l r h)

variable [LinearOrder K]

/-- `Get`, the value of the node it returns. -/
def get : NodePtr K V → K → Option V
  | null, _ => none
  | node k v left right _, key =>
    if key < k then get left key else if k < key then get right key else some v

def addKey (rebalance : K → V → NodePtr K V → NodePtr K V → Option (NodePtr K V)) :
    NodePtr K V → K → V → Option (NodePtr K V)
  | null, key, value => some (makeNode key value null null)
  | node k v left right _, key, value =>
    if k < key then (addKey rebalance right key value).bind fun r => rebalance k v left r
    else if key < k then (addKey rebalance left key value).bind fun l => rebalance k v l right
    else some (makeNode key value left right)

def removeKey (rebalance : K → V → NodePtr K V → NodePtr K V → Option (NodePtr K V)) :
    NodePtr K V → K → Option (NodePtr K V)
  | null, _ => some null
  | node k v left right _, key =>
    if key < k then (removeKey rebalance left key).bind fun l => rebalance k v l right
    else if k < key then (removeKey rebalance right key).bind fun r => rebalance k v left r
    else
      match left, right with
      | null, _ => some right
      | _, null => some left
      | node .., node .. =>
        if left.height < right.height then
          right.inOrderHead.bind fun h =>
            (removeKey rebalance right h.1).bind fun r => rebalance h.1 h.2 left r
        else
          left.inOrderTail.bind fun h =>
            (removeKey rebalance left h.1).bind fun l => rebalance h.1 h.2 l right

/-! ## Order of the nodes -/

omit [LinearOrder K] in
/-- The keys and values in order. -/
def toList : NodePtr K V → List (K × V)
  | null => []
  | node key value left right _ => left.toList ++ (key, value) :: right.toList

omit [LinearOrder K] in
theorem forEach_eq_foldl (f : S → K → V → S) (t : NodePtr K V) (s : S) :
    t.forEach f s = t.toList.foldl (fun s e => f s e.1 e.2) s := by
  induction t generalizing s with
  | null => rfl
  | node key value left right h ihl ihr =>
    rw [forEach, ihl, ihr, toList, foldl_append, foldl_cons]

section
omit [LinearOrder K]

variable {key : K} {value : V} {left right t : NodePtr K V}

@[simp] theorem toList_null : (null : NodePtr K V).toList = [] := rfl

@[simp] theorem toList_node (h : Int) :
    (node key value left right h).toList = left.toList ++ (key, value) :: right.toList := rfl

@[simp] theorem toList_makeNode :
    (makeNode key value left right).toList = left.toList ++ (key, value) :: right.toList := rfl

theorem toList_rebalance (h : rebalance key value left right = some t) :
    t.toList = left.toList ++ (key, value) :: right.toList := by
  unfold rebalance rotateLeftRight rotateRight rotateRightLeft rotateLeft at h
  split_ifs at h
  · repeat' split at h
    all_goals cases h <;> simp_all
  · repeat' split at h
    all_goals cases h <;> simp_all
  · cases h
    rfl

variable {e : K × V}

theorem mem_node {h : Int} : e ∈ (node key value left right h).toList ↔
    e ∈ left.toList ∨ e = (key, value) ∨ e ∈ right.toList := by
  rw [toList_node, mem_append, mem_cons]

theorem mem_rebalance (h : rebalance key value left right = some t) :
    e ∈ t.toList ↔ e ∈ left.toList ∨ e = (key, value) ∨ e ∈ right.toList := by
  rw [toList_rebalance h, mem_append, mem_cons]

theorem toList_inOrderHead (t : NodePtr K V) : t.inOrderHead = t.toList.head? := by
  fun_induction inOrderHead t with
  | case1 => rfl
  | case2 => rfl
  | case3 key value k v l r h right _ ih =>
    have hne : (node k v l r h).toList ≠ [] := by simp
    rw [ih]
    exact (head?_append_of_ne_nil _ hne).symm

theorem toList_inOrderTail (t : NodePtr K V) : t.inOrderTail = t.toList.getLast? := by
  fun_induction inOrderTail t with
  | case1 => rfl
  | case2 key value left h => simp
  | case3 key value left k v l r h ht ih =>
    have hne : (node k v l r h).toList ≠ [] := by simp
    have hlast : (node key value left (node k v l r h) ht).toList =
        (left.toList ++ [(key, value)]) ++ (node k v l r h).toList := by simp
    rw [ih, hlast, getLast?_append_of_ne_nil _ hne]

/-! ## Heights -/

/-- Every stored height is the height of the tree, and siblings differ by at most one. -/
def Balanced : NodePtr K V → Prop
  | null => True
  | node _ _ left right h =>
    left.Balanced ∧ right.Balanced ∧ h = 1 + max left.height right.height ∧
      left.height - right.height ≤ 1 ∧ right.height - left.height ≤ 1

@[simp, grind =] theorem height_null : (null : NodePtr K V).height = 0 := rfl

@[simp, grind =] theorem height_node (h : Int) : (node key value left right h).height = h := rfl

@[simp, grind =] theorem height_makeNode :
    (makeNode key value left right).height = 1 + max left.height right.height := rfl

theorem Balanced.height_nonneg (h : t.Balanced) : 0 ≤ t.height := by
  induction t with
  | null => exact Int.le_refl 0
  | node key value left right ht ihl ihr =>
    obtain ⟨hl, hr, rfl, -⟩ := h
    have := ihl hl
    rw [height_node]
    omega

theorem Balanced.makeNode (hl : left.Balanced) (hr : right.Balanced)
    (h₁ : left.height - right.height ≤ 1) (h₂ : right.height - left.height ≤ 1) :
    (makeNode key value left right).Balanced :=
  ⟨hl, hr, rfl, h₁, h₂⟩

/-- What `Rebalance` does to the height. -/
structure Rebalanced (left right t : NodePtr K V) : Prop where
  balanced : t.Balanced
  near : left.height - right.height ≤ 1 → right.height - left.height ≤ 1 →
    t.height = 1 + max left.height right.height
  le : t.height ≤ 1 + max left.height right.height
  ge : max left.height right.height ≤ t.height

/-- The left child is too high: `Rebalance` rotates to the right. -/
theorem rebalance_left (hl : left.Balanced) (hr : right.Balanced)
    (h : left.height - right.height = 2) :
    Returns (rebalance key value left right) (Rebalanced left right) := by
  rw [rebalance.eq_def, if_pos h]
  cases left with
  | null =>
    have := hr.height_nonneg
    rw [height_null] at h
    omega
  | node lkey lvalue lleft lright lh =>
    obtain ⟨hll, hlr, rfl, h₁, h₂⟩ := hl
    have := hll.height_nonneg
    have := hlr.height_nonneg
    simp only [height_node] at h
    dsimp only
    split_ifs with hcase
    · cases lright with
      | null =>
        rw [height_null] at hcase
        omega
      | node mkey mvalue mleft mright mh =>
        obtain ⟨hml, hmr, rfl, h₃, h₄⟩ := hlr
        simp only [height_node] at h hcase h₁ h₂
        refine ⟨_, rfl, ⟨.makeNode (.makeNode hll hml ?_ ?_) (.makeNode hmr hr ?_ ?_) ?_ ?_,
          ?_, ?_, ?_⟩⟩ <;> grind
    · refine ⟨_, rfl, ⟨.makeNode hll (.makeNode hlr hr ?_ ?_) ?_ ?_, ?_, ?_, ?_⟩⟩ <;> grind

/-- The right child is too high: `Rebalance` rotates to the left. -/
theorem rebalance_right (hl : left.Balanced) (hr : right.Balanced)
    (h : left.height - right.height = -2) :
    Returns (rebalance key value left right) (Rebalanced left right) := by
  rw [rebalance.eq_def, if_neg (by omega), if_pos h]
  cases right with
  | null =>
    have := hl.height_nonneg
    rw [height_null] at h
    omega
  | node rkey rvalue rleft rright rh =>
    obtain ⟨hrl, hrr, rfl, h₁, h₂⟩ := hr
    have := hrl.height_nonneg
    have := hrr.height_nonneg
    simp only [height_node] at h
    dsimp only
    split_ifs with hcase
    · cases rleft with
      | null =>
        rw [height_null] at hcase
        omega
      | node mkey mvalue mleft mright mh =>
        obtain ⟨hml, hmr, rfl, h₃, h₄⟩ := hrl
        simp only [height_node] at h hcase h₁ h₂
        refine ⟨_, rfl, ⟨.makeNode (.makeNode hl hml ?_ ?_) (.makeNode hmr hrr ?_ ?_) ?_ ?_,
          ?_, ?_, ?_⟩⟩ <;> grind
    · refine ⟨_, rfl, ⟨.makeNode (.makeNode hl hrl ?_ ?_) hrr ?_ ?_, ?_, ?_, ?_⟩⟩ <;> grind

theorem rebalance_balanced (key : K) (value : V) (hl : left.Balanced) (hr : right.Balanced)
    (h₁ : left.height - right.height ≤ 2) (h₂ : right.height - left.height ≤ 2) :
    Returns (rebalance key value left right) (Rebalanced left right) := by
  by_cases h : left.height - right.height = 2
  · exact rebalance_left hl hr h
  · by_cases h' : left.height - right.height = -2
    · exact rebalance_right hl hr h'
    · rw [rebalance.eq_def, if_neg h, if_neg h']
      refine ⟨_, rfl, .makeNode hl hr ?_ ?_, fun _ _ => rfl, ?_, ?_⟩ <;> grind

theorem rebalance_of_within {d : Int} (h : rebalanceWithin d key value left right = some t) :
    rebalance key value left right = some t := by
  unfold rebalanceWithin at h
  split_ifs at h
  exact h

theorem rebalanceWithin_balanced (key : K) (value : V) (hl : left.Balanced) (hr : right.Balanced)
    (h₁ : left.height - right.height ≤ 2) (h₂ : right.height - left.height ≤ 2) :
    Returns (rebalanceWithin 2 key value left right) (Rebalanced left right) := by
  rw [rebalanceWithin, if_pos ⟨h₁, h₂⟩]
  exact rebalance_balanced key value hl hr h₁ h₂

variable {l r : NodePtr K V} {lo hi : Int}

/-- Balanced, with a height between two bounds. -/
structure Between (lo hi : Int) (t : NodePtr K V) : Prop where
  balanced : t.Balanced
  ge : lo ≤ t.height
  le : t.height ≤ hi

/-- Children of a balanced node, one of which may have grown (`d = 0`) or shrunk (`d = -1`). -/
theorem rebalanceWithin_near (d : Int) (key : K) (value : V) (hl : l.Balanced) (hr : r.Balanced)
    (h₁ : left.height - right.height ≤ 1) (h₂ : right.height - left.height ≤ 1)
    (hleft : left.height + d ≤ l.height ∧ l.height ≤ left.height + d + 1)
    (hright : right.height + d ≤ r.height ∧ r.height ≤ right.height + d + 1)
    (h₃ : l.height - r.height ≤ 2) (h₄ : r.height - l.height ≤ 2)
    (hlo : lo ≤ 1 + d + max left.height right.height)
    (hhi : 2 + d + max left.height right.height ≤ hi) :
    Returns (rebalanceWithin 2 key value l r) (Between lo hi) := by
  obtain ⟨t, ht, hb, hnear, hle, hge⟩ := rebalanceWithin_balanced key value hl hr h₃ h₄
  refine ⟨t, ht, hb, ?_, by omega⟩
  by_cases hd : l.height - r.height ≤ 1 ∧ r.height - l.height ≤ 1
  · rw [hnear hd.1 hd.2]
    omega
  · omega

end

variable {t t' : NodePtr K V} {key : K} {value : V} {d : Int}

/-- `AddKey` calls `Rebalance` with children whose heights differ by at most two, and the height
grows by at most one. -/
theorem addKey_balanced (key : K) (value : V) (h : t.Balanced) :
    Returns (addKey (rebalanceWithin 2) t key value) (Between t.height (t.height + 1)) := by
  induction t with
  | null => exact ⟨_, rfl, .makeNode trivial trivial (by simp) (by simp), by simp, by simp⟩
  | node k v left right ht ihl ihr =>
    obtain ⟨hl, hr, rfl, h₁, h₂⟩ := h
    unfold addKey
    rw [height_node]
    split_ifs
    · refine (ihr hr).bind fun r ⟨hb, hge, hle⟩ => ?_
      refine rebalanceWithin_near 0 k v hl hb h₁ h₂ ?_ ?_ ?_ ?_ ?_ ?_ <;> omega
    · refine (ihl hl).bind fun l ⟨hb, hge, hle⟩ => ?_
      refine rebalanceWithin_near 0 k v hb hr h₁ h₂ ?_ ?_ ?_ ?_ ?_ ?_ <;> omega
    · exact ⟨_, rfl, .makeNode hl hr h₁ h₂, Int.le_refl _, by rw [height_makeNode]; omega⟩

theorem addKey_of_within (h : addKey (rebalanceWithin d) t key value = some t') :
    addKey rebalance t key value = some t' := by
  induction t generalizing t' with
  | null => exact h
  | node k v left right ht ihl ihr =>
    unfold addKey at h ⊢
    split_ifs at h ⊢
    · obtain ⟨r, hr, h⟩ := bind_eq_some_iff.1 h
      rw [ihr hr]
      exact rebalance_of_within h
    · obtain ⟨l, hl, h⟩ := bind_eq_some_iff.1 h
      rw [ihl hl]
      exact rebalance_of_within h
    · exact h

omit [LinearOrder K] in
theorem toList_ne_nil (h : t ≠ null) : t.toList ≠ [] := by
  cases t with
  | null => exact absurd rfl h
  | node => simp

/-- What `RemoveKey` does at a node: it removes a key from a child, or returns a child. A node with
two children gets the key of a neighbour, which is removed below it. -/
inductive RemoveCase (k : K) (v : V) (left right : NodePtr K V) (h : Int) (key : K) : Prop
  | fromLeft (key' : K) (e : K × V) :
      key < k ∧ key' = key ∧ e = (k, v) ∨ key = k ∧ key' = e.1 ∧ left.inOrderTail = some e →
      (∀ rebalance, removeKey rebalance (node k v left right h) key =
        (removeKey rebalance left key').bind fun l => rebalance e.1 e.2 l right) → RemoveCase ..
  | fromRight (key' : K) (e : K × V) :
      k < key ∧ key' = key ∧ e = (k, v) ∨ key = k ∧ key' = e.1 ∧ right.inOrderHead = some e →
      (∀ rebalance, removeKey rebalance (node k v left right h) key =
        (removeKey rebalance right key').bind fun r => rebalance e.1 e.2 left r) → RemoveCase ..
  | onlyRight : key = k → left = null →
      (∀ rebalance, removeKey rebalance (node k v left right h) key = some right) → RemoveCase ..
  | onlyLeft : key = k → right = null →
      (∀ rebalance, removeKey rebalance (node k v left right h) key = some left) → RemoveCase ..

/-- `RemoveKey` at a node is one of these cases. -/
theorem removeCase (k : K) (v : V) (left right : NodePtr K V) (h : Int) (key : K) :
    RemoveCase k v left right h key := by
  rcases lt_trichotomy key k with hlt | rfl | hgt
  · refine .fromLeft key (k, v) (.inl ⟨hlt, rfl, rfl⟩) fun rebalance => ?_
    rw [removeKey.eq_def]
    exact if_pos hlt
  · cases hleft : left with
    | null =>
      refine .onlyRight rfl rfl fun rebalance => ?_
      rw [removeKey.eq_def]
      simp
    | node =>
      cases hright : right with
      | null =>
        refine .onlyLeft rfl rfl fun rebalance => ?_
        rw [removeKey.eq_def]
        simp
      | node =>
        rw [← hleft, ← hright]
        by_cases hheight : left.height < right.height
        · have he := right.toList_inOrderHead.trans
            (head?_eq_some_head (toList_ne_nil (by simp [hright])))
          refine .fromRight _ _ (.inr ⟨rfl, rfl, he⟩) fun rebalance => ?_
          rw [removeKey.eq_def]
          subst hleft hright
          simp only [lt_irrefl, if_false, if_pos hheight, he, bind_some]
        · have he := left.toList_inOrderTail.trans
            (getLast?_eq_some_getLast (toList_ne_nil (by simp [hleft])))
          refine .fromLeft _ _ (.inr ⟨rfl, rfl, he⟩) fun rebalance => ?_
          rw [removeKey.eq_def]
          subst hleft hright
          simp only [lt_irrefl, if_false, if_neg hheight, he, bind_some]
  · refine .fromRight key (k, v) (.inl ⟨hgt, rfl, rfl⟩) fun rebalance => ?_
    rw [removeKey.eq_def]
    exact (if_neg (lt_asymm hgt)).trans (if_pos hgt)

/-- `RemoveKey` calls `Rebalance` with children whose heights differ by at most two, and the height
shrinks by at most one. -/
theorem removeKey_balanced (key : K) (h : t.Balanced) :
    Returns (removeKey (rebalanceWithin 2) t key) (Between (t.height - 1) t.height) := by
  induction t generalizing key with
  | null => exact ⟨_, rfl, trivial, by simp, by simp⟩
  | node k v left right ht ihl ihr =>
    obtain ⟨hl, hr, rfl, h₁, h₂⟩ := h
    have hleft := hl.height_nonneg
    have hright := hr.height_nonneg
    rw [height_node]
    cases removeCase k v left right (1 + max left.height right.height) key with
    | fromLeft key' e _ heq =>
      rw [heq]
      refine (ihl key' hl).bind fun l ⟨hb, hge, hle⟩ => ?_
      refine rebalanceWithin_near (-1) e.1 e.2 hb hr h₁ h₂ ?_ ?_ ?_ ?_ ?_ ?_ <;> omega
    | fromRight key' e _ heq =>
      rw [heq]
      refine (ihr key' hr).bind fun r ⟨hb, hge, hle⟩ => ?_
      refine rebalanceWithin_near (-1) e.1 e.2 hl hb h₁ h₂ ?_ ?_ ?_ ?_ ?_ ?_ <;> omega
    | onlyRight _ hnull heq =>
      rw [hnull, height_null] at h₁ h₂ ⊢
      exact ⟨right, hnull ▸ heq _, hr, by omega, by omega⟩
    | onlyLeft _ hnull heq =>
      rw [hnull, height_null] at h₁ h₂ ⊢
      exact ⟨left, hnull ▸ heq _, hl, by omega, by omega⟩

/-- What `RemoveKey` builds does not depend on the refusals. -/
theorem removeKey_of_within (h : removeKey (rebalanceWithin d) t key = some t') :
    removeKey rebalance t key = some t' := by
  induction t generalizing t' key with
  | null => exact h
  | node k v left right ht ihl ihr =>
    cases removeCase k v left right ht key with
    | fromLeft key' e _ heq =>
      rw [heq] at h ⊢
      obtain ⟨l, hl, h⟩ := bind_eq_some_iff.1 h
      rw [ihl hl]
      exact rebalance_of_within h
    | fromRight key' e _ heq =>
      rw [heq] at h ⊢
      obtain ⟨r, hr, h⟩ := bind_eq_some_iff.1 h
      rw [ihr hr]
      exact rebalance_of_within h
    | onlyRight _ _ heq | onlyLeft _ _ heq => rwa [heq] at h ⊢

/-! ## Keys -/

def Increasing (t : NodePtr K V) : Prop := t.toList.Pairwise fun a b => a.1 < b.1

variable {k : K} {v : V} {left right : NodePtr K V} {e : K × V}

theorem increasing_append {l r : List (K × V)} :
    (l ++ (k, v) :: r).Pairwise (fun a b => a.1 < b.1) ↔
      l.Pairwise (fun a b => a.1 < b.1) ∧ r.Pairwise (fun a b => a.1 < b.1) ∧
        (∀ e ∈ l, e.1 < k) ∧ ∀ e ∈ r, k < e.1 := by
  rw [pairwise_append, pairwise_cons]
  constructor
  · rintro ⟨hl, ⟨hk, hr⟩, hlr⟩
    exact ⟨hl, hr, fun e he => hlr e he _ mem_cons_self, hk⟩
  · rintro ⟨hl, hr, hlk, hk⟩
    refine ⟨hl, ⟨hk, hr⟩, fun a ha b hb => ?_⟩
    rcases mem_cons.1 hb with rfl | hb
    · exact hlk a ha
    · exact lt_trans (hlk a ha) (hk b hb)

theorem increasing_node {h : Int} :
    (node k v left right h).Increasing ↔ left.Increasing ∧ right.Increasing ∧
      (∀ e ∈ left.toList, e.1 < k) ∧ ∀ e ∈ right.toList, k < e.1 :=
  increasing_append

theorem Increasing.rebalance
    (h : NodePtr.rebalance k v left right = some t) (hl : left.Increasing) (hr : right.Increasing)
    (hlk : ∀ e ∈ left.toList, e.1 < k) (hkr : ∀ e ∈ right.toList, k < e.1) : t.Increasing := by
  rw [Increasing, toList_rebalance h]
  exact increasing_append.2 ⟨hl, hr, hlk, hkr⟩

theorem get_eq_some_iff (h : t.Increasing) : t.get key = some value ↔ (key, value) ∈ t.toList := by
  induction t with
  | null => simp [get]
  | node k v left right ht ihl ihr =>
    obtain ⟨hl, hr, hlk, hkr⟩ := increasing_node.1 h
    have hleft : (key, value) ∈ left.toList → key < k := hlk _
    have hright : (key, value) ∈ right.toList → k < key := hkr _
    rw [mem_node, Prod.mk.injEq, get]
    split_ifs with hlt hgt
    · rw [ihl hl]
      grind
    · rw [ihr hr]
      grind
    · have hk : key = k := le_antisymm (not_lt.1 hgt) (not_lt.1 hlt)
      grind

/-- `AddKey` adds the key with its value, or replaces the value. -/
theorem addKey_increasing (hs : t.Increasing) (h : addKey rebalance t key value = some t') :
    t'.Increasing ∧ ∀ e, e ∈ t'.toList ↔ e = (key, value) ∨ e ∈ t.toList ∧ e.1 ≠ key := by
  induction t generalizing t' with
  | null =>
    cases h
    simp [Increasing]
  | node k v left right ht ihl ihr =>
    obtain ⟨hl, hr, hlk, hkr⟩ := increasing_node.1 hs
    unfold addKey at h
    split_ifs at h with hlt hgt
    · obtain ⟨r, hadd, h⟩ := bind_eq_some_iff.1 h
      obtain ⟨hinc, hmem⟩ := ihr hr hadd
      have hkr' : ∀ e ∈ r.toList, k < e.1 := by
        intro e he
        rcases (hmem e).1 he with rfl | ⟨he, -⟩
        · exact hlt
        · exact hkr e he
      refine ⟨hl.rebalance h hinc hlk hkr', fun e => ?_⟩
      have hne : e ∈ left.toList → e.1 ≠ key := fun he => ne_of_lt (lt_trans (hlk e he) hlt)
      rw [mem_rebalance h, mem_node, hmem]
      grind
    · obtain ⟨l, hadd, h⟩ := bind_eq_some_iff.1 h
      obtain ⟨hinc, hmem⟩ := ihl hl hadd
      have hlk' : ∀ e ∈ l.toList, e.1 < k := by
        intro e he
        rcases (hmem e).1 he with rfl | ⟨he, -⟩
        · exact hgt
        · exact hlk e he
      refine ⟨hinc.rebalance h hr hlk' hkr, fun e => ?_⟩
      have hne : e ∈ right.toList → e.1 ≠ key := fun he => (ne_of_lt (lt_trans hgt (hkr e he))).symm
      rw [mem_rebalance h, mem_node, hmem]
      grind
    · cases h
      obtain rfl : k = key := le_antisymm (not_lt.1 hgt) (not_lt.1 hlt)
      refine ⟨increasing_node.2 ⟨hl, hr, hlk, hkr⟩, fun e => ?_⟩
      have hleft : e ∈ left.toList → e.1 ≠ k := fun he => ne_of_lt (hlk e he)
      have hright : e ∈ right.toList → e.1 ≠ k := fun he => (ne_of_lt (hkr e he)).symm
      rw [makeNode, mem_node, mem_node]
      grind

theorem Increasing.inOrderHead (h : t.Increasing) (he : t.inOrderHead = some e) :
    e ∈ t.toList ∧ ∀ x ∈ t.toList, x = e ∨ e.1 < x.1 := by
  rw [toList_inOrderHead, head?_eq_some_iff] at he
  obtain ⟨l, hl⟩ := he
  rw [Increasing, hl, pairwise_cons] at h
  rw [hl]
  refine ⟨mem_cons_self, fun x hx => ?_⟩
  exact (mem_cons.1 hx).imp id (h.1 x)

theorem Increasing.inOrderTail (h : t.Increasing) (he : t.inOrderTail = some e) :
    e ∈ t.toList ∧ ∀ x ∈ t.toList, x = e ∨ x.1 < e.1 := by
  rw [toList_inOrderTail, getLast?_eq_some_iff] at he
  obtain ⟨l, hl⟩ := he
  rw [Increasing, hl, pairwise_append] at h
  rw [hl]
  refine ⟨by simp, fun x hx => ?_⟩
  rcases mem_append.1 hx with hx | hx
  · exact .inr (h.2.2 x hx e (mem_singleton_self e))
  · exact .inl (mem_singleton.1 hx)

/-- `RemoveKey` removes the key, and nothing else. -/
theorem removeKey_increasing (hs : t.Increasing) (h : removeKey rebalance t key = some t') :
    t'.Increasing ∧ ∀ e, e ∈ t'.toList ↔ e ∈ t.toList ∧ e.1 ≠ key := by
  induction t generalizing t' key with
  | null =>
    cases h
    simp [Increasing]
  | node k v left right ht ihl ihr =>
    obtain ⟨hl, hr, hlk, hkr⟩ := increasing_node.1 hs
    cases removeCase k v left right ht key with
    | fromLeft key' n hcase heq =>
      rw [heq] at h
      obtain ⟨l, hrem, ht'⟩ := bind_eq_some_iff.1 h
      obtain ⟨hinc, hmem⟩ := ihl hl hrem
      rcases hcase with ⟨hlt, rfl, rfl⟩ | ⟨rfl, rfl, hn⟩
      · refine ⟨hinc.rebalance ht' hr (fun e he => hlk e ((hmem e).1 he).1) hkr, fun e => ?_⟩
        have hright : e ∈ right.toList → e.1 ≠ key' := fun he => (hlt.trans (hkr e he)).ne'
        rw [mem_rebalance ht', mem_node, hmem]
        grind
      -- the key of the neighbour separates what is left of the two children
      · obtain ⟨hmemn, hnle⟩ := hl.inOrderTail hn
        refine ⟨hinc.rebalance ht' hr ?_ fun e he => (hlk n hmemn).trans (hkr e he), fun e => ?_⟩
        · intro e he
          obtain ⟨he, hne⟩ := (hmem e).1 he
          exact (hnle e he).resolve_left fun heq => hne (congrArg Prod.fst heq)
        · have hleft := hlk e
          have hright := hkr e
          rw [mem_rebalance ht', mem_node, hmem]
          grind
    | fromRight key' n hcase heq =>
      rw [heq] at h
      obtain ⟨r, hrem, ht'⟩ := bind_eq_some_iff.1 h
      obtain ⟨hinc, hmem⟩ := ihr hr hrem
      rcases hcase with ⟨hgt, rfl, rfl⟩ | ⟨rfl, rfl, hn⟩
      · refine ⟨hl.rebalance ht' hinc hlk fun e he => hkr e ((hmem e).1 he).1, fun e => ?_⟩
        have hleft : e ∈ left.toList → e.1 ≠ key' := fun he => ((hlk e he).trans hgt).ne
        rw [mem_rebalance ht', mem_node, hmem]
        grind
      · obtain ⟨hmemn, hnle⟩ := hr.inOrderHead hn
        refine ⟨hl.rebalance ht' hinc (fun e he => (hlk e he).trans (hkr n hmemn)) ?_, fun e => ?_⟩
        · intro e he
          obtain ⟨he, hne⟩ := (hmem e).1 he
          exact (hnle e he).resolve_left fun heq => hne (congrArg Prod.fst heq)
        · have hleft := hlk e
          have hright := hkr e
          rw [mem_rebalance ht', mem_node, hmem]
          grind
    | onlyRight hk hnull heq =>
      subst hnull hk
      cases (heq _).symm.trans h
      refine ⟨hr, fun e => ?_⟩
      rw [mem_node, toList_null]
      grind
    | onlyLeft hk hnull heq =>
      subst hnull hk
      cases (heq _).symm.trans h
      refine ⟨hl, fun e => ?_⟩
      rw [mem_node, toList_null]
      grind

end NodePtr

/-! ## Versions -/

open NodePtr

variable {K V : Type*}

/-- `Add` or `Remove` on the version with this number. -/
inductive Op (K V : Type*) where
  | add (version : Nat) (key : K) (value : V)
  | remove (version : Nat) (key : K)

def Op.version : Op K V → Nat
  | add i _ _ => i
  | remove i _ => i

def visited (t : NodePtr K V) : List (K × V) := t.forEach (fun l k v => l ++ [(k, v)]) []

theorem visited_eq (t : NodePtr K V) : visited t = t.toList := by
  rw [visited, forEach_eq_foldl, foldl_append_eq_append, nil_append,
    ← flatMap_def]
  exact flatMap_singleton' t.toList

variable [LinearOrder K]

/-- All versions are held; an operation on one of them adds a version. -/
def step (rebalance : K → V → NodePtr K V → NodePtr K V → Option (NodePtr K V))
    (versions : List (NodePtr K V)) : Op K V → Option (List (NodePtr K V))
  | .add i key value =>
    (versions[i]?.bind fun t => addKey rebalance t key value).map fun t => versions ++ [t]
  | .remove i key =>
    (versions[i]?.bind fun t => removeKey rebalance t key).map fun t => versions ++ [t]

def mapStep (maps : List (K → Option V)) : Op K V → List (K → Option V)
  | .add i key value => maps ++ [Function.update (maps.getD i fun _ => none) key (some value)]
  | .remove i key => maps ++ [Function.update (maps.getD i fun _ => none) key none]

/-- A tree that is an ordered map. -/
structure IsMap (t : NodePtr K V) (m : K → Option V) : Prop where
  increasing : t.Increasing
  balanced : t.Balanced
  lookup : ∀ key, t.get key = m key
  visits_in_order : (visited t).Pairwise fun a b => a.1 < b.1
  visits_live : ∀ key value, (key, value) ∈ visited t ↔ m key = some value

variable {t : NodePtr K V} {m : K → Option V} {versions : List (NodePtr K V)} {op : Op K V}

theorem IsMap.of_mem (hinc : t.Increasing) (hb : t.Balanced)
    (hmem : ∀ key value, (key, value) ∈ t.toList ↔ m key = some value) : IsMap t m where
  increasing := hinc
  balanced := hb
  lookup key := Option.ext fun value => (get_eq_some_iff hinc).trans (hmem key value)
  visits_in_order := by rw [visited_eq]; exact hinc
  visits_live := by rw [visited_eq]; exact hmem

theorem IsMap.mem (h : IsMap t m) (key : K) (value : V) :
    (key, value) ∈ t.toList ↔ m key = some value := by
  rw [← visited_eq]
  exact h.visits_live key value

theorem IsMap.null : IsMap (null : NodePtr K V) fun _ => none :=
  .of_mem List.Pairwise.nil trivial (by simp)

def Op.apply (rebalance : K → V → NodePtr K V → NodePtr K V → Option (NodePtr K V))
    (t : NodePtr K V) : Op K V → Option (NodePtr K V)
  | .add _ key value => addKey rebalance t key value
  | .remove _ key => removeKey rebalance t key

def Op.update (m : K → Option V) : Op K V → K → Option V
  | .add _ key value => Function.update m key (some value)
  | .remove _ key => Function.update m key none

theorem step_eq (rebalance : K → V → NodePtr K V → NodePtr K V → Option (NodePtr K V)) :
    step rebalance versions op =
      (versions[op.version]?.bind fun t => op.apply rebalance t).map fun t => versions ++ [t] := by
  cases op <;> rfl

theorem mapStep_eq (maps : List (K → Option V)) :
    mapStep maps op = maps ++ [op.update (maps.getD op.version fun _ => none)] := by
  cases op <;> rfl

/-- An operation on a tree is the operation on its map. -/
theorem IsMap.apply (h : IsMap t m) (op : Op K V) :
    Returns (op.apply (rebalanceWithin 2) t) (IsMap · (op.update m)) := by
  cases op with
  | add i key value =>
    obtain ⟨t', ht', hb⟩ := addKey_balanced key value h.balanced
    obtain ⟨hinc, hmem⟩ := addKey_increasing h.increasing (addKey_of_within ht')
    refine ⟨t', ht', .of_mem hinc hb.balanced fun k v => ?_⟩
    rw [hmem, h.mem, Op.update, Function.update_apply, Prod.mk.injEq]
    grind
  | remove i key =>
    obtain ⟨t', ht', hb⟩ := removeKey_balanced key h.balanced
    obtain ⟨hinc, hmem⟩ := removeKey_increasing h.increasing (removeKey_of_within ht')
    refine ⟨t', ht', .of_mem hinc hb.balanced fun k v => ?_⟩
    rw [hmem, h.mem, Op.update, Function.update_apply]
    grind

theorem step_of_within {d : Int} {versions' : List (NodePtr K V)}
    (h : step (rebalanceWithin d) versions op = some versions') :
    step rebalance versions op = some versions' := by
  rw [step_eq] at h ⊢
  obtain ⟨t', ht', rfl⟩ := map_eq_some_iff.1 h
  obtain ⟨t, ht, happly⟩ := bind_eq_some_iff.1 ht'
  have happly' : op.apply rebalance t = some t' := by
    cases op with
    | add i key value => exact addKey_of_within happly
    | remove i key => exact removeKey_of_within happly
  rw [ht, bind_some, happly', map_some]

theorem step_refines {maps : List (K → Option V)}
    (h : List.Forall₂ IsMap versions maps) (hop : op.version < maps.length) :
    Returns (step (rebalanceWithin 2) versions op) (List.Forall₂ IsMap · (mapStep maps op)) := by
  have hi : op.version < versions.length := by rwa [h.length_eq]
  have ht : IsMap versions[op.version] maps[op.version] := h.get hi hop
  obtain ⟨t', ht', hmap⟩ := ht.apply op
  refine ⟨versions ++ [t'], ?_, ?_⟩
  · rw [step_eq, getElem?_eq_getElem hi, bind_some, ht', map_some]
  · rw [mapStep_eq, getD_eq_getElem _ _ hop]
    exact rel_append h (.cons hmap .nil)

/-- Every version that a sequence of operations on versions builds is an ordered map: the keys
increase, the heights are right and balanced, `Lookup` and `ForEach` agree with the map of the
version, and no `Rebalance` was called with heights that differ by more than two. -/
theorem run_refines_orderedMap {ops : List (Op K V)}
    (hops : Run.Allows mapStep (fun maps op => op.version < maps.length) [fun _ => none] ops) :
    ∃ versions, run (step rebalance) [null] ops = some versions ∧
      run (step (rebalanceWithin 2)) [null] ops = some versions ∧
      List.Forall₂ IsMap versions (ops.foldl mapStep [fun _ => none]) := by
  obtain ⟨versions, hrun, hmaps⟩ := run_refines hops
    (fun _ _ _ hR hG => step_refines hR hG) (.cons IsMap.null .nil)
  exact ⟨versions, run_mono (fun s a s' h => step_of_within h) hrun, hrun, hmaps⟩

/-- Three keys in order, which makes a rotation, then the root removed from the last version and
another key added to an older one. -/
def branchingOps : List (Op Nat Nat) :=
  [.add 0 1 10, .add 1 2 20, .add 2 3 30, .remove 3 2, .add 2 4 40]

theorem run_refines_orderedMap_branchingOps :
    ∃ versions, run (step rebalance) [null] branchingOps = some versions ∧
      run (step (rebalanceWithin 2)) [null] branchingOps = some versions ∧
      List.Forall₂ IsMap versions (branchingOps.foldl mapStep [fun _ => none]) :=
  run_refines_orderedMap (by decide)

end GrpcCore.Avl
