import GrpcCore.DataStructures.Avl
import Mathlib.Data.Prod.Lex
import Mathlib.Data.Nat.Fib.Basic

/-!
# Comparison of AVL trees

`QsortCompare` in `avl.h` walks two trees in order with explicit stacks and compares them entry by
entry, except where both walks are at the same node. Trees share nodes, so a node has an address
here, and a tree is what a pointer into a heap represents (`Represents`).

The stack of a walk determines the entries that are still to come (`Walk`). The heights on it grow
from the top to the bottom, so that a tree of height 32 fits into its 32 places; a write outside it
is a `none`.
-/

namespace GrpcCore.Avl

open List Option NodePtr

variable {K V : Type*}

/-- `Node`, with the addresses of its children. -/
structure Node (K V : Type*) where
  kv : K × V
  left : Option Nat
  right : Option Nat
  height : Int

abbrev Heap (K V : Type*) := Nat → Option (Node K V)

inductive Represents (heap : Heap K V) : Option Nat → NodePtr K V → Prop
  | null : Represents heap none .null
  | node {p : Nat} {n : Node K V} {left right : NodePtr K V} (hp : heap p = some n)
      (hl : Represents heap n.left left) (hr : Represents heap n.right right) :
      Represents heap (some p) (.node n.kv.1 n.kv.2 left right n.height)

/-- The loop of the iterator that pushes a node and its left descendants. The stack has 32 places,
so it makes at most 33 iterations. -/
def pushLeft (heap : Heap K V) : Nat → Option Nat → List Nat → Option (List Nat)
  | _, none, stack => some stack
  | 0, some _, _ => none
  | fuel + 1, some p, stack =>
    if stack.length < 32 then (heap p).bind fun n => pushLeft heap fuel n.left (p :: stack)
    else none

def moveNext (heap : Heap K V) : List Nat → Option (List Nat)
  | [] => none
  | p :: stack => (heap p).bind fun n => pushLeft heap 33 n.right stack

/-- The loop of `QsortCompare`, for a comparison of entries. -/
def compareLoop (heap : Heap K V) (compare : K × V → K × V → Int) :
    Nat → List Nat → List Nat → Option Int
  | 0, _, _ => none
  | fuel + 1, a, b =>
    let next := (moveNext heap a).bind fun a =>
      (moveNext heap b).bind fun b => compareLoop heap compare fuel a b
    match a, b with
    | [], [] => some 0
    | [], _ :: _ => some (-1)
    | _ :: _, [] => some 1
    | p :: _, q :: _ =>
      if p = q then next
      else
        (heap p).bind fun n => (heap q).bind fun m =>
          if compare n.kv m.kv ≠ 0 then some (compare n.kv m.kv) else next

/-- `QsortCompare` of two trees. -/
def qsortCompare (heap : Heap K V) (compare : K × V → K × V → Int) (left right : Option Nat)
    (fuel : Nat) : Option Int :=
  if left = right then some 0
  else
    (pushLeft heap 33 left []).bind fun a =>
      (pushLeft heap 33 right []).bind fun b => compareLoop heap compare fuel a b

/-- `QsortCompare` of two pairs. -/
def comparePair (compareKey : K → K → Int) (compareValue : V → V → Int) (a b : K × V) : Int :=
  if compareKey a.1 b.1 ≠ 0 then compareKey a.1 b.1 else compareValue a.2 b.2

/-- `QsortCompare` of values with an order. -/
def compareBy {α : Type*} [LinearOrder α] (a b : α) : Int :=
  if a < b then -1 else if b < a then 1 else 0

/-! ## The walk -/

/-- The entries that are still to come in a walk with this stack; the nodes on it are higher than
`b`. -/
inductive Walk (heap : Heap K V) : Int → List Nat → List (K × V) → Prop
  | nil {b : Int} : Walk heap b [] []
  | cons {b : Int} {p : Nat} {n : Node K V} {right : NodePtr K V} {stack : List Nat}
      {l : List (K × V)} (hp : heap p = some n) (hr : Represents heap n.right right)
      (hb : right.Balanced) (hright : right.height < n.height) (hlt : b < n.height)
      (hle : n.height ≤ 32) (hrest : Walk heap n.height stack l) :
      Walk heap b (p :: stack) (n.kv :: (right.toList ++ l))

section

variable {heap : Heap K V} {stack : List Nat} {l : List (K × V)} {b b' : Int} {ptr : Option Nat}
  {t : NodePtr K V}

theorem Represents.unique (h : Represents heap ptr t) :
    ∀ {t'}, Represents heap ptr t' → t = t' := by
  induction h with
  | null => intro t' h'; cases h'; rfl
  | node hp _ _ ihl ihr =>
    intro t' h'
    cases h' with
    | node hp' hl' hr' =>
      obtain rfl := some.inj (hp.symm.trans hp')
      rw [ihl hl', ihr hr']

theorem Walk.weaken (h : Walk heap b stack l) (hle : b' ≤ b) : Walk heap b' stack l := by
  cases h with
  | nil => exact .nil
  | cons hp hr hb hright hlt h32 hrest => exact .cons hp hr hb hright (by omega) h32 hrest

theorem Walk.length_le (h : Walk heap b stack l) (hb : b ≤ 32) : (stack.length : Int) ≤ 32 - b := by
  induction h with
  | nil => simpa using hb
  | cons _ _ _ _ hlt h32 _ ih =>
    have := ih h32
    rw [length_cons]
    omega

theorem pushLeft_walk (hrep : Represents heap ptr t) : ∀ {stack : List Nat} {l : List (K × V)}
    {b : Int} (fuel : Nat), t.Balanced → t.height ≤ b → b ≤ 32 → t.height < fuel →
    Walk heap b stack l →
    ∃ stack', pushLeft heap fuel ptr stack = some stack' ∧ Walk heap 0 stack' (t.toList ++ l) := by
  induction hrep with
  | null =>
    intro stack l b fuel _ hb _ _ hw
    exact ⟨stack, by cases fuel <;> rfl, hw.weaken hb⟩
  | @node p n left right hp hl hr ihl _ =>
    intro stack l b fuel hbal hb h32 hfuel hw
    obtain ⟨hbl, hbr, hheight, -⟩ := hbal
    have hlen := hw.length_le h32
    have hleft := hbl.height_nonneg
    rw [height_node] at hb hfuel
    cases fuel with
    | zero => omega
    | succ fuel =>
      rw [pushLeft, if_pos (by omega), hp, bind_some, toList_node, append_assoc]
      exact ihl fuel hbl (b := left.height) (le_refl _) (by omega) (by omega)
        (.cons hp hr hbr (by omega) (by omega) (by omega) (hw.weaken hb))

theorem moveNext_walk {p : Nat} {e : K × V} (h : Walk heap 0 (p :: stack) (e :: l)) :
    (∃ n, heap p = some n ∧ n.kv = e) ∧
      ∃ stack', moveNext heap (p :: stack) = some stack' ∧ Walk heap 0 stack' l := by
  generalize hs : p :: stack = s at h
  generalize hl' : e :: l = l' at h
  cases h with
  | nil => cases hs
  | cons hp hr hb hright hlt h32 hrest =>
    cases hs
    cases hl'
    refine ⟨⟨_, hp, rfl⟩, ?_⟩
    rw [moveNext, hp, bind_some]
    exact pushLeft_walk hr 33 hb (by omega) h32 (by omega) hrest

/-! ## The comparison -/

/-- The first nonzero comparison of two lists, a list being before its continuations. -/
def compareLists (compare : K × V → K × V → Int) : List (K × V) → List (K × V) → Int
  | [], [] => 0
  | [], _ :: _ => -1
  | _ :: _, [] => 1
  | x :: xs, y :: ys => if compare x y ≠ 0 then compare x y else compareLists compare xs ys

variable {compare : K × V → K × V → Int} {g : Int → Int}

/-- Equal nodes need no comparison, as an entry equals itself. -/
theorem compareLoop_walk (hrefl : ∀ x, compare x x = 0) :
    ∀ {la lb : List (K × V)} {a b : List Nat} (fuel : Nat), Walk heap 0 a la → Walk heap 0 b lb →
      la.length < fuel → compareLoop heap compare fuel a b = some (compareLists compare la lb)
  | la, lb, a, b, 0, _, _, hf => absurd hf (Nat.not_lt_zero _)
  | la, lb, [], b, fuel + 1, ha, hb, _ => by
    cases ha
    cases hb <;> rfl
  | la, lb, p :: a, [], fuel + 1, ha, hb, _ => by
    cases ha
    cases hb
    rfl
  | la, lb, p :: a, q :: b, fuel + 1, ha, hb, hf => by
    obtain ⟨x, la, rfl⟩ : ∃ x l, la = x :: l := by cases ha; exact ⟨_, _, rfl⟩
    obtain ⟨y, lb, rfl⟩ : ∃ y l, lb = y :: l := by cases hb; exact ⟨_, _, rfl⟩
    obtain ⟨⟨n, hn, rfl⟩, a', ha', hwa⟩ := moveNext_walk ha
    obtain ⟨⟨m, hm, rfl⟩, b', hb', hwb⟩ := moveNext_walk hb
    have ih := compareLoop_walk hrefl fuel hwa hwb (by simpa using hf)
    simp only [compareLoop, ha', hb', bind_some, ih, hn, hm]
    by_cases hpq : p = q
    · obtain rfl : n = m := some.inj (hn.symm.trans (hpq ▸ hm))
      rw [if_pos hpq, compareLists, if_neg (not_not.2 (hrefl _))]
    · rw [if_neg hpq, compareLists]
      split <;> rfl

variable [LinearOrder K] [LinearOrder V]

/-- The entries with their lexicographic order. -/
def entries (t : NodePtr K V) : List (K ×ₗ V) := t.toList.map toLex

theorem compareBy_cons {α : Type*} [LinearOrder α] (a b : α) (l l' : List α) :
    compareBy (a :: l) (b :: l') = if compareBy a b ≠ 0 then compareBy a b else compareBy l l' := by
  unfold compareBy
  simp only [cons_lt_cons_iff]
  rcases lt_trichotomy a b with h | rfl | h
  · simp [h]
  · simp only [lt_irrefl, false_or, true_and, if_false, ne_eq, not_true]
    split_ifs <;> rfl
  · simp [h, h.not_gt, h.ne']

/-- The comparison of lists is lexicographic, for the signs and, where the comparison of entries
returns only signs, for the values. -/
theorem compareLists_eq (hg : ∀ x, g x = 0 ↔ x = 0) (h1 : g 1 = 1) (hneg : g (-1) = -1)
    (h : ∀ x y, g (compare x y) = compareBy (toLex x) (toLex y)) :
    ∀ la lb, g (compareLists compare la lb) = compareBy (la.map toLex) (lb.map toLex)
  | [], [] => by simp [compareLists, compareBy, (hg 0).2]
  | [], y :: lb => by simp [compareLists, compareBy, hneg]
  | x :: la, [] => by simp [compareLists, compareBy, h1]
  | x :: la, y :: lb => by
    rw [map_cons, map_cons, compareBy_cons, ← h x y, compareLists,
      ← compareLists_eq hg h1 hneg h la lb]
    by_cases h0 : compare x y = 0
    · simp [h0, (hg 0).2]
    · simp [h0, hg]

theorem comparePair_eq (hg : ∀ x, g x = 0 ↔ x = 0) (hK : ∀ a b, g (compareKey a b) = compareBy a b)
    (hV : ∀ a b, g (compareValue a b) = compareBy a b) (x y : K × V) :
    g (comparePair compareKey compareValue x y) = compareBy (toLex x) (toLex y) := by
  have hK := hK x.1 y.1
  have hV := hV x.2 y.2
  have h0 := hg (compareKey x.1 y.1)
  unfold comparePair compareBy at *
  rcases lt_trichotomy x.1 y.1 with h | h | h
  · rw [if_pos h] at hK
    rw [if_pos (by rw [ne_eq, ← h0, hK]; decide), hK, if_pos (Prod.Lex.toLex_lt_toLex.2 (.inl h))]
  · rw [h, if_neg (lt_irrefl _), if_neg (lt_irrefl _)] at hK
    rw [h] at h0
    rw [h, if_neg (by rw [ne_eq, not_not, ← h0, hK]), hV]
    simp [Prod.Lex.toLex_lt_toLex, h]
  · rw [if_neg h.not_gt, if_pos h] at hK
    rw [if_pos (by rw [ne_eq, ← h0, hK]; decide), hK]
    simp [Prod.Lex.toLex_lt_toLex, h, h.not_gt, h.ne']

/-- A tree of the heap that fits into the stack of a walk. -/
structure TreeAt (heap : Heap K V) where
  root : Option Nat
  tree : NodePtr K V
  represents : Represents heap root tree
  balanced : tree.Balanced
  increasing : tree.Increasing
  height_le : tree.height ≤ 32

/-- `QsortCompare` returns `c`. -/
def TreeAt.Compares (compareKey : K → K → Int) (compareValue : V → V → Int) (a b : TreeAt heap)
    (c : Int) : Prop :=
  ∃ n, ∀ fuel ≥ n, qsortCompare heap (comparePair compareKey compareValue) a.root b.root fuel =
    some c

/-- `operator<`. -/
def TreeAt.Less (compareKey : K → K → Int) (compareValue : V → V → Int) (a b : TreeAt heap) :
    Prop :=
  ∃ c < 0, a.Compares compareKey compareValue b c

variable {compareKey : K → K → Int} {compareValue : V → V → Int} {a b : TreeAt heap} {c c' : Int}

omit [LinearOrder V] in
theorem TreeAt.Compares.unique (h : a.Compares compareKey compareValue b c)
    (h' : a.Compares compareKey compareValue b c') : c = c' := by
  obtain ⟨n, h⟩ := h
  obtain ⟨n', h'⟩ := h'
  exact some.inj ((h (max n n') (le_max_left ..)).symm.trans (h' _ (le_max_right ..)))

omit [LinearOrder V] in
theorem TreeAt.compares (hrefl : ∀ x, comparePair compareKey compareValue x x = 0)
    (a b : TreeAt heap) : a.Compares compareKey compareValue b
      (compareLists (comparePair compareKey compareValue) a.tree.toList b.tree.toList) := by
  refine ⟨a.tree.toList.length + 1, fun fuel hf => ?_⟩
  unfold qsortCompare
  split
  · next heq =>
    have hself : ∀ l : List (K × V),
        compareLists (comparePair compareKey compareValue) l l = 0 := by
      intro l
      induction l with
      | nil => rfl
      | cons x l ih => rw [compareLists, hrefl, if_neg (not_not.2 rfl), ih]
    rw [a.represents.unique (heq ▸ b.represents), hself]
  · obtain ⟨sa, hsa, hwa⟩ := pushLeft_walk a.represents 33 a.balanced a.height_le le_rfl
      (by have := a.height_le; omega) .nil
    obtain ⟨sb, hsb, hwb⟩ := pushLeft_walk b.represents 33 b.balanced b.height_le le_rfl
      (by have := b.height_le; omega) .nil
    rw [append_nil] at hwa hwb
    rw [hsa, hsb, bind_some, bind_some, compareLoop_walk hrefl fuel hwa hwb hf]

omit [LinearOrder V] in
theorem nodup_toList (h : t.Increasing) : t.toList.Nodup := by
  refine List.Pairwise.imp ?_ h
  rintro e _ hlt rfl
  exact lt_irrefl _ hlt

omit [LinearOrder V] in
theorem entries_inj (h : t.Increasing) {t' : NodePtr K V} (h' : t'.Increasing) :
    entries t = entries t' ↔ t.get = t'.get := by
  rw [entries, entries, List.map_inj_right fun _ _ h => toLex_inj.1 h]
  constructor
  · intro heq
    funext k
    refine Option.ext fun v => ?_
    rw [get_eq_some_iff h, get_eq_some_iff h', heq]
  · intro heq
    refine List.Perm.eq_of_pairwise (fun a b _ _ hab hba => absurd hab (lt_asymm hba)) h h'
      ((perm_ext_iff_of_nodup (nodup_toList h) (nodup_toList h')).2 fun (k, v) => ?_)
    rw [← get_eq_some_iff h, ← get_eq_some_iff h', heq]

theorem compareBy_neg_iff {α : Type*} [LinearOrder α] {a b : α} : compareBy a b = -1 ↔ a < b := by
  unfold compareBy
  split_ifs <;> simp_all

theorem compareBy_eq_zero_iff {α : Type*} [LinearOrder α] {a b : α} :
    compareBy a b = 0 ↔ a = b := by
  unfold compareBy
  split_ifs with h1 h2
  · simpa using h1.ne
  · simpa using h2.ne'
  · simpa using le_antisymm (not_lt.1 h2) (not_lt.1 h1)

/-- `QsortCompare` of two trees is the lexicographic comparison of their entries, whatever their
shapes and the nodes that they share: of the same sign, and the same number where the comparisons of
keys and values return only -1, 0 and 1. So `==` is equality of the maps, and `<` a strict total
order of them. -/
theorem qsortCompare_lexicographic (heap : Heap K V)
    (hK : ∀ a b, (compareKey a b).sign = compareBy a b)
    (hV : ∀ a b, (compareValue a b).sign = compareBy a b) :
    (∀ a b : TreeAt heap, ∃ c, a.Compares compareKey compareValue b c ∧
      c.sign = compareBy (entries a.tree) (entries b.tree) ∧
      (compareKey = compareBy → compareValue = compareBy →
        c = compareBy (entries a.tree) (entries b.tree))) ∧
    (∀ a b : TreeAt heap, a.Compares compareKey compareValue b 0 ↔ a.tree.get = b.tree.get) ∧
    (∀ a : TreeAt heap, ¬ a.Less compareKey compareValue a) ∧
    (∀ a b c : TreeAt heap, a.Less compareKey compareValue b → b.Less compareKey compareValue c →
      a.Less compareKey compareValue c) ∧
    ∀ a b : TreeAt heap, a.Less compareKey compareValue b ∨ a.tree.get = b.tree.get ∨
      b.Less compareKey compareValue a := by
  have hsign := comparePair_eq (fun x => Int.sign_eq_zero_iff_zero) hK hV
  have hrefl : ∀ x, comparePair compareKey compareValue x x = 0 := fun x =>
    Int.sign_eq_zero_iff_zero.1 ((hsign x x).trans (compareBy_eq_zero_iff.2 rfl))
  have hlists := compareLists_eq (fun x => Int.sign_eq_zero_iff_zero) rfl rfl hsign
  have hcompares : ∀ (a b : TreeAt heap) (c : Int), a.Compares compareKey compareValue b c →
      c.sign = compareBy (entries a.tree) (entries b.tree) := fun a b c h =>
    (a.compares hrefl b).unique h ▸ hlists ..
  have hless : ∀ a b : TreeAt heap,
      a.Less compareKey compareValue b ↔ entries a.tree < entries b.tree := by
    intro a b
    rw [← compareBy_neg_iff]
    constructor
    · rintro ⟨c, hc, h⟩
      rw [← hcompares a b c h, Int.sign_eq_neg_one_of_neg hc]
    · intro h
      exact ⟨_, Int.sign_eq_neg_one_iff_neg.1 ((hlists ..).trans h), a.compares hrefl b⟩
  refine ⟨fun a b => ⟨_, a.compares hrefl b, hlists .., ?_⟩, fun a b => ?_, fun a => ?_,
    fun a b c => ?_, fun a b => ?_⟩
  · rintro rfl rfl
    exact compareLists_eq (g := id) (fun x => Iff.rfl) rfl rfl
      (comparePair_eq (fun x => Iff.rfl) (fun _ _ => rfl) fun _ _ => rfl) _ _
  · rw [← entries_inj a.increasing b.increasing, ← compareBy_eq_zero_iff]
    constructor
    · exact fun h => (hcompares a b 0 h).symm
    · intro h
      rw [← Int.sign_eq_zero_iff_zero.1 ((hlists ..).trans h)]
      exact a.compares hrefl b
  · rw [hless]
    exact lt_irrefl _
  · rw [hless, hless, hless]
    exact lt_trans
  · rw [hless, hless, ← entries_inj a.increasing b.increasing]
    exact lt_trichotomy _ _

/-- A tree with the entries 1 and 2 is greater than its left child. -/
theorem qsortCompare_lexicographic_of_shared :
    let heap : Heap Nat Unit := fun p =>
      [⟨(1, ()), none, none, 1⟩, ⟨(2, ()), some 0, none, 2⟩][p]?
    ∃ a b : TreeAt heap, a.root = some 1 ∧ b.root = some 0 ∧
      a.Compares compareBy compareBy b 1 := by
  intro heap
  have hchild : Represents heap (some 0) _ := .node rfl .null .null
  let a : TreeAt heap := ⟨some 1, _, .node rfl hchild .null, by simp [NodePtr.Balanced],
    by simp [NodePtr.Increasing], by simp⟩
  let b : TreeAt heap := ⟨some 0, _, hchild, by simp [NodePtr.Balanced],
    by simp [NodePtr.Increasing], by simp⟩
  have hsign : ∀ {α : Type} [LinearOrder α] (x y : α), (compareBy x y).sign = compareBy x y := by
    intro α _ x y
    unfold compareBy
    split_ifs <;> rfl
  obtain ⟨c, hc, -, hvalue⟩ := (qsortCompare_lexicographic heap hsign hsign).1 a b
  have h1 : compareBy ([toLex (1, ()), toLex (2, ())] : List (Nat ×ₗ Unit))
      [toLex (1, ())] = 1 := by
    decide
  obtain rfl : c = 1 := (hvalue rfl rfl).trans h1
  exact ⟨a, b, rfl, rfl, hc⟩

/-! ## Which maps fit into the stack -/

omit [LinearOrder K] [LinearOrder V] in
/-- The lowest number of entries for a height grows like the Fibonacci numbers. -/
theorem fib_height_le (h : t.Balanced) : Nat.fib (t.height.toNat + 2) ≤ t.toList.length + 1 := by
  induction t with
  | null => exact Nat.le_refl 1
  | node key value left right ht ihl ihr =>
    obtain ⟨hl, hr, rfl, hlr, hrl⟩ := h
    have hl0 := hl.height_nonneg
    have hr0 := hr.height_nonneg
    -- One child is one lower than the tree, the other one at most two.
    have hmono (a b : Nat) (hab : a + 1 ≤ b + 2) : Nat.fib (a + 1) ≤ Nat.fib (b + 2) :=
      Nat.fib_mono hab
    rw [height_node, toList_node, length_append, length_cons]
    rcases le_total left.height right.height with hle | hle
    · have h1 := (hmono right.height.toNat left.height.toNat (by omega)).trans (ihl hl)
      have h2 : Nat.fib (right.height.toNat + 1 + 1) ≤ _ := ihr hr
      rw [max_eq_right hle, Int.toNat_add (by omega) hr0, Int.toNat_one, Nat.add_comm 1,
        Nat.fib_add_two]
      omega
    · have h1 := (hmono left.height.toNat right.height.toNat (by omega)).trans (ihr hr)
      have h2 : Nat.fib (left.height.toNat + 1 + 1) ≤ _ := ihl hl
      rw [max_eq_left hle, Int.toNat_add (by omega) hl0, Int.toNat_one, Nat.add_comm 1,
        Nat.fib_add_two]
      omega

omit [LinearOrder V] in
variable (heap compareKey compareValue) in
/-- Whatever operations built two versions, and wherever their nodes are, `QsortCompare` of them
stays within its stacks and returns if they have fewer than 9227464 entries, the least number for a
height of 33. The comment on the stack says that its 32 places correspond to about 4 billion nodes,
which is the number in a full tree. -/
theorem run_qsortCompare_returns (ops : List (Op K V))
    (hops : Run.Allows mapStep (fun maps op => op.version < maps.length) [fun _ => none] ops)
    (hrefl : ∀ x, comparePair compareKey compareValue x x = 0) :
    ∃ versions, Run.run (step rebalance) [.null] ops = some versions ∧
      ∀ t ∈ versions, ∀ t' ∈ versions, t.toList.length < 9227464 → t'.toList.length < 9227464 →
        ∀ root root', Represents heap root t → Represents heap root' t' → ∃ n, ∀ fuel ≥ n,
          qsortCompare heap (comparePair compareKey compareValue) root root' fuel =
            some (compareLists (comparePair compareKey compareValue) t.toList t'.toList) := by
  obtain ⟨versions, hrun, hmaps⟩ := Run.run_refines hops
    (fun _ _ _ hR hG => step_refines hR hG) (.cons IsMap.null .nil)
  have hfits : ∀ t ∈ versions, t.toList.length < 9227464 →
      t.Balanced ∧ t.Increasing ∧ t.height ≤ 32 := by
    intro t ht hlt
    obtain ⟨m, hm⟩ : ∃ m, IsMap t m := by
      obtain ⟨i, hi, rfl⟩ := mem_iff_getElem.1 ht
      exact ⟨_, hmaps.get hi (hmaps.length_eq ▸ hi)⟩
    refine ⟨hm.balanced, hm.increasing, le_of_not_gt fun h33 => ?_⟩
    have hfib := fib_height_le hm.balanced
    have := Nat.fib_mono (show 35 ≤ t.height.toNat + 2 by omega)
    rw [show Nat.fib 35 = 9227465 by decide +kernel] at this
    omega
  refine ⟨versions, Run.run_mono (fun s a s' h => step_of_within h) hrun, ?_⟩
  intro t ht t' ht' hlt hlt' root root' hroot hroot'
  obtain ⟨hb, hi, h32⟩ := hfits t ht hlt
  obtain ⟨hb', hi', h32'⟩ := hfits t' ht' hlt'
  exact TreeAt.compares hrefl ⟨root, t, hroot, hb, hi, h32⟩ ⟨root', t', hroot', hb', hi', h32'⟩

/-- Eight keys in order, which makes rotations: the version with seven entries and the one with
eight share the nodes of the keys 1, 2, 3 and 5. -/
def growingOps : List (Op Nat Unit) := (List.range 8).map fun i => .add i (i + 1) ()

/-- The nodes of these two versions, whose roots are at 3 and 7. -/
def sharingHeap : Heap Nat Unit := fun p =>
  [⟨(1, ()), none, none, 1⟩, ⟨(2, ()), some 0, some 2, 2⟩, ⟨(3, ()), none, none, 1⟩,
    ⟨(4, ()), some 1, some 5, 3⟩, ⟨(5, ()), none, none, 1⟩, ⟨(6, ()), some 4, some 6, 2⟩,
    ⟨(7, ()), none, none, 1⟩, ⟨(4, ()), some 1, some 8, 4⟩, ⟨(6, ()), some 4, some 9, 3⟩,
    ⟨(7, ()), none, some 10, 2⟩, ⟨(8, ()), none, none, 1⟩][p]?

theorem run_qsortCompare_returns_growingOps :
    ∃ versions t t', Run.run (step rebalance) [.null] growingOps = some versions ∧
      versions[7]? = some t ∧ Represents sharingHeap (some 3) t ∧
      versions[8]? = some t' ∧ Represents sharingHeap (some 7) t' ∧
      ∃ n, ∀ fuel ≥ n, qsortCompare sharingHeap (comparePair compareBy compareBy) (some 3) (some 7)
        fuel = some (-1) := by
  obtain ⟨versions, hrun, h⟩ := run_qsortCompare_returns sharingHeap compareBy compareBy growingOps
    (by decide) fun x => by simp [comparePair, compareBy]
  have hleft : Represents sharingHeap (some 1) _ :=
    .node rfl (.node rfl .null .null) (.node rfl .null .null)
  have hfive : Represents sharingHeap (some 4) _ := .node rfl .null .null
  have hseven : Represents sharingHeap (some 3) _ :=
    .node rfl hleft (.node rfl hfive (.node rfl .null .null))
  have height : Represents sharingHeap (some 7) _ :=
    .node rfl hleft (.node rfl hfive (.node rfl .null (.node rfl .null .null)))
  obtain rfl := some.inj ((show Run.run (step rebalance) [.null] growingOps = some _ from
    rfl).symm.trans hrun)
  exact ⟨_, _, _, hrun, rfl, hseven, rfl, height,
    h _ (mem_of_getElem? (i := 7) rfl) _ (mem_of_getElem? (i := 8) rfl) (by decide)
      (by decide) (some 3) (some 7) hseven height⟩

end

end GrpcCore.Avl
