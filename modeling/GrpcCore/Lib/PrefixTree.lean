import GrpcCore.Lib.Bits

/-!
# Prefix codes as trees

A tree of codes with the symbol of a code at its leaf. A decoder walks from the root along the bits
and starts again at the root after a leaf (`run`); it reads a message of codes one after the other,
with any bits after them (`run_flatMap`).

A decoder that takes several bits at once has a state for each inner node, its label. If its row of
a state holds what the walk does from that node on every chunk (`agreesAt`), then it does what the
walk does on every list of chunks (`runChunks_eq`). The rows are compared with the walk entry by
entry, so that the kernel can do it for a large table.
-/

universe u

inductive PrefixTree (ν α : Type u) where
  | leaf (symbol : α)
  | node (label : ν) (zero one : PrefixTree ν α)

namespace PrefixTree

open Option List

variable {ν α : Type u}

def label? : PrefixTree ν α → Option ν
  | leaf _ => none
  | node q _ _ => some q

/-- The symbol of a string of bits, if it is the code of a leaf. -/
def lookup : PrefixTree ν α → List Bool → Option α
  | leaf a, [] => some a
  | leaf _, _ :: _ => none
  | node _ _ _, [] => none
  | node _ zero one, b :: s => (if b then one else zero).lookup s

/-- What the decoder does when it comes to a tree. -/
def arrive (root : PrefixTree ν α) : PrefixTree ν α → List α × PrefixTree ν α
  | leaf a => ([a], root)
  | node q zero one => ([], node q zero one)

/-- The decoder takes one bit at an inner node. -/
def step (root : PrefixTree ν α) : PrefixTree ν α → Bool → List α × PrefixTree ν α
  | leaf _, _ => ([], root)
  | node _ zero one, b => arrive root (if b then one else zero)

def run (root : PrefixTree ν α) : PrefixTree ν α → List Bool → List α × PrefixTree ν α
  | t, [] => ([], t)
  | t, b :: s =>
    match step root t b with
    | (out, t') => match run root t' s with
      | (out', t'') => (out ++ out', t'')

section
variable {root t : PrefixTree ν α}

@[simp] theorem run_nil : run root t [] = ([], t) := rfl

theorem run_cons (b : Bool) (s : List Bool) : run root t (b :: s) =
    ((step root t b).1 ++ (run root (step root t b).2 s).1, (run root (step root t b).2 s).2) := rfl

theorem run_append (s s' : List Bool) :
    run root t (s ++ s') =
      ((run root t s).1 ++ (run root (run root t s).2 s').1, (run root (run root t s).2 s').2) := by
  induction s generalizing t with
  | nil => rfl
  | cons b s ih => simp only [cons_append, run_cons, ih, append_assoc]

variable {q : ν}

theorem run_of_lookup {s : List Bool} {a : α} (ht : t.label? = some q)
    (h : t.lookup s = some a) : run root t s = ([a], root) := by
  induction s generalizing t q with
  | nil =>
    cases t with
    | leaf _ => cases ht
    | node _ _ _ => cases h
  | cons b s ih =>
    cases t with
    | leaf _ => cases ht
    | node _ zero one =>
      change (if b then one else zero).lookup s = some a at h
      rw [run_cons, step]
      cases hchild : (if b then one else zero) with
      | leaf _ =>
        rw [hchild] at h
        cases s with
        | nil =>
          cases h
          rw [arrive, run_nil, append_nil]
        | cons _ _ => cases h
      | node q' zero' one' => rw [arrive, ih rfl (hchild ▸ h), nil_append]

theorem run_flatMap {β : Type*} {code : β → List Bool} {symbol : β → α}
    (hroot : root.label? = some q) (hcode : ∀ b, root.lookup (code b) = some (symbol b))
    (message : List β) (rest : List Bool) :
    run root root (message.flatMap code ++ rest) =
      (message.map symbol ++ (run root root rest).1, (run root root rest).2) := by
  induction message with
  | nil => rfl
  | cons b message ih =>
    rw [flatMap_cons, append_assoc, run_append, run_of_lookup hroot (hcode b), ih]
    rfl

end

/-! ## Several bits at once -/

def all (p : PrefixTree ν α → Bool) : PrefixTree ν α → Bool
  | leaf _ => true
  | node q zero one => p (node q zero one) && zero.all p && one.all p

section
variable {root t : PrefixTree ν α} {p : PrefixTree ν α → Bool}

theorem all_node {q : ν} {zero one : PrefixTree ν α} (h : (node q zero one).all p = true) :
    p (node q zero one) = true ∧ zero.all p = true ∧ one.all p = true := by
  rw [all, Bool.and_eq_true, Bool.and_eq_true] at h
  exact ⟨h.1.1, h.1.2, h.2⟩

theorem all_step (hroot : root.all p = true) (ht : t.all p = true) (b : Bool) :
    (step root t b).2.all p = true := by
  cases t with
  | leaf _ => exact hroot
  | node q zero one =>
    obtain ⟨-, hzero, hone⟩ := all_node ht
    have hchild : (if b then one else zero).all p = true := by
      cases b
      · exact hzero
      · exact hone
    rw [step]
    cases h : (if b then one else zero) with
    | leaf _ => exact hroot
    | node _ _ _ =>
      rw [h] at hchild
      exact hchild

theorem all_run (hroot : root.all p = true) (ht : t.all p = true) (s : List Bool) :
    (run root t s).2.all p = true := by
  induction s generalizing t with
  | nil => exact ht
  | cons b s ih => exact ih (all_step hroot ht b)

end

section
variable [DecidableEq ν] [DecidableEq α] {root t : PrefixTree ν α} {q : ν} {w : Nat}
  {row : ν → Option (List (Option (List α × ν)))}

/-- The entries of a row are what the decoder did. -/
def agree : List (Option (List α × ν)) → List (List α × PrefixTree ν α) → Bool
  | [], [] => true
  | some (out, q) :: r, (out', t) :: l =>
    decide (t.label? = some q) && decide (out' = out) && agree r l
  | _, _ => false

variable {n : Nat} {chunks : List Nat}

theorem getElem?_of_agree {r : List (Option (List α × ν))} {l : List (List α × PrefixTree ν α)}
    (h : agree r l = true) {x : List α × PrefixTree ν α} (hx : l[n]? = some x) :
    ∃ q, r[n]? = some (some (x.1, q)) ∧ x.2.label? = some q := by
  fun_induction agree r l generalizing n with
  | case1 => cases hx
  | case2 out q r out' t l ih =>
    rw [Bool.and_eq_true, Bool.and_eq_true, decide_eq_true_eq, decide_eq_true_eq] at h
    obtain ⟨⟨hlabel, rfl⟩, h⟩ := h
    cases n with
    | zero =>
      cases hx
      exact ⟨q, rfl, hlabel⟩
    | succ n => exact ih h hx
  | case3 => cases h

variable (root w row) in
/-- The row of the label of a node holds what the decoder does from there on every chunk of `w`
bits. -/
def agreesAt (t : PrefixTree ν α) : Bool :=
  match t.label?.bind row with
  | none => false
  | some r => agree r ((List.range (2 ^ w)).map fun n => run root t (Bits.bits w n))

variable (row) in
/-- The decoder with rows takes a list of chunks. -/
def runChunks : ν → List Nat → Option (List α × ν)
  | q, [] => some ([], q)
  | q, n :: chunks => do
    let entry ← (← row q)[n]?
    let e ← entry
    let rest ← runChunks e.2 chunks
    some (e.1 ++ rest.1, rest.2)

omit [DecidableEq ν] [DecidableEq α] in
theorem runChunks_cons_eq_some {out : List α} {q' : ν}
    (h : runChunks row q (n :: chunks) = some (out, q')) : ∃ r out₁ q₁ out₂,
      row q = some r ∧ r[n]? = some (some (out₁, q₁)) ∧
      runChunks row q₁ chunks = some (out₂, q') ∧ out = out₁ ++ out₂ := by
  simp only [runChunks, bind_eq_bind, bind_eq_some_iff, some.injEq,
    Prod.mk.injEq] at h
  obtain ⟨r, hr, entry, hentry, ⟨out₁, q₁⟩, rfl, ⟨out₂, _⟩, hrest, rfl, rfl⟩ := h
  exact ⟨r, out₁, q₁, out₂, hr, hentry, hrest, rfl⟩

theorem row_of_agreesAt (h : agreesAt root w row t = true) (hq : t.label? = some q)
    (hn : n < 2 ^ w) : ∃ r q', row q = some r ∧
      r[n]? = some (some ((run root t (Bits.bits w n)).1, q')) ∧
      (run root t (Bits.bits w n)).2.label? = some q' := by
  rw [agreesAt, hq, bind_some] at h
  cases hr : row q with
  | none =>
    rw [hr] at h
    cases h
  | some r =>
    rw [hr] at h
    obtain ⟨q', hentry, hlabel⟩ := getElem?_of_agree h
      (n := n) (x := run root t (Bits.bits w n))
      (by rw [getElem?_map, getElem?_range hn, map_some])
    exact ⟨r, q', rfl, hentry, hlabel⟩

theorem runChunks_eq (hroot : root.all (agreesAt root w row) = true)
    (ht : t.all (agreesAt root w row) = true) (hq : t.label? = some q)
    (hchunks : ∀ n ∈ chunks, n < 2 ^ w) :
    ∃ q', runChunks row q chunks = some ((run root t (chunks.flatMap (Bits.bits w))).1, q') := by
  induction chunks generalizing t q with
  | nil => exact ⟨q, rfl⟩
  | cons n chunks ih =>
    have hhere : agreesAt root w row t = true := by
      cases t with
      | leaf _ => cases hq
      | node _ _ _ => exact (all_node ht).1
    obtain ⟨r, q₁, hrow, hentry, hlabel⟩ :=
      row_of_agreesAt hhere hq (hchunks n mem_cons_self)
    obtain ⟨q', hrun⟩ := ih (all_run hroot ht (Bits.bits w n)) hlabel
      fun m hm => hchunks m (mem_cons_of_mem n hm)
    refine ⟨q', ?_⟩
    rw [flatMap_cons, run_append, runChunks, hrow]
    simp only [bind_eq_bind, bind_some, hentry, hrun]

end

end PrefixTree
