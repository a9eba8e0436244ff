import Mathlib.Algebra.GroupWithZero.Nat
import Mathlib.Data.List.Induction
import GrpcCore.Lib.Run

/-!
# Chunked vectors

`ChunkedVector` (`chunked_vector.h`) keeps its elements in linked chunks of `kChunkSize` slots that
an arena hands out and never takes back. Chunks that run empty stay linked behind `append_` and are
filled again later: the chunks before `append_` are full and those behind it are empty (`Holds`).

A chunk is the list of the elements in its first `count` slots, and a pointer to a chunk is its
position in the list of chunks that begins at `first_`. No chunk is in two vectors, since a vector
gives its chunks away only when it is moved or swapped. To read outside of a chunk, to follow a null
pointer and to fail an assertion is a `none`.
-/

namespace GrpcCore

open List Option Function

structure ChunkedVector (α : Type*) where
  arena : Nat
  chunks : List (List α) := []
  append : Option Nat := none

namespace ChunkedVector

variable {α : Type*}

/-- `chunk->next`. -/
def next (v : ChunkedVector α) (c : Nat) : Option Nat :=
  if c + 1 < v.chunks.length then some (c + 1) else none

/-! ## Iterators -/

/-- `ForwardIterator`; `ConstForwardIterator` has the same text. -/
structure ForwardIterator where
  chunk : Option Nat
  n : Nat
  deriving DecidableEq

namespace ForwardIterator

/-- `end()`. -/
def atEnd : ForwardIterator := ⟨none, 0⟩

/-- `operator*`. -/
def deref (v : ChunkedVector α) (it : ForwardIterator) : Option α :=
  it.chunk.bind fun c => v.chunks[c]?.bind (·[it.n]?)

/-- The loop of `operator++`. -/
def skip (v : ChunkedVector α) : Nat → ForwardIterator → Option ForwardIterator
  | 0, _ => none
  | m + 1, it =>
    match it.chunk with
    | none => some it
    | some c => v.chunks[c]?.bind fun xs =>
      if it.n = xs.length then skip v m ⟨v.next c, 0⟩ else some it

/-- `operator++`. -/
def increment (v : ChunkedVector α) (it : ForwardIterator) : Option ForwardIterator :=
  skip v (v.chunks.length + 1) ⟨it.chunk, it.n + 1⟩

def advance (v : ChunkedVector α) : Nat → ForwardIterator → Option ForwardIterator
  | 0, it => some it
  | n + 1, it => (increment v it).bind (advance v n)

/-- The elements that a loop up to `end()` sees, at most `m`. -/
def visit (v : ChunkedVector α) : Nat → ForwardIterator → Option (List α)
  | 0, it => if it = atEnd then some [] else none
  | m + 1, it =>
    if it = atEnd then some []
    else (deref v it).bind fun x => (increment v it).bind fun it => (visit v m it).map (x :: ·)

end ForwardIterator

def begin (v : ChunkedVector α) : ForwardIterator :=
  match v.chunks with
  | [] => ⟨none, 0⟩
  | xs :: _ => if xs.length = 0 then .atEnd else ⟨some 0, 0⟩

def size (v : ChunkedVector α) : Nat := (v.chunks.map List.length).sum

/-- What a loop from `begin()` to `end()` sees. -/
def toList (v : ChunkedVector α) : Option (List α) := ForwardIterator.visit v v.size v.begin

/-! ## Operations -/

variable (k : Nat)

/-- `AppendSlot`, up to the chunk that has the slot. -/
def appendSlot (v : ChunkedVector α) : Option (ChunkedVector α) :=
  match v.append with
  | none =>
    match v.chunks with
    | [] => some { v with chunks := [[]], append := some 0 }
    | _ :: _ => none
  | some a => v.chunks[a]?.bind fun xs =>
    if xs.length = k then
      match v.next a with
      | none => some { v with chunks := v.chunks ++ [[]], append := some (a + 1) }
      | some c => some { v with append := some c }
    else some v

def emplaceBack (v : ChunkedVector α) (x : α) : Option (ChunkedVector α) :=
  (v.appendSlot k).bind fun v => v.append.bind fun a => v.chunks[a]?.bind fun xs =>
    if xs.length < k then some { v with chunks := v.chunks.set a (xs ++ [x]) } else none

/-- The loop of `PopBack`: the chunk before `append_`. -/
def chunkBefore (v : ChunkedVector α) (a : Nat) : Nat → Nat → Option Nat
  | 0, _ => none
  | m + 1, c => if v.next c = some a then some c else (v.next c).bind (v.chunkBefore a m)

/-- The chunk that `PopBack` takes the element from. -/
def popChunk (v : ChunkedVector α) : Option Nat :=
  v.append.bind fun a => v.chunks[a]?.bind fun xs =>
    if xs.length = 0 then if a = 0 then none else v.chunkBefore a v.chunks.length 0 else some a

def popBack (v : ChunkedVector α) : Option (α × ChunkedVector α) :=
  v.popChunk.bind fun a => v.chunks[a]?.bind fun xs => xs.getLast?.map fun x =>
    (x, { v with chunks := v.chunks.set a xs.dropLast, append := some a })

/-- The loop of `Clear` stops at an empty chunk. -/
def clearChunks : List (List α) → List (List α)
  | [] => []
  | xs :: rest => if xs.length = 0 then xs :: rest else [] :: clearChunks rest

def clear (v : ChunkedVector α) : ChunkedVector α :=
  { v with chunks := clearChunks v.chunks, append := v.chunks.head?.map fun _ => 0 }

def setEnd (v : ChunkedVector α) (it : ForwardIterator) : Option (ChunkedVector α) :=
  if it = .atEnd then some v
  else it.chunk.bind fun c => v.chunks[c]?.map fun xs =>
    { v with
      chunks := v.chunks.take c ++ xs.take it.n :: (v.chunks.drop (c + 1)).map fun _ => []
      append := some c }

/-- The loop of the constructor from two iterators, up to `end()`. -/
def emplaceAll (other : ChunkedVector α) :
    Nat → ChunkedVector α → ForwardIterator → Option (ChunkedVector α)
  | 0, v, it => if it = .atEnd then some v else none
  | m + 1, v, it =>
    if it = .atEnd then some v
    else (it.deref other).bind fun x => (v.emplaceBack k x).bind fun v =>
      (it.increment other).bind fun it => emplaceAll other m v it

def copy (other : ChunkedVector α) : Option (ChunkedVector α) :=
  emplaceAll k other other.size { arena := other.arena } other.begin

/-! ## What a vector holds -/

/-- The chunks before `append_` are full and those behind it are empty. -/
structure Filled (v : ChunkedVector α) (full : List (List α)) (last : List α) (n : Nat) : Prop where
  chunks : v.chunks = full ++ last :: List.replicate n []
  append : v.append = some full.length
  full : ∀ xs ∈ full, xs.length = k
  last : last.length ≤ k

/-- The vector has no chunk yet, or its chunks hold the elements. -/
def Holds (v : ChunkedVector α) (l : List α) : Prop :=
  (v.chunks = [] ∧ v.append = none ∧ l = []) ∨
    ∃ full last n, Filled k v full last n ∧ full.flatten ++ last = l

variable {k} {v : ChunkedVector α} {l xs : List α} {x : α} {full pre post : List (List α)}
  {last : List α} {n a c m : Nat}

theorem holds_nil (k arena : Nat) : Holds k { arena := arena } ([] : List α) := .inl ⟨rfl, rfl, rfl⟩

theorem getElem?_split (hchunks : v.chunks = pre ++ xs :: post) :
    v.chunks[pre.length]? = some xs := by
  rw [hchunks, getElem?_append_right (Nat.le_refl _), Nat.sub_self, getElem?_cons_zero]

theorem next_split (hchunks : v.chunks = pre ++ xs :: post) :
    v.next pre.length = post.head?.map fun _ => pre.length + 1 := by
  rw [next, hchunks]
  cases post <;> simp

theorem Filled.flatten_eq (h : Filled k v full last n) :
    v.chunks.flatten = full.flatten ++ last := by
  rw [h.chunks]
  simp

theorem Holds.flatten_eq (h : Holds k v l) : v.chunks.flatten = l := by
  rcases h with ⟨hchunks, -, rfl⟩ | ⟨full, last, n, hf, rfl⟩
  · rw [hchunks, flatten_nil]
  · exact hf.flatten_eq

theorem Filled.set (h : Filled k v full last n) (hxs : xs.length ≤ k) :
    Filled k { v with chunks := v.chunks.set full.length xs } full xs n := by
  refine ⟨?_, h.append, h.full, hxs⟩
  rw [h.chunks, set_append_right _ _ (Nat.le_refl _), Nat.sub_self, set_cons_zero]

theorem Holds.appendSlot (h : Holds k v l) (hk : 1 ≤ k) :
    ∃ v' full last n, v.appendSlot k = some v' ∧ Filled k v' full last n ∧ last.length < k ∧
      full.flatten ++ last = l := by
  rcases h with ⟨hchunks, happend, rfl⟩ | ⟨full, last, n, hf, rfl⟩
  · rw [ChunkedVector.appendSlot, happend, hchunks]
    refine ⟨_, [], [], 0, rfl, ⟨rfl, rfl, ?_, ?_⟩, hk, rfl⟩
    · exact fun _ hxs => absurd hxs not_mem_nil
    · exact Nat.zero_le k
  · have hlast := getElem?_split hf.chunks
    have hnext := next_split hf.chunks
    rw [ChunkedVector.appendSlot, hf.append]
    dsimp only
    rw [hlast, bind_some, hnext]
    rcases Nat.lt_or_eq_of_le hf.last with hroom | hfull
    · exact ⟨v, full, last, n, if_neg (Nat.ne_of_lt hroom), hf, hroom, rfl⟩
    · have hfull' : ∀ xs ∈ full ++ [last], xs.length = k := fun xs hxs => by
        rcases mem_append.1 hxs with hxs | hxs
        · exact hf.full xs hxs
        · rw [mem_singleton.1 hxs, hfull]
      have hflatten : (full ++ [last]).flatten ++ [] = full.flatten ++ last := by simp
      have hlength : some (full.length + 1) = some (full ++ [last]).length := by simp
      rw [if_pos hfull]
      cases n with
      | zero =>
        refine ⟨_, full ++ [last], [], 0, rfl, ⟨?_, hlength, hfull', Nat.zero_le k⟩, hk, hflatten⟩
        simp [hf.chunks]
      | succ n =>
        refine ⟨_, full ++ [last], [], n, rfl, ⟨?_, hlength, hfull', Nat.zero_le k⟩, hk, hflatten⟩
        simp [hf.chunks, replicate_succ]

theorem Holds.emplaceBack (h : Holds k v l) (hk : 1 ≤ k) (x : α) :
    ∃ v', v.emplaceBack k x = some v' ∧ Holds k v' (l ++ [x]) := by
  obtain ⟨v', full, last, n, hslot, hf, hroom, rfl⟩ := h.appendSlot hk
  have hlen : (last ++ [x]).length ≤ k := by rwa [length_append]
  have hset := hf.set hlen
  refine ⟨_, ?_, .inr ⟨full, last ++ [x], n, hset, (append_assoc ..).symm⟩⟩
  rw [ChunkedVector.emplaceBack, hslot, bind_some, hf.append, bind_some,
    getElem?_split hf.chunks, bind_some, if_pos hroom]

theorem chunkBefore_eq (ha : a + 1 < v.chunks.length) (hc : c ≤ a) (hm : a < c + m) :
    v.chunkBefore (a + 1) m c = some a := by
  induction m generalizing c with
  | zero => omega
  | succ m ih =>
    have hnext : v.next c = some (c + 1) := if_pos (by omega)
    rw [chunkBefore, hnext]
    rcases Nat.lt_or_eq_of_le hc with hlt | rfl
    · rw [if_neg fun heq => by cases heq; omega, bind_some, ih hlt (by omega)]
    · rw [if_pos rfl]

theorem Holds.popChunk (h : Holds k v l) (hk : 1 ≤ k) (hne : l ≠ []) :
    ∃ a full last n, v.popChunk = some a ∧ Filled k { v with append := some a } full last n ∧
      last ≠ [] ∧ full.flatten ++ last = l := by
  rcases h with ⟨-, -, rfl⟩ | ⟨full, last, n, hf, rfl⟩
  · exact absurd rfl hne
  · rw [ChunkedVector.popChunk, hf.append, bind_some, getElem?_split hf.chunks,
      bind_some]
    by_cases hlast : last = []
    · subst hlast
      rcases full.eq_nil_or_concat' with rfl | ⟨full, prev, rfl⟩
      · exact absurd rfl hne
      · have hprev : prev.length = k := hf.full prev (by simp)
        have hchunks : v.chunks = full ++ prev :: List.replicate (n + 1) [] := by
          rw [hf.chunks, append_assoc, singleton_append, replicate_succ]
        have hbefore :
            v.chunkBefore (full ++ [prev]).length v.chunks.length 0 = some full.length := by
          rw [length_append, length_singleton]
          exact chunkBefore_eq (by simp [hchunks]) (Nat.zero_le _) (by simp [hchunks])
        rw [if_pos length_nil, if_neg (by simp), hbefore]
        refine ⟨_, full, prev, n + 1, rfl, ⟨hchunks, rfl, ?_, Nat.le_of_eq hprev⟩, ?_, by simp⟩
        · exact fun xs hxs => hf.full xs (mem_append_left _ hxs)
        · rintro rfl
          rw [length_nil] at hprev
          omega
    · rw [if_neg (mt length_eq_zero_iff.1 hlast)]
      exact ⟨_, full, last, n, rfl, ⟨hf.chunks, rfl, hf.full, hf.last⟩, hlast, rfl⟩

theorem Holds.popBack (h : Holds k v (l ++ [x])) (hk : 1 ≤ k) :
    ∃ v', v.popBack = some (x, v') ∧ Holds k v' l := by
  obtain ⟨a, full, last, n, hpop, hf, hlast, heq⟩ := h.popChunk hk (by simp)
  obtain ⟨xs, y, rfl⟩ := last.eq_nil_or_concat'.resolve_left hlast
  rw [← append_assoc] at heq
  obtain ⟨rfl, hy⟩ := append_inj' heq rfl
  obtain rfl := singleton_inj.1 hy
  obtain rfl := some.inj hf.append
  have hlen : xs.length ≤ k := by
    have := hf.last
    rw [length_append] at this
    omega
  refine ⟨_, ?_, .inr ⟨full, xs, n, hf.set hlen, rfl⟩⟩
  rw [ChunkedVector.popBack, hpop, bind_some, getElem?_split hf.chunks, bind_some,
    getLast?_concat, dropLast_concat]
  rfl

/-- An empty chunk is followed by empty ones. -/
def Sorted (cs : List (List α)) : Prop := cs.Pairwise fun xs ys => xs = [] → ys = []

theorem Filled.sorted (h : Filled k v full last n) (hk : 1 ≤ k) : Sorted v.chunks := by
  have hfull : ∀ xs ∈ full, xs ≠ [] := fun xs hxs hnil => by
    have := h.full xs hxs
    rw [hnil, length_nil] at this
    omega
  rw [Sorted, h.chunks]
  refine pairwise_append.2 ⟨?_, pairwise_cons.2 ⟨fun ys hys _ => ?_, ?_⟩, ?_⟩
  · exact pairwise_of_forall_mem_list fun xs hxs _ _ hnil => absurd hnil (hfull xs hxs)
  · exact eq_of_mem_replicate hys
  · exact pairwise_of_forall_mem_list fun _ _ ys hys _ => eq_of_mem_replicate hys
  · exact fun xs hxs _ _ hnil => absurd hnil (hfull xs hxs)

theorem Holds.sorted (h : Holds k v l) (hk : 1 ≤ k) : Sorted v.chunks := by
  rcases h with ⟨hchunks, -⟩ | ⟨full, last, n, hf, -⟩
  · rw [hchunks]
    exact .nil
  · exact hf.sorted hk

theorem Sorted.eq_nil {cs : List (List α)} (h : Sorted (xs :: cs)) (hxs : xs = []) :
    ∀ ys ∈ xs :: cs, ys = [] := by
  intro ys hys
  rcases mem_cons.1 hys with rfl | hys
  · exact hxs
  · exact (pairwise_cons.1 h).1 ys hys hxs

theorem clearChunks_eq {cs : List (List α)} (h : Sorted cs) :
    clearChunks cs = List.replicate cs.length [] := by
  induction cs with
  | nil => rfl
  | cons xs cs ih =>
    rw [clearChunks]
    split
    · next hzero => exact eq_replicate_of_mem (h.eq_nil (length_eq_zero_iff.1 hzero))
    · rw [ih (pairwise_cons.1 h).2, length_cons, replicate_succ]

theorem Holds.clear (h : Holds k v l) (hk : 1 ≤ k) : Holds k v.clear [] := by
  have hclear : v.clear.chunks = List.replicate v.chunks.length [] := clearChunks_eq (h.sorted hk)
  have happend : v.clear.append = v.chunks.head?.map fun _ => 0 := rfl
  cases hchunks : v.chunks with
  | nil =>
    rw [hchunks] at hclear happend
    exact .inl ⟨hclear, happend, rfl⟩
  | cons xs cs =>
    rw [hchunks] at hclear happend
    refine .inr ⟨[], [], cs.length, ⟨hclear, happend, ?_, Nat.zero_le k⟩, rfl⟩
    exact fun _ hxs => absurd hxs not_mem_nil

/-! ## Iteration -/

namespace ForwardIterator

variable {it : ForwardIterator} {rest : List α}

/-- The iterator stands before the elements `rest`. -/
def At (v : ChunkedVector α) (it : ForwardIterator) (rest : List α) : Prop :=
  (it = atEnd ∧ rest = []) ∨ ∃ pre xs post,
    v.chunks = pre ++ xs :: post ∧ it.chunk = some pre.length ∧
    it.n < xs.length ∧ rest = xs.drop it.n ++ post.flatten

theorem At.eq_atEnd (h : At v it rest) : it = atEnd ↔ rest = [] := by
  rcases h with ⟨rfl, rfl⟩ | ⟨pre, xs, post, -, hchunk, hn, rfl⟩
  · exact iff_of_true rfl rfl
  · refine iff_of_false (fun hit => ?_) fun hnil => ?_
    · rw [hit] at hchunk
      cases hchunk
    · have hdrop := drop_eq_nil_iff.1 (append_eq_nil_iff.1 hnil).1
      omega

theorem at_skip (hchunks : v.chunks = pre ++ post) (h : Sorted post) (hm : post.length < m) :
    ∃ it, skip v m ⟨post.head?.map fun _ => pre.length, 0⟩ = some it ∧ At v it post.flatten := by
  induction post generalizing pre m with
  | nil =>
    obtain ⟨m, rfl⟩ := Nat.exists_eq_add_of_lt hm
    exact ⟨atEnd, rfl, .inl ⟨rfl, rfl⟩⟩
  | cons xs post ih =>
    obtain ⟨m, rfl⟩ : ∃ j, m = j + 1 := ⟨m - 1, by omega⟩
    rw [skip]
    simp only [head?_cons, map_some]
    rw [getElem?_split hchunks, bind_some]
    split
    · next hzero =>
      obtain rfl := length_eq_zero_iff.1 hzero.symm
      have hchunks' : v.chunks = (pre ++ [[]]) ++ post := by rw [hchunks, append_cons]
      have hskip := ih hchunks' (pairwise_cons.1 h).2 (Nat.lt_of_succ_lt_succ hm)
      rw [next_split hchunks]
      rwa [length_append] at hskip
    · next hzero =>
      exact ⟨_, rfl, .inr ⟨pre, xs, post, hchunks, rfl, Nat.pos_of_ne_zero (Ne.symm hzero), rfl⟩⟩

theorem At.step (h : At v it (x :: rest)) (hsorted : Sorted v.chunks) :
    it.deref v = some x ∧ ∃ it', it.increment v = some it' ∧ At v it' rest := by
  rcases h with ⟨-, hnil⟩ | ⟨pre, xs, post, hchunks, hchunk, hn, hrest⟩
  · cases hnil
  · rw [drop_eq_getElem_cons hn, cons_append] at hrest
    obtain ⟨rfl, rfl⟩ := cons.inj hrest
    rw [deref, increment, skip, hchunk]
    dsimp only
    rw [bind_some, getElem?_split hchunks, bind_some, getElem?_eq_getElem hn,
      bind_some]
    refine ⟨rfl, ?_⟩
    split
    · next hlast =>
      rw [hchunks] at hsorted
      have hpost : Sorted post := (pairwise_cons.1 (pairwise_append.1 hsorted).2.1).2
      have hchunks' : v.chunks = (pre ++ [xs]) ++ post := by rw [hchunks, append_cons]
      have hskip := at_skip hchunks' hpost (m := v.chunks.length) (by simp [hchunks]; omega)
      rw [next_split hchunks, hlast, drop_length, nil_append]
      rwa [length_append] at hskip
    · next hmore =>
      exact ⟨_, rfl, .inr ⟨pre, xs, post, hchunks, rfl, by show it.n + 1 < _; omega, rfl⟩⟩

theorem At.visit_eq (h : At v it rest) (hsorted : Sorted v.chunks) :
    visit v rest.length it = some rest := by
  induction rest generalizing it with
  | nil => rw [length_nil, visit, if_pos (h.eq_atEnd.2 rfl)]
  | cons x rest ih =>
    obtain ⟨hx, it', hit', h'⟩ := h.step hsorted
    rw [length_cons, visit, if_neg (mt h.eq_atEnd.1 (cons_ne_nil x rest)), hx,
      bind_some, hit', bind_some, ih h', map_some]

theorem At.advance (h : At v it rest) (hsorted : Sorted v.chunks) (hn : n ≤ rest.length) :
    ∃ it', ForwardIterator.advance v n it = some it' ∧ At v it' (rest.drop n) := by
  induction n generalizing it rest with
  | zero => exact ⟨it, rfl, h⟩
  | succ n ih =>
    cases rest with
    | nil => cases hn
    | cons x rest =>
      obtain ⟨-, it', hit', h'⟩ := h.step hsorted
      obtain ⟨it'', hadvance, h''⟩ := ih h' (Nat.le_of_succ_le_succ hn)
      exact ⟨it'', by rw [ForwardIterator.advance, hit']; exact hadvance, h''⟩

theorem at_begin (hsorted : Sorted v.chunks) : At v v.begin v.chunks.flatten := by
  rw [begin]
  cases hchunks : v.chunks with
  | nil => exact .inl ⟨rfl, rfl⟩
  | cons xs cs =>
    rw [hchunks] at hsorted
    dsimp only
    split
    · next hzero =>
      exact .inl ⟨rfl, flatten_eq_nil_iff.2 (hsorted.eq_nil (length_eq_zero_iff.1 hzero))⟩
    · next hzero => exact .inr ⟨[], xs, cs, hchunks, rfl, Nat.pos_of_ne_zero hzero, rfl⟩

end ForwardIterator

theorem Holds.at_begin (h : Holds k v l) (hk : 1 ≤ k) : ForwardIterator.At v v.begin l := by
  have hat := ForwardIterator.at_begin (h.sorted hk)
  rwa [h.flatten_eq] at hat

theorem Holds.size_eq (h : Holds k v l) : v.size = l.length := by
  rw [size, ← h.flatten_eq, length_flatten]

theorem Holds.toList_eq (h : Holds k v l) (hk : 1 ≤ k) : v.toList = some l := by
  rw [toList, h.size_eq]
  exact (h.at_begin hk).visit_eq (h.sorted hk)

theorem Filled.of_ne_nil (h : Filled k v full last n) (hchunks : v.chunks = pre ++ xs :: post)
    (hne : xs ≠ []) : (∀ ys ∈ pre, ys.length = k) ∧ xs.length ≤ k := by
  rw [h.chunks] at hchunks
  rcases append_eq_append_iff.1 hchunks with ⟨cs, rfl, hcs⟩ | ⟨cs, hfull, hcs⟩
  · cases cs with
    | nil =>
      obtain ⟨rfl, -⟩ := cons.inj hcs
      exact ⟨by simpa using h.full, h.last⟩
    | cons ys cs =>
      obtain ⟨-, hmem⟩ := cons.inj hcs
      exact absurd (eq_of_mem_replicate (hmem ▸ by simp : xs ∈ List.replicate n [])) hne
  · have hfull' := h.full
    rw [hfull] at hfull'
    cases cs with
    | nil =>
      obtain ⟨rfl, -⟩ := cons.inj hcs
      exact ⟨by simpa using hfull', h.last⟩
    | cons ys cs =>
      obtain ⟨rfl, -⟩ := cons.inj hcs
      exact ⟨fun zs hzs => hfull' zs (by simp [hzs]), Nat.le_of_eq (hfull' xs (by simp))⟩

theorem Holds.setEnd {it : ForwardIterator} (h : Holds k v l)
    (hat : ForwardIterator.At v it (l.drop n)) :
    ∃ v', v.setEnd it = some v' ∧ Holds k v' (l.take n) := by
  rw [ChunkedVector.setEnd]
  rcases hat with ⟨rfl, hrest⟩ | ⟨pre, xs, post, hchunks, hchunk, hn, hrest⟩
  · refine ⟨v, if_pos rfl, ?_⟩
    rwa [take_of_length_le (drop_eq_nil_iff.1 hrest)]
  · obtain ⟨hpre, hxs⟩ : (∀ ys ∈ pre, ys.length = k) ∧ xs.length ≤ k := by
      rcases h with ⟨hnil, -⟩ | ⟨full, last, m, hf, -⟩
      · simp [hnil] at hchunks
      · exact hf.of_ne_nil hchunks (ne_nil_of_length_pos (Nat.zero_lt_of_lt hn))
    have hne : it ≠ .atEnd := by
      rintro rfl
      cases hchunk
    rw [if_neg hne, hchunk, bind_some, getElem?_split hchunks, map_some]
    refine ⟨_, rfl, .inr ⟨pre, xs.take it.n, post.length, ⟨?_, rfl, hpre, ?_⟩, ?_⟩⟩
    · simp [hchunks, map_const']
    · rw [length_take]
      omega
    · -- both sides come before the same elements
      refine (append_left_inj (l.drop n)).1 ?_
      rw [take_append_drop, hrest, append_assoc, ← append_assoc (take _ _),
        take_append_drop, ← h.flatten_eq, hchunks, flatten_append, flatten_cons]

theorem Holds.emplaceAll {other : ChunkedVector α} {it : ForwardIterator} {rest : List α}
    (h : Holds k v l) (hk : 1 ≤ k) (hsorted : Sorted other.chunks)
    (hat : ForwardIterator.At other it rest) :
    ∃ v', emplaceAll k other rest.length v it = some v' ∧ Holds k v' (l ++ rest) := by
  induction rest generalizing it v l with
  | nil =>
    refine ⟨v, ?_, by rwa [append_nil]⟩
    rw [length_nil, ChunkedVector.emplaceAll, if_pos (hat.eq_atEnd.2 rfl)]
  | cons x rest ih =>
    obtain ⟨hx, it', hit', hat'⟩ := hat.step hsorted
    obtain ⟨v₁, hemplace, h₁⟩ := h.emplaceBack hk x
    obtain ⟨v₂, hall, h₂⟩ := ih h₁ hat'
    rw [append_assoc, singleton_append] at h₂
    refine ⟨v₂, ?_, h₂⟩
    rw [length_cons, ChunkedVector.emplaceAll,
      if_neg (mt hat.eq_atEnd.1 (cons_ne_nil x rest)), hx, bind_some, hemplace,
      bind_some, hit', bind_some, hall]

theorem Holds.copy (h : Holds k v l) (hk : 1 ≤ k) : ∃ v', v.copy k = some v' ∧ Holds k v' l := by
  rw [ChunkedVector.copy, h.size_eq]
  exact (holds_nil k v.arena).emplaceAll hk (h.sorted hk) (h.at_begin hk)

end ChunkedVector

/-! ## Runs -/

namespace ChunkedVectors

open ChunkedVector

variable {α : Type*}

/-- A call. Vectors are objects behind names, as behind pointers: constructing a vector under a name
replaces the object there. -/
inductive Op (α : Type*) where
  | emplaceBack (i : Nat) (x : α)
  | popBack (i : Nat)
  | clear (i : Nat)
  | setEnd (i n : Nat)
  | copyConstruct (i j : Nat)
  | moveConstruct (i j : Nat)
  | copyAssign (i j : Nat)
  | moveAssign (i j : Nat)
  | swap (i j : Nat)

/-- A family of vectors, or of the lists that they should be, and what `PopBack` returned so far. -/
structure Family (β α : Type*) where
  member : Nat → β
  popped : List α := []

namespace Family

variable {β : Type*}

def set (s : Family β α) (i : Nat) (b : β) : Family β α :=
  { s with member := update s.member i b }

def swap (s : Family β α) (i j : Nat) : Family β α := (s.set j (s.member i)).set i (s.member j)

/-- A member with an element less. -/
def pop (s : Family β α) (i : Nat) (r : α × β) : Family β α :=
  { s.set i r.2 with popped := s.popped ++ [r.1] }

end Family

def stepVectors (k : Nat) (s : Family (ChunkedVector α) α) :
    Op α → Option (Family (ChunkedVector α) α)
  | .emplaceBack i x => ((s.member i).emplaceBack k x).map (s.set i)
  | .popBack i => (s.member i).popBack.map (s.pop i)
  | .clear i => some (s.set i (s.member i).clear)
  | .setEnd i n => (ForwardIterator.advance (s.member i) n (s.member i).begin).bind fun it =>
      ((s.member i).setEnd it).map (s.set i)
  -- an assignment swaps the object with the copy, which is then destroyed
  | .copyConstruct i j | .copyAssign i j => ((s.member j).copy k).map (s.set i)
  | .moveConstruct i j =>
      some ((s.set j { s.member j with chunks := [], append := none }).set i (s.member j))
  | .moveAssign i j | .swap i j => some (s.swap i j)

/-- The same call on lists. Move assignment leaves what the target had in the source. -/
def stepLists (t : Family (List α) α) : Op α → Family (List α) α
  | .emplaceBack i x => t.set i (t.member i ++ [x])
  | .popBack i =>
    { t.set i (t.member i).dropLast with popped := t.popped ++ (t.member i).getLast?.toList }
  | .clear i => t.set i []
  | .setEnd i n => t.set i ((t.member i).take n)
  | .copyConstruct i j | .copyAssign i j => t.set i (t.member j)
  | .moveConstruct i j => (t.set j []).set i (t.member j)
  | .moveAssign i j | .swap i j => t.swap i j

/-- An element is popped only if there is one, and the new end is an iterator of the vector. -/
def Allowed (t : Family (List α) α) : Op α → Prop
  | .popBack i => 0 < (t.member i).length
  | .setEnd i n => n ≤ (t.member i).length
  | _ => True

instance (t : Family (List α) α) : ∀ op, Decidable (Allowed t op)
  | .popBack i => inferInstanceAs (Decidable (0 < (t.member i).length))
  | .setEnd i n => inferInstanceAs (Decidable (n ≤ (t.member i).length))
  | .emplaceBack .. | .clear .. | .copyConstruct .. | .moveConstruct .. | .copyAssign ..
  | .moveAssign .. | .swap .. => instDecidableTrue

/-- The vectors hold the lists, and `PopBack` returned the same. -/
structure Refines (k : Nat) (s : Family (ChunkedVector α) α) (t : Family (List α) α) : Prop where
  holds : ∀ i, Holds k (s.member i) (t.member i)
  popped : s.popped = t.popped

variable {k : Nat} {s : Family (ChunkedVector α) α} {t : Family (List α) α} {v : ChunkedVector α}
  {l : List α} {op : Op α}

theorem Refines.set (h : Refines k s t) (i : Nat) (hv : Holds k v l) :
    Refines k (s.set i v) (t.set i l) := by
  refine ⟨fun j => ?_, h.popped⟩
  simp only [Family.set]
  by_cases hji : j = i
  · subst hji
    rwa [update_self, update_self]
  · rw [update_of_ne hji, update_of_ne hji]
    exact h.holds j

theorem Refines.step (h : Refines k s t) (hk : 1 ≤ k) (hop : Allowed t op) :
    ∃ s', stepVectors k s op = some s' ∧ Refines k s' (stepLists t op) := by
  cases op with
  | emplaceBack i x =>
    obtain ⟨v, heq, hv⟩ := (h.holds i).emplaceBack hk x
    exact ⟨s.set i v, by rw [stepVectors, heq]; rfl, h.set i hv⟩
  | popBack i =>
    obtain ⟨l, x, hl⟩ := (t.member i).eq_nil_or_concat'.resolve_left (ne_nil_of_length_pos hop)
    obtain ⟨v, heq, hv⟩ := (hl ▸ h.holds i : Holds k _ (l ++ [x])).popBack hk
    have hset := h.set i hv
    refine ⟨s.pop i (x, v), by rw [stepVectors, heq]; rfl, ?_, ?_⟩
    · rw [stepLists, hl, dropLast_concat]
      exact hset.holds
    · rw [stepLists, hl, getLast?_concat, ← h.popped]
      rfl
  | clear i => exact ⟨_, rfl, h.set i ((h.holds i).clear hk)⟩
  | setEnd i n =>
    obtain ⟨it, hit, hat⟩ := ((h.holds i).at_begin hk).advance ((h.holds i).sorted hk) hop
    obtain ⟨v, heq, hv⟩ := (h.holds i).setEnd hat
    exact ⟨s.set i v, by rw [stepVectors, hit, bind_some, heq]; rfl, h.set i hv⟩
  | copyConstruct i j | copyAssign i j =>
    obtain ⟨v, heq, hv⟩ := (h.holds j).copy hk
    exact ⟨s.set i v, by rw [stepVectors, heq]; rfl, h.set i hv⟩
  | moveConstruct i j => exact ⟨_, rfl, (h.set j (holds_nil k _)).set i (h.holds j)⟩
  | moveAssign i j | swap i j => exact ⟨_, rfl, (h.set j (h.holds i)).set i (h.holds j)⟩

/-- For every chunk size of at least one, every sequence of calls goes through in which elements are
popped from nonempty vectors only and new ends are iterators of the vector. A loop over a vector
then sees the elements of the list on which the same calls were made, `size` is its length, and
`PopBack` returned the last elements. -/
theorem run_refines_lists (k : Nat) (hk : 1 ≤ k) (arenas : Nat → Nat) (ops : List (Op α))
    (hops : Run.Allows stepLists Allowed { member := fun _ => [] } ops) :
    ∃ s, Run.run (stepVectors k) { member := fun i => { arena := arenas i } } ops = some s ∧
      ∀ t, t = ops.foldl stepLists { member := fun _ => [] } → s.popped = t.popped ∧
        ∀ i, (s.member i).toList = some (t.member i) ∧ (s.member i).size = (t.member i).length := by
  have hinit : Refines k { member := fun i => { arena := arenas i } }
      ({ member := fun _ => [] } : Family (List α) α) := ⟨fun i => holds_nil k (arenas i), rfl⟩
  obtain ⟨s, hrun, hs⟩ := Run.run_refines hops (fun s t op hr hop => hr.step hk hop) hinit
  refine ⟨s, hrun, ?_⟩
  rintro t rfl
  exact ⟨hs.popped, fun i => ⟨(hs.holds i).toList_eq hk, (hs.holds i).size_eq⟩⟩

/-- Chunks of two slots: the second chunk of the first vector runs empty and is filled again. -/
theorem run_refines_lists_refilled :
    let ops : List (Op Nat) := [.emplaceBack 0 1, .emplaceBack 0 2, .emplaceBack 0 3, .popBack 0,
      .popBack 0, .emplaceBack 0 4, .emplaceBack 0 5, .copyConstruct 1 0, .setEnd 0 1,
      .moveAssign 2 0]
    ∃ s, Run.run (stepVectors 2) { member := fun _ => { arena := 0 } } ops = some s ∧
      ∀ t, t = ops.foldl stepLists { member := fun _ => [] } → s.popped = t.popped ∧
        ∀ i, (s.member i).toList = some (t.member i) ∧ (s.member i).size = (t.member i).length := by
  intro ops
  exact run_refines_lists 2 (by decide) (fun _ => 0) ops (by decide)

end ChunkedVectors

end GrpcCore
