import Mathlib.Data.List.Nodup
import GrpcCore.Lib.Run
import GrpcCore.Lib.PackedPair

/-!
# WorkSerializer

`WorkSerializer::WorkSerializerImpl` (`work_serializer.cc`) runs callbacks one at a time on borrowed
threads. The word `refs_` packs the number of owners and a size, which counts the callbacks that are
queued or about to be, the one that is running, and one more until `Orphan` is called. A thread
that finds no owner owns the serializer until it has drained the queue; others leave their callback
in the queue.

The model takes each atomic operation of a thread as a step: the update of `refs_` with which a call
begins, the update that gives up the owner count, the push, the end of a callback, and the updates
and pops of `DrainQueueOwned`. A callback may make calls of its own. The queue is first in first
out, and a pop of the empty queue is tried again.

When the serializer is orphaned while a callback is pending, the size no longer tells an empty
queue from a queue with one callback, and the callback is lost (`Abandons`).
`WorkSerializer.run_serializes_iff` says that nothing else goes wrong as long as the two counters
fit into the word.
-/

namespace GrpcCore

open List Option PackedPair

/-- The calls that bring a callback: that of `DrainQueue` does nothing. -/
inductive CallKind where
  | run
  | schedule
  | drainQueue
  deriving DecidableEq

/-- Where the thread that owns the serializer is: in a callback, or before one of the three
operations of the loop of `DrainQueueOwned`. -/
inductive OwnerStage where
  | running (call : Nat)
  | fetchSub
  | compareExchange
  | pop
  deriving DecidableEq

/-- The callback of the owner is counted until the loop of `DrainQueueOwned` subtracts it. -/
def OwnerStage.held : OwnerStage → Nat
  | .running _ | .fetchSub => 1
  | .compareExchange | .pop => 0

structure Owner where
  thread : Nat
  stage : OwnerStage
  deriving DecidableEq

/-- The implementation object and the threads in its methods. A callback is the number of the call
that brought it. `releasing` are the threads that have found another owner and still have to give up
the owner count, `pushing` those that still have to push their callback. The last six fields record
what happened: the calls, the callbacks in the order in which they began, the calls of `DrainQueue`
that became owners, `Orphan`, how often the object was deleted, and whether it was used after that.
-/
structure WorkSerializer where
  refs : BitVec 64 := pack 64 48 0 1
  queue : List Nat := []
  owners : List Owner := []
  releasing : List (Nat × Nat) := []
  pushing : List (Nat × Nat) := []
  calls : List CallKind := []
  executed : List Nat := []
  drains : List Nat := []
  orphaned : Bool := false
  deleted : Nat := 0
  usedAfterDelete : Bool := false

namespace WorkSerializer

def makeRefPair (owners size : Nat) : BitVec 64 := pack 64 48 owners size

def getOwners (refPair : BitVec 64) : Nat := high 48 refPair

def getSize (refPair : BitVec 64) : Nat := low 48 refPair

/-- Whether the object has been used after it was deleted, once it is accessed. -/
def used (s : WorkSerializer) : Bool := s.usedAfterDelete || 0 < s.deleted

/-- The thread is in the middle of a call that does not own the serializer. -/
def Busy (s : WorkSerializer) (thread : Nat) : Prop :=
  thread ∈ s.releasing.map Prod.fst ∨ thread ∈ s.pushing.map Prod.fst

instance (s : WorkSerializer) (thread : Nat) : Decidable (s.Busy thread) :=
  inferInstanceAs (Decidable (_ ∨ _))

/-- The innermost method of the thread that owns the serializer. -/
def ownerOf (s : WorkSerializer) (thread : Nat) : Option Owner :=
  s.owners.find? (·.thread = thread)

/-- The thread may make a call: it is in no method, or in a callback. -/
def Free (s : WorkSerializer) (thread : Nat) : Prop :=
  ¬ s.Busy thread ∧ ∀ o ∈ s.ownerOf thread, ∃ call, o.stage = .running call

instance (o : Owner) : Decidable (∃ call, o.stage = .running call) :=
  match o.stage with
  | .running call => isTrue ⟨call, rfl⟩
  | .fetchSub | .compareExchange | .pop => isFalse fun ⟨_, h⟩ => nomatch h

instance (s : WorkSerializer) (thread : Nat) : Decidable (s.Free thread) :=
  inferInstanceAs (Decidable (_ ∧ _))

def run (s : WorkSerializer) (thread : Nat) : WorkSerializer :=
  if getOwners s.refs = 0 then
    { s with
      refs := s.refs + makeRefPair 1 1
      calls := s.calls ++ [.run]
      owners := ⟨thread, .running s.calls.length⟩ :: s.owners
      executed := s.executed ++ [s.calls.length]
      usedAfterDelete := s.used }
  else
    { s with
      refs := s.refs + makeRefPair 1 1
      calls := s.calls ++ [.run]
      releasing := (thread, s.calls.length) :: s.releasing
      usedAfterDelete := s.used }

def schedule (s : WorkSerializer) (thread : Nat) : WorkSerializer :=
  { s with
    refs := s.refs + makeRefPair 0 1
    calls := s.calls ++ [.schedule]
    pushing := (thread, s.calls.length) :: s.pushing
    usedAfterDelete := s.used }

def drainQueue (s : WorkSerializer) (thread : Nat) : WorkSerializer :=
  if getOwners s.refs = 0 then
    { s with
      refs := s.refs + makeRefPair 1 1
      calls := s.calls ++ [.drainQueue]
      owners := ⟨thread, .fetchSub⟩ :: s.owners
      drains := s.drains ++ [s.calls.length]
      usedAfterDelete := s.used }
  else
    { s with
      refs := s.refs + makeRefPair 1 1
      calls := s.calls ++ [.drainQueue]
      releasing := (thread, s.calls.length) :: s.releasing
      usedAfterDelete := s.used }

def orphan (s : WorkSerializer) : WorkSerializer :=
  { s with
    refs := s.refs - makeRefPair 0 1
    orphaned := true
    deleted := if getOwners s.refs = 0 ∧ getSize s.refs = 1 then s.deleted + 1 else s.deleted
    usedAfterDelete := s.used }

/-- The second update of `Run` and `DrainQueue`, when there is another owner. -/
def release (s : WorkSerializer) (thread call : Nat) : WorkSerializer :=
  { s with
    refs := s.refs - makeRefPair 1 0
    releasing := s.releasing.erase (thread, call)
    pushing := (thread, call) :: s.pushing
    usedAfterDelete := s.used }

/-- The push with which a call ends that does not own the serializer. -/
def push (s : WorkSerializer) (thread call : Nat) : WorkSerializer :=
  { s with
    queue := s.queue ++ [call]
    pushing := s.pushing.erase (thread, call)
    usedAfterDelete := s.used }

/-- The owners when one of them goes on to another stage. -/
def ownersAt (s : WorkSerializer) (o : Owner) (stage : OwnerStage) : List Owner :=
  ⟨o.thread, stage⟩ :: s.owners.erase o

/-- The update at the beginning of the loop of `DrainQueueOwned`, after which the object may be
deleted. -/
def fetchSub (s : WorkSerializer) (o : Owner) : WorkSerializer :=
  let refs := s.refs - makeRefPair 0 1
  if getSize s.refs = 1 then
    { s with
      refs
      owners := s.owners.erase o
      deleted := s.deleted + 1
      usedAfterDelete := s.used }
  else if getSize s.refs = 2 then
    { s with refs, owners := s.ownersAt o .compareExchange, usedAfterDelete := s.used }
  else { s with refs, owners := s.ownersAt o .pop, usedAfterDelete := s.used }

/-- The attempt of `DrainQueueOwned` to give up ownership, after which the object may be deleted. -/
def compareExchange (s : WorkSerializer) (o : Owner) : WorkSerializer :=
  if s.refs = makeRefPair 1 1 then
    { s with refs := makeRefPair 0 1, owners := s.owners.erase o, usedAfterDelete := s.used }
  else if getSize s.refs = 0 then
    { s with
      owners := s.owners.erase o
      deleted := s.deleted + 1
      usedAfterDelete := s.used }
  else { s with owners := s.ownersAt o .pop, usedAfterDelete := s.used }

/-- `PopAndCheckEnd`, and the start of the callback it returns. -/
def pop (s : WorkSerializer) (o : Owner) : WorkSerializer :=
  match s.queue with
  | [] => { s with usedAfterDelete := s.used }
  | call :: queue =>
    { s with
      queue
      owners := s.ownersAt o (.running call)
      executed := s.executed ++ [call]
      usedAfterDelete := s.used }

/-- The next operation of an owner. In a callback it is the end of the callback. -/
def advance (s : WorkSerializer) (o : Owner) : WorkSerializer :=
  match o.stage with
  | .running _ => { s with owners := s.ownersAt o .fetchSub }
  | .fetchSub => s.fetchSub o
  | .compareExchange => s.compareExchange o
  | .pop => s.pop o

/-- The atomic operations, each with the thread that performs it. -/
inductive Action where
  | run (thread : Nat)
  | schedule (thread : Nat)
  | drainQueue (thread : Nat)
  | orphan (thread : Nat)
  | release (thread call : Nat)
  | push (thread call : Nat)
  | advance (thread : Nat)

/-- One step; `none` when the thread is not at this operation. Calls are made before `Orphan`, and
`Orphan` once. -/
def step (s : WorkSerializer) : Action → Option WorkSerializer
  | .run thread => if s.Free thread ∧ s.orphaned = false then some (s.run thread) else none
  | .schedule thread =>
    if s.Free thread ∧ s.orphaned = false then some (s.schedule thread) else none
  | .drainQueue thread =>
    if s.Free thread ∧ s.orphaned = false then some (s.drainQueue thread) else none
  | .orphan thread => if s.Free thread ∧ s.orphaned = false then some s.orphan else none
  | .release thread call =>
    if (thread, call) ∈ s.releasing then some (s.release thread call) else none
  | .push thread call => if (thread, call) ∈ s.pushing then some (s.push thread call) else none
  | .advance thread =>
    if s.Busy thread then none else (s.ownerOf thread).map s.advance

variable {s s' : WorkSerializer} {thread call : Nat} {o : Owner}

/-! ## What goes wrong -/

/-- The callbacks that are in the queue or on their way into it. -/
def pending (s : WorkSerializer) : List Nat :=
  s.releasing.map Prod.snd ++ s.pushing.map Prod.snd ++ s.queue

/-- The number of owners that `refs_` counts. -/
def ownerCount (s : WorkSerializer) : Nat := s.owners.length + s.releasing.length

def size (s : WorkSerializer) : Nat :=
  (if s.orphaned then 0 else 1) + s.pending.length + (s.owners.map (·.stage.held)).sum

/-- A call that updates `refs_` finds room in both counters. -/
def Fits (s : WorkSerializer) : Action → Prop
  | .run _ | .schedule _ | .drainQueue _ => s.ownerCount + 1 < 2 ^ 16 ∧ s.size + 1 < 2 ^ 48
  | _ => True

instance (s : WorkSerializer) (a : Action) : Decidable (s.Fits a) := by
  unfold Fits
  split <;> infer_instance

/-- Pending callbacks are abandoned: `Orphan` is called while nobody owns the serializer, or the
owner of an orphaned serializer takes the size 1 of a last callback for that of an empty queue. -/
def Abandons (s : WorkSerializer) : Action → Prop
  | .orphan thread =>
    s.Free thread ∧ s.orphaned = false ∧ s.owners = [] ∧ s.pending ≠ []
  | .advance thread =>
    ¬ s.Busy thread ∧ s.orphaned = true ∧ s.releasing = [] ∧ s.pending.length = 1 ∧
      ∃ o ∈ s.ownerOf thread, o.stage = .compareExchange
  | _ => False

instance (s : WorkSerializer) (a : Action) : Decidable (s.Abandons a) := by
  unfold Abandons
  split <;> infer_instance

def Quiescent (s : WorkSerializer) : Prop :=
  s.owners = [] ∧ s.releasing = [] ∧ s.pushing = []

structure Serializes (s : WorkSerializer) : Prop where
  /-- Two callbacks do not run at the same time. -/
  alone : ∀ o₁ ∈ s.owners, ∀ o₂ ∈ s.owners, (∃ c, o₁.stage = .running c) →
    (∃ c, o₂.stage = .running c) → s.owners.length = 1 ∧ o₁ = o₂
  /-- No callback begins twice. -/
  once : ∀ c, s.executed.count c ≤ 1
  /-- When every thread has left, the callbacks given to `Run` have been executed, and those given
  to `Schedule` if a call that drains the queue came later. -/
  ran : s.Quiescent → ∀ c, s.calls[c]? = some .run → s.executed.count c = 1
  scheduled : s.Quiescent → ∀ c c', s.calls[c]? = some .schedule → c < c' →
    (s.calls[c']? = some .run ∨ s.calls[c']? = some .drainQueue) → s.executed.count c = 1
  /-- No callback is left with an orphaned serializer that nobody owns. -/
  none_left : s.orphaned = true → s.owners = [] → s.pushing = [] ∧ s.queue = []
  /-- The object is deleted once, after `Orphan`, and not used afterwards. -/
  deleted_once : s.deleted ≤ 1 ∧ (s.deleted = 1 → s.orphaned = true)
  deleted_last : s.Quiescent → s.orphaned = true → s.deleted = 1
  not_used : s.usedAfterDelete = false

/-! ## The invariant -/

/-- Every call is accounted for: its callback is pending or has begun, or it was a call of
`DrainQueue` that became the owner. -/
structure Accounts (s : WorkSerializer) : Prop where
  perm : (s.pending ++ (s.executed ++ s.drains)).Perm (List.range s.calls.length)
  drains : ∀ c ∈ s.drains, s.calls[c]? = some .drainQueue

/-- The invariant before the object is deleted: there is at most one owner and `refs_` holds the
two counts. Nobody owns the serializer only while callbacks of `Schedule` are pending that no later
call drains. -/
structure Alive (s : WorkSerializer) : Prop extends Accounts s where
  not_deleted : s.deleted = 0
  not_used : s.usedAfterDelete = false
  one : s.owners.length ≤ 1
  word : s.refs = makeRefPair s.ownerCount s.size
  fits : PackedPair.Fits 64 48 s.ownerCount s.size
  work : ∀ o ∈ s.owners, o.stage = .pop → s.pending ≠ []
  idle : s.owners = [] → s.releasing = [] ∧ s.orphaned = false ∧
    ∀ c ∈ s.pending, ∀ c', c ≤ c' → c' < s.calls.length → s.calls[c']? = some .schedule

/-- The invariant after the object is deleted. -/
structure Gone (s : WorkSerializer) : Prop extends Accounts s where
  deleted : s.deleted = 1
  not_used : s.usedAfterDelete = false
  orphaned : s.orphaned = true
  owners : s.owners = []
  pending : s.pending = []

theorem Alive.used (h : Alive s) : s.used = false := by
  rw [WorkSerializer.used, h.not_deleted, h.not_used]
  rfl

theorem Alive.getOwners (h : Alive s) : getOwners s.refs = s.ownerCount := by
  rw [h.word, WorkSerializer.getOwners, makeRefPair, high_pack h.fits]

theorem Alive.getSize (h : Alive s) : getSize s.refs = s.size := by
  rw [h.word, WorkSerializer.getSize, makeRefPair, low_pack h.fits]

theorem Alive.ownerCount_eq_zero (h : Alive s) : s.ownerCount = 0 ↔ s.owners = [] := by
  rw [ownerCount]
  constructor
  · intro hzero
    exact length_eq_zero_iff.1 (by omega)
  · intro hnil
    rw [hnil, (h.idle hnil).1]
    rfl

theorem Alive.owners_eq (h : Alive s) (ho : s.ownerOf thread = some o) : s.owners = [o] := by
  have hmem : o ∈ s.owners := mem_of_find?_eq_some ho
  have hone := h.one
  match hs : s.owners with
  | [] => rw [hs] at hmem; cases hmem
  | [o'] => rw [hs] at hmem; rw [mem_singleton.1 hmem]
  | _ :: _ :: _ => rw [hs] at hone; simp at hone

theorem pending_eq_nil : s.pending = [] ↔ s.releasing = [] ∧ s.pushing = [] ∧ s.queue = [] := by
  simp only [pending, append_eq_nil_iff, map_eq_nil_iff, and_assoc]

/-! ## Every call stays accounted for -/

theorem Accounts.newCall (h : Accounts s) (kind : CallKind) (hcalls : s'.calls = s.calls ++ [kind])
    (hperm : (s'.pending ++ (s'.executed ++ s'.drains)).Perm
      (s.calls.length :: (s.pending ++ (s.executed ++ s.drains))))
    (hdrains : ∀ c ∈ s'.drains, c ∈ s.drains ∨ c = s.calls.length ∧ kind = .drainQueue) :
    Accounts s' where
  perm := by
    rw [hcalls, length_append, length_singleton, range_succ]
    refine hperm.trans ((h.perm.cons _).trans ?_)
    exact (perm_append_singleton _ _).symm
  drains c hc := by
    rcases hdrains c hc with hold | ⟨rfl, rfl⟩
    · have hget := h.drains c hold
      rw [hcalls, getElem?_append_left (List.getElem?_eq_some_iff.1 hget).1]
      exact hget
    · rw [hcalls]
      exact getElem?_concat_length

theorem Accounts.keep (h : Accounts s) (hcalls : s'.calls = s.calls)
    (hpending : s'.pending.Perm s.pending) (hexecuted : s'.executed = s.executed)
    (hdrains : s'.drains = s.drains) : Accounts s' where
  perm := by
    rw [hcalls, hexecuted, hdrains]
    exact (hpending.append_right _).trans h.perm
  drains c hc := by
    rw [hcalls]
    exact h.drains c (hdrains ▸ hc)

theorem perm_began (pending executed drains : List Nat) (call : Nat) :
    (pending ++ (executed ++ [call] ++ drains)).Perm
      (call :: (pending ++ (executed ++ drains))) := by
  rw [append_assoc, ← append_assoc, ← append_assoc pending, singleton_append]
  exact perm_middle

theorem Accounts.run (h : Accounts s) (thread : Nat) : Accounts (s.run thread) := by
  unfold WorkSerializer.run
  split
  · refine h.newCall _ rfl ?_ fun c hc => .inl hc
    simp only [pending]
    exact perm_began _ _ _ _
  · refine h.newCall _ rfl ?_ fun c hc => .inl hc
    simp only [pending, map_cons, cons_append]
    exact .refl _

theorem Accounts.drainQueue (h : Accounts s) (thread : Nat) : Accounts (s.drainQueue thread) := by
  unfold WorkSerializer.drainQueue
  split
  · refine h.newCall .drainQueue rfl ?_ fun c hc => ?_
    · simp only [pending]
      rw [← append_assoc, ← append_assoc, ← append_assoc]
      exact perm_append_singleton _ _
    · rw [mem_append, mem_singleton] at hc
      exact hc.imp_right fun hlast => ⟨hlast, rfl⟩
  · refine h.newCall _ rfl ?_ fun c hc => .inl hc
    simp only [pending, map_cons, cons_append]
    exact .refl _

theorem perm_pending_schedule (s : WorkSerializer) (thread : Nat) :
    (s.schedule thread).pending.Perm (s.calls.length :: s.pending) := by
  simp only [pending, WorkSerializer.schedule, map_cons, append_assoc, cons_append]
  exact perm_middle

theorem Accounts.schedule (h : Accounts s) (thread : Nat) : Accounts (s.schedule thread) := by
  refine h.newCall _ rfl ?_ fun c hc => .inl hc
  exact (s.perm_pending_schedule thread).append_right _

theorem perm_pending_release (hmem : (thread, call) ∈ s.releasing) :
    (s.release thread call).pending.Perm s.pending := by
  have hperm := (perm_cons_erase hmem).map Prod.snd
  simp only [pending, WorkSerializer.release, map_cons]
  refine .append_right _ (.trans perm_middle ?_)
  exact (hperm.append_right (s.pushing.map Prod.snd)).symm

theorem perm_pending_push (hmem : (thread, call) ∈ s.pushing) :
    (s.push thread call).pending.Perm s.pending := by
  have hperm := (perm_cons_erase hmem).map Prod.snd
  simp only [pending, WorkSerializer.push, append_assoc]
  refine .append_left _ (.trans ?_ (hperm.append_right s.queue).symm)
  rw [← append_assoc]
  exact perm_append_singleton _ _

theorem Accounts.pop (h : Accounts s) (o : Owner) : Accounts (s.pop o) := by
  unfold WorkSerializer.pop
  split
  · exact h.keep rfl (.refl _) rfl rfl
  · next call queue hqueue =>
    refine ⟨.trans (perm_began _ _ _ _) (.trans ?_ h.perm), h.drains⟩
    have hperm : s.pending.Perm (call :: { s with queue := queue }.pending) := by
      rw [pending, hqueue]
      exact perm_middle
    exact (hperm.append_right _).symm

/-! ## Steps -/

variable {n owners owners' size size' : Nat} {stage : OwnerStage} {refs : BitVec 64} {a : Action}
  {calls : List CallKind} {executed drains : List Nat}

theorem size_congr (horphaned : s'.orphaned = s.orphaned)
    (hpending : s'.pending.length = s.pending.length + n) (howners : s'.owners = s.owners) :
    s'.size = s.size + n := by
  rw [size, size, horphaned, hpending, howners]
  omega

theorem fits_of_le (h : PackedPair.Fits 64 48 owners size)
    (howners : owners' ≤ owners) (hsize : size' ≤ size) : PackedPair.Fits 64 48 owners' size' :=
  ⟨Nat.lt_of_le_of_lt howners h.high_lt, Nat.lt_of_le_of_lt hsize h.low_lt, h.le⟩

theorem Alive.word_add (h : Alive s) (owners size : Nat) :
    s.refs + makeRefPair owners size = makeRefPair (s.ownerCount + owners) (s.size + size) := by
  rw [h.word]
  exact pack_add 64 48 _ _ _ _

theorem Alive.word_sub (h : Alive s)
    (howners : s.ownerCount = owners' + owners) (hsize : s.size = size' + size) :
    s.refs - makeRefPair owners size = makeRefPair owners' size' := by
  rw [h.word, howners, hsize]
  exact pack_sub 64 48 _ _ _ _

/-- `Run` and `DrainQueue` count their call, which becomes the owner or finds another one. -/
theorem Alive.enter (h : Alive s)
    (hs' : s' = if WorkSerializer.getOwners s.refs = 0 then
      { s with
        refs := s.refs + makeRefPair 1 1, calls, owners := ⟨thread, stage⟩ :: s.owners, executed,
        drains, usedAfterDelete := s.used }
    else
      { s with
        refs := s.refs + makeRefPair 1 1, calls, releasing := (thread, call) :: s.releasing,
        usedAfterDelete := s.used })
    (hheld : stage.held = 1) (hpop : stage ≠ .pop)
    (hfits : s.ownerCount + 1 < 2 ^ 16 ∧ s.size + 1 < 2 ^ 48) (haccounts : Accounts s') :
    Alive s' := by
  have hword := h.word_add 1 1
  have hfits' : PackedPair.Fits 64 48 (s.ownerCount + 1) (s.size + 1) :=
    ⟨hfits.1, hfits.2, by decide⟩
  have hnone := h.getOwners ▸ h.ownerCount_eq_zero
  by_cases hzero : WorkSerializer.getOwners s.refs = 0
  · rw [if_pos hzero] at hs'
    have hcount : s'.ownerCount = s.ownerCount + 1 := by
      simp only [hs', ownerCount, length_cons]
      omega
    have hsize : s'.size = s.size + 1 := by
      simp only [hs', size, pending, map_cons, sum_cons, hheld]
      omega
    subst hs'
    refine ⟨haccounts, h.not_deleted, h.used, ?_, ?_, ?_, ?_, nofun⟩
    · rw [hnone.1 hzero]
      exact Nat.le_refl 1
    · rw [hcount, hsize, hword]
    · rwa [hcount, hsize]
    · intro o ho hstage
      rw [hnone.1 hzero] at ho
      rw [mem_singleton.1 ho] at hstage
      exact absurd hstage hpop
  · rw [if_neg hzero] at hs'
    have hcount : s'.ownerCount = s.ownerCount + 1 := by rw [hs']; rfl
    have hsize : s'.size = s.size + 1 := by rw [hs']; exact size_congr (n := 1) rfl rfl rfl
    subst hs'
    refine ⟨haccounts, h.not_deleted, h.used, h.one, ?_, ?_, fun _ _ _ => nofun, ?_⟩
    · rw [hcount, hsize, hword]
    · rwa [hcount, hsize]
    · intro hnil
      exact absurd (hnone.2 hnil) hzero

theorem Alive.run (h : Alive s) (hfits : s.Fits (.run thread)) : Alive (s.run thread) :=
  h.enter rfl rfl nofun hfits (h.toAccounts.run thread)

theorem Alive.drainQueue (h : Alive s) (hfits : s.Fits (.drainQueue thread)) :
    Alive (s.drainQueue thread) :=
  h.enter rfl rfl nofun hfits (h.toAccounts.drainQueue thread)

theorem Alive.schedule (h : Alive s) (hfits : s.Fits (.schedule thread)) :
    Alive (s.schedule thread) := by
  have hpending := s.perm_pending_schedule thread
  have hsize : (s.schedule thread).size = s.size + 1 := size_congr rfl hpending.length_eq rfl
  have hcount : (s.schedule thread).ownerCount = s.ownerCount := rfl
  refine ⟨h.toAccounts.schedule thread, h.not_deleted, h.used, h.one, ?_, ?_, ?_, ?_⟩
  · rw [hcount, hsize]
    exact h.word_add 0 1
  · rw [hcount, hsize]
    exact ⟨Nat.lt_of_succ_lt hfits.1, hfits.2, by decide⟩
  · intro o ho hstage hnil
    rw [hnil] at hpending
    cases hpending.length_eq
  · intro hnil
    obtain ⟨hreleasing, horphaned, hlate⟩ := h.idle hnil
    refine ⟨hreleasing, horphaned, fun c hc c' hle hlt => ?_⟩
    simp only [WorkSerializer.schedule, length_append, length_singleton] at hlt ⊢
    rcases Nat.lt_succ_iff_lt_or_eq.1 hlt with hlt | rfl
    · rw [getElem?_append_left hlt]
      rcases mem_cons.1 (hpending.mem_iff.1 hc) with rfl | hold
      · omega
      · exact hlate c hold c' hle hlt
    · exact getElem?_concat_length

theorem Alive.orphan (h : Alive s) (horphaned : s.orphaned = false)
    (hkeep : s.owners = [] → s.pending = []) : Alive s.orphan ∨ Gone s.orphan := by
  have hpending : s.orphan.pending = s.pending := rfl
  have haccounts : Accounts s.orphan := h.keep rfl (hpending ▸ .refl _) rfl rfl
  have hsize : s.size = s.orphan.size + 1 := by
    rw [size, size, hpending, horphaned]
    simp only [WorkSerializer.orphan, if_true, Bool.false_eq_true, if_false]
    omega
  have hdeletes : (WorkSerializer.getOwners s.refs = 0 ∧ WorkSerializer.getSize s.refs = 1) ↔
      s.owners = [] := by
    rw [h.getOwners, h.getSize, h.ownerCount_eq_zero]
    refine and_iff_left_of_imp fun hnil => ?_
    rw [size, hkeep hnil, hnil, horphaned]
    rfl
  by_cases hnil : s.owners = []
  · refine .inr ⟨haccounts, ?_, h.used, rfl, hnil, hpending.trans (hkeep hnil)⟩
    rw [WorkSerializer.orphan, if_pos (hdeletes.2 hnil), h.not_deleted]
  · refine .inl ⟨haccounts, ?_, h.used, h.one, ?_, ?_, ?_, fun h' => absurd h' hnil⟩
    · rw [WorkSerializer.orphan, if_neg fun hd => hnil (hdeletes.1 hd), h.not_deleted]
    · exact h.word_sub (Nat.add_zero _).symm hsize
    · exact fits_of_le h.fits (Nat.le_refl _) (by omega)
    · rw [hpending]
      exact h.work

theorem Alive.release (h : Alive s) (hmem : (thread, call) ∈ s.releasing) :
    Alive (s.release thread call) := by
  have hpending := perm_pending_release hmem
  have hsize : (s.release thread call).size = s.size :=
    size_congr (n := 0) rfl hpending.length_eq rfl
  have hcount : s.ownerCount = (s.release thread call).ownerCount + 1 := by
    have hpos := length_pos_of_mem hmem
    have hlen := length_erase_of_mem hmem
    simp only [ownerCount, WorkSerializer.release, hlen]
    omega
  refine ⟨h.keep rfl hpending rfl rfl, h.not_deleted, h.used, h.one, ?_, ?_, ?_, ?_⟩
  · exact h.word_sub hcount hsize.symm
  · exact fits_of_le h.fits (by omega) (Nat.le_of_eq hsize)
  · intro o ho hstage hnil
    exact h.work o ho hstage (hnil ▸ hpending).nil_eq.symm
  · intro hnil
    rw [(h.idle hnil).1] at hmem
    cases hmem

theorem Alive.push (h : Alive s) (hmem : (thread, call) ∈ s.pushing) :
    Alive (s.push thread call) := by
  have hpending := perm_pending_push hmem
  have hsize : (s.push thread call).size = s.size :=
    size_congr (n := 0) rfl hpending.length_eq rfl
  refine ⟨h.keep rfl hpending rfl rfl, h.not_deleted, h.used, h.one, ?_, ?_, ?_, ?_⟩
  · rw [hsize]
    exact h.word
  · rw [hsize]
    exact h.fits
  · intro o ho hstage hnil
    exact h.work o ho hstage (hnil ▸ hpending).nil_eq.symm
  · intro hnil
    obtain ⟨hreleasing, horphaned, hlate⟩ := h.idle hnil
    exact ⟨hreleasing, horphaned, fun c hc => hlate c (hpending.mem_iff.1 hc)⟩

/-! ## The loop of the owner -/

theorem size_of_owner (howner : s.owners = [o]) :
    s.size = (if s.orphaned then 0 else 1) + s.pending.length + o.stage.held := by
  rw [size, howner]
  rfl

theorem ownersAt_eq (howner : s.owners = [o]) (stage : OwnerStage) :
    s.ownersAt o stage = [⟨o.thread, stage⟩] := by
  rw [ownersAt, howner, erase_cons_head]

theorem erase_eq (howner : s.owners = [o]) : s.owners.erase o = [] := by
  rw [howner, erase_cons_head]

theorem Alive.toStage (h : Alive s) (howner : s.owners = [o])
    (howner' : s'.owners = [⟨o.thread, stage⟩]) (hreleasing : s'.releasing = s.releasing)
    (hsize : s'.size ≤ s.size) (hrefs : s'.refs = makeRefPair s.ownerCount s'.size)
    (hwork : stage = .pop → s'.pending ≠ []) (hdeleted : s'.deleted = s.deleted)
    (hused : s'.usedAfterDelete = false) (haccounts : Accounts s') : Alive s' := by
  have hcount : s'.ownerCount = s.ownerCount := by
    rw [ownerCount, ownerCount, howner', howner, hreleasing]
    rfl
  refine ⟨haccounts, hdeleted.trans h.not_deleted, hused, ?_, ?_, ?_, ?_, ?_⟩
  · rw [howner']
    exact Nat.le_refl 1
  · rw [hcount, hrefs]
  · rw [hcount]
    exact fits_of_le h.fits (Nat.le_refl _) hsize
  · intro o' ho' hstage
    rw [howner', mem_singleton] at ho'
    rw [ho'] at hstage
    exact hwork hstage
  · intro hnil
    rw [howner'] at hnil
    cases hnil

theorem Alive.moveOwner {used : Bool} (h : Alive s) (howner : s.owners = [o])
    (hs' : s' = { s with refs, owners := s.ownersAt o stage, usedAfterDelete := used })
    (hheld : o.stage.held = stage.held + n) (hrefs : refs = s.refs - makeRefPair 0 n)
    (hused : used = false) (hwork : stage = .pop → s.pending ≠ []) : Alive s' := by
  have howner' : s'.owners = [⟨o.thread, stage⟩] := by rw [hs']; exact ownersAt_eq howner stage
  have hpending : s'.pending = s.pending := by rw [hs']; rfl
  have hsize : s.size = s'.size + n := by
    rw [size_of_owner howner, size_of_owner howner', hpending, hheld, hs']
    exact (Nat.add_assoc _ _ _).symm
  subst hs'
  refine h.toStage howner howner' rfl (by omega) ?_ (hpending ▸ hwork) rfl hused ?_
  · exact hrefs.trans (h.word_sub (Nat.add_zero _).symm hsize)
  · exact h.keep rfl (hpending ▸ .refl _) rfl rfl

theorem Alive.delete (h : Alive s) (howner : s.owners = [o])
    (hs' : s' = { s with
      refs, owners := s.owners.erase o, deleted := s.deleted + 1, usedAfterDelete := s.used })
    (horphaned : s.orphaned = true) (hpending : s.pending = []) : Gone s' := by
  subst hs'
  refine ⟨h.keep rfl (.refl _) rfl rfl, ?_, h.used, horphaned, erase_eq howner, hpending⟩
  exact congrArg (· + 1) h.not_deleted

theorem orphaned_of_size (howner : s.owners = [o]) (hsize : s.size = o.stage.held) :
    s.orphaned = true ∧ s.pending = [] := by
  rw [size_of_owner howner] at hsize
  cases horphaned : s.orphaned with
  | true => exact ⟨rfl, length_eq_zero_iff.1 (by omega)⟩
  | false => simp [horphaned] at hsize

theorem Alive.fetchSub (h : Alive s) (howner : s.owners = [o]) (hstage : o.stage = .fetchSub) :
    Alive (s.fetchSub o) ∨ Gone (s.fetchSub o) := by
  have hsize := size_of_owner howner
  have hheld : o.stage.held = 0 + 1 := by rw [hstage]; rfl
  simp only [WorkSerializer.fetchSub, h.getSize]
  split
  · next hone =>
    obtain ⟨horphaned, hpending⟩ := orphaned_of_size howner (hone.trans hheld.symm)
    exact .inr (h.delete howner rfl horphaned hpending)
  · next hone =>
    split
    · exact .inl (h.moveOwner howner rfl hheld rfl h.used nofun)
    · next htwo =>
      refine .inl (h.moveOwner howner rfl hheld rfl h.used fun _ hnil => ?_)
      rw [hnil, hheld, length_nil] at hsize
      split at hsize <;> omega

theorem Alive.giveUp (h : Alive s) (howner : s.owners = [o])
    (hs' : s' = { s with
      refs := makeRefPair 0 1, owners := s.owners.erase o, usedAfterDelete := s.used })
    (horphaned : s.orphaned = false) (hpending : s.pending = []) : Alive s' := by
  have hnone : s'.owners = [] := by rw [hs']; exact erase_eq howner
  have hpending' : s'.pending = [] := by rw [hs']; exact hpending
  have hreleasing := (pending_eq_nil.1 hpending').1
  have hcount : s'.ownerCount = 0 := by
    rw [ownerCount, hnone, hreleasing]
    rfl
  have hsize : s'.size = 1 := by
    rw [size, hnone, hpending', hs']
    exact congrArg (fun b : Bool => (if b then 0 else 1) + 0 + 0) horphaned
  subst hs'
  refine ⟨h.keep rfl (.refl _) rfl rfl, h.not_deleted, h.used, ?_, ?_, ?_, ?_, ?_⟩
  · rw [hnone]
    exact Nat.zero_le 1
  · rw [hcount, hsize]
  · rw [hcount, hsize]
    exact ⟨by decide, by decide, by decide⟩
  · intro o' ho'
    rw [hnone] at ho'
    cases ho'
  · intro _
    refine ⟨hreleasing, horphaned, fun c hc => ?_⟩
    rw [hpending'] at hc
    cases hc

theorem Alive.refs_eq_iff (h : Alive s) (howner : s.owners = [o])
    (hstage : o.stage = .compareExchange) : s.refs = makeRefPair 1 1 ↔
      s.releasing = [] ∧ s.pending.length = if s.orphaned then 1 else 0 := by
  have hfits : PackedPair.Fits 64 48 1 1 := ⟨by decide, by decide, by decide⟩
  have hcount : s.ownerCount = s.releasing.length + 1 := by
    rw [ownerCount, howner, length_singleton, Nat.add_comm]
  have hsize : s.size = (if s.orphaned then 0 else 1) + s.pending.length := by
    rw [size_of_owner howner, hstage]
    rfl
  rw [h.word, makeRefPair, makeRefPair, pack_inj h.fits hfits, hcount, hsize,
    Nat.add_eq_right, length_eq_zero_iff]
  refine and_congr_right fun _ => ?_
  cases s.orphaned <;> simp

/-- The owner gives up ownership only when there is nothing left to do, unless the serializer was
orphaned with one callback pending. -/
theorem Alive.compareExchange (h : Alive s) (howner : s.owners = [o])
    (hstage : o.stage = .compareExchange)
    (hkeep : ¬ (s.orphaned = true ∧ s.releasing = [] ∧ s.pending.length = 1)) :
    Alive (s.compareExchange o) ∨ Gone (s.compareExchange o) := by
  have hheld : o.stage.held = 0 := by rw [hstage]; rfl
  simp only [WorkSerializer.compareExchange, h.getSize]
  split
  · next hrefs =>
    obtain ⟨hreleasing, hlength⟩ := (h.refs_eq_iff howner hstage).1 hrefs
    have horphaned : s.orphaned = false := by
      refine Bool.eq_false_iff.2 fun horphaned => hkeep ⟨horphaned, hreleasing, ?_⟩
      simpa [horphaned] using hlength
    refine .inl (h.giveUp howner rfl horphaned ?_)
    exact length_eq_zero_iff.1 (by simpa [horphaned] using hlength)
  · next hrefs =>
    split
    · next hzero =>
      obtain ⟨horphaned, hpending⟩ := orphaned_of_size howner (hzero.trans hheld.symm)
      exact .inr (h.delete howner rfl horphaned hpending)
    · next hpos =>
      refine .inl (h.moveOwner howner rfl (n := 0) hheld (BitVec.sub_zero _).symm h.used
        fun _ hnil => ?_)
      -- the queue is not empty: the word would be the expected one or the size 0
      cases horphaned : s.orphaned with
      | true => exact hpos (by rw [size_of_owner howner, hheld, hnil, horphaned]; rfl)
      | false =>
        refine hrefs ((h.refs_eq_iff howner hstage).2 ⟨(pending_eq_nil.1 hnil).1, ?_⟩)
        rw [hnil, horphaned]
        rfl

theorem Alive.pop (h : Alive s) (howner : s.owners = [o]) (hstage : o.stage = .pop) :
    Alive (s.pop o) := by
  have hheld : o.stage.held = 0 := by rw [hstage]; rfl
  have haccounts := h.toAccounts.pop o
  unfold WorkSerializer.pop at haccounts ⊢
  split at haccounts
  · exact ⟨haccounts, h.not_deleted, h.used, h.one, h.word, h.fits, h.work, h.idle⟩
  · next call queue hqueue =>
    set s' : WorkSerializer := { s with
      queue, owners := s.ownersAt o (.running call), executed := s.executed ++ [call],
      usedAfterDelete := s.used } with hs'
    have howner' : s'.owners = [⟨o.thread, .running call⟩] := ownersAt_eq howner _
    have hperm : s.pending.Perm (call :: s'.pending) := by
      rw [pending, hqueue]
      exact perm_middle
    have hsize : s'.size = s.size := by
      rw [size_of_owner howner, size_of_owner howner', hheld, hperm.length_eq, length_cons]
      rfl
    exact h.toStage howner howner' rfl (Nat.le_of_eq hsize)
      (hsize ▸ h.word) nofun rfl h.used haccounts

theorem Alive.advance (h : Alive s) (howner : s.owners = [o])
    (hkeep : ¬ (o.stage = .compareExchange ∧
      s.orphaned = true ∧ s.releasing = [] ∧ s.pending.length = 1)) :
    Alive (s.advance o) ∨ Gone (s.advance o) := by
  unfold WorkSerializer.advance
  split
  · next call hstage =>
    refine .inl (h.moveOwner howner rfl (n := 0) ?_ (BitVec.sub_zero _).symm h.not_used nofun)
    rw [hstage]
    rfl
  · next hstage => exact h.fetchSub howner hstage
  · next hstage => exact h.compareExchange howner hstage fun hk => hkeep ⟨hstage, hk⟩
  · next hstage => exact .inl (h.pop howner hstage)

/-! ## Runs -/

theorem Alive.of_step (h : Alive s) (hfits : s.Fits a) (hkeep : ¬ s.Abandons a)
    (hstep : s.step a = some s') : Alive s' ∨ Gone s' := by
  cases a with
  | run thread =>
    obtain ⟨-, rfl⟩ := ite_some_none_eq_some.1 hstep
    exact .inl (h.run hfits)
  | schedule thread =>
    obtain ⟨-, rfl⟩ := ite_some_none_eq_some.1 hstep
    exact .inl (h.schedule hfits)
  | drainQueue thread =>
    obtain ⟨-, rfl⟩ := ite_some_none_eq_some.1 hstep
    exact .inl (h.drainQueue hfits)
  | orphan thread =>
    obtain ⟨⟨hfree, horphaned⟩, rfl⟩ := ite_some_none_eq_some.1 hstep
    refine h.orphan horphaned fun hnil => ?_
    by_contra hpending
    exact hkeep ⟨hfree, horphaned, hnil, hpending⟩
  | release thread call =>
    obtain ⟨hmem, rfl⟩ := ite_some_none_eq_some.1 hstep
    exact .inl (h.release hmem)
  | push thread call =>
    obtain ⟨hmem, rfl⟩ := ite_some_none_eq_some.1 hstep
    exact .inl (h.push hmem)
  | advance thread =>
    obtain ⟨hbusy, hstep⟩ := ite_none_left_eq_some.1 hstep
    obtain ⟨o, ho, rfl⟩ := map_eq_some_iff.1 hstep
    refine h.advance (h.owners_eq ho) fun ⟨hstage, horphaned, hreleasing, hlength⟩ => ?_
    exact hkeep ⟨hbusy, horphaned, hreleasing, hlength, o, ho, hstage⟩

theorem Gone.step_eq_none (h : Gone s) (a : Action) : s.step a = none := by
  obtain ⟨hreleasing, hpushing, -⟩ := pending_eq_nil.1 h.pending
  cases a with
  | run | schedule | drainQueue | orphan =>
    exact if_neg fun hstep => Bool.false_ne_true (hstep.2.symm.trans h.orphaned)
  | release thread call =>
    refine if_neg ?_
    rw [hreleasing]
    exact not_mem_nil
  | push thread call =>
    refine if_neg ?_
    rw [hpushing]
    exact not_mem_nil
  | advance thread =>
    simp only [step, ownerOf, h.owners, find?_nil, map_none, ite_self]

theorem Gone.not_abandons (h : Gone s) (a : Action) : ¬ s.Abandons a := by
  intro ha
  cases a with
  | orphan thread => exact Bool.false_ne_true (ha.2.1.symm.trans h.orphaned)
  | advance thread =>
    obtain ⟨-, -, -, hlength, -⟩ := ha
    rw [h.pending] at hlength
    cases hlength
  | run | schedule | drainQueue | release | push => exact ha

theorem Accounts.count_executed (h : Accounts s) {c : Nat} {kind : CallKind}
    (hcall : s.calls[c]? = some kind) (hkind : kind ≠ .drainQueue) (hpending : c ∉ s.pending) :
    s.executed.count c = 1 := by
  have hlt : c < s.calls.length := (List.getElem?_eq_some_iff.1 hcall).1
  have hdrains : c ∉ s.drains := fun hc => hkind (some.inj (hcall.symm.trans (h.drains c hc)))
  have hcount := h.perm.count_eq c
  rw [count_append, count_append, count_eq_zero_of_not_mem hpending,
    count_eq_zero_of_not_mem hdrains,
    count_eq_one_of_mem nodup_range (mem_range.2 hlt)] at hcount
  omega

theorem Accounts.count_le (h : Accounts s) (c : Nat) : s.executed.count c ≤ 1 := by
  have hcount := h.perm.count_eq c
  have hrange := nodup_iff_count_le_one.1 (nodup_range (n := s.calls.length)) c
  rw [count_append, count_append] at hcount
  omega

theorem Alive.serializes (h : Alive s) : s.Serializes where
  alone o₁ h₁ o₂ h₂ _ _ := by
    have hone := h.one
    have hpos := length_pos_of_mem h₁
    have hlength : s.owners.length = 1 := by omega
    obtain ⟨o, ho⟩ := length_eq_one_iff.1 hlength
    rw [ho, mem_singleton] at h₁ h₂
    exact ⟨hlength, h₁.trans h₂.symm⟩
  once := h.count_le
  ran hquiet c hcall := by
    refine h.count_executed hcall nofun fun hc => ?_
    have hlt : c < s.calls.length := (List.getElem?_eq_some_iff.1 hcall).1
    have hlate := (h.idle hquiet.1).2.2 c hc c (Nat.le_refl c) hlt
    cases hcall.symm.trans hlate
  scheduled hquiet c c' hcall hlt hdrain := by
    refine h.count_executed hcall nofun fun hc => ?_
    have hlate := (h.idle hquiet.1).2.2 c hc c' (Nat.le_of_lt hlt)
    rcases hdrain with hdrain | hdrain
    · cases hdrain.symm.trans (hlate (List.getElem?_eq_some_iff.1 hdrain).1)
    · cases hdrain.symm.trans (hlate (List.getElem?_eq_some_iff.1 hdrain).1)
  none_left horphaned hnil := by
    rw [(h.idle hnil).2.1] at horphaned
    cases horphaned
  deleted_once := by
    rw [h.not_deleted]
    exact ⟨Nat.zero_le 1, nofun⟩
  deleted_last hquiet horphaned := by
    rw [(h.idle hquiet.1).2.1] at horphaned
    cases horphaned
  not_used := h.not_used

theorem Gone.serializes (h : Gone s) : s.Serializes where
  alone o₁ h₁ := by
    rw [h.owners] at h₁
    cases h₁
  once := h.count_le
  ran _ c hcall := h.count_executed hcall nofun (h.pending ▸ not_mem_nil)
  scheduled _ c c' hcall _ _ := h.count_executed hcall nofun (h.pending ▸ not_mem_nil)
  none_left _ _ := (pending_eq_nil.1 h.pending).2
  deleted_once := ⟨Nat.le_of_eq h.deleted, fun _ => h.orphaned⟩
  deleted_last _ _ := h.deleted
  not_used := h.not_used

/-- Abandoned callbacks are left behind. -/
theorem Alive.not_serializes_of_abandons (h : Alive s) (ha : s.Abandons a) :
    ∃ s', s.step a = some s' ∧ ¬ s'.Serializes := by
  cases a with
  | orphan thread =>
    obtain ⟨hfree, horphaned, hnil, hpending⟩ := ha
    refine ⟨s.orphan, if_pos ⟨hfree, horphaned⟩, fun hs => hpending ?_⟩
    obtain ⟨hpushing, hqueue⟩ := hs.none_left rfl hnil
    exact pending_eq_nil.2 ⟨(h.idle hnil).1, hpushing, hqueue⟩
  | advance thread =>
    obtain ⟨hbusy, horphaned, hreleasing, hlength, o, ho, hstage⟩ := ha
    have howner := h.owners_eq ho
    have hrefs : s.refs = makeRefPair 1 1 := by
      refine (h.refs_eq_iff howner hstage).2 ⟨hreleasing, ?_⟩
      rw [hlength, horphaned]
      rfl
    refine ⟨s.compareExchange o, ?_, fun hs => ?_⟩
    · rw [step, if_neg hbusy, ho, map_some, WorkSerializer.advance, hstage]
    · rw [WorkSerializer.compareExchange, if_pos hrefs] at hs
      obtain ⟨hpushing, hqueue⟩ := hs.none_left horphaned (erase_eq howner)
      have hpending := pending_eq_nil.2 ⟨hreleasing, hpushing, hqueue⟩
      rw [hpending] at hlength
      cases hlength
  | run | schedule | drainQueue | release | push => exact ha.elim

theorem alive_init : Alive {} where
  perm := .refl _
  drains _ hc := absurd hc not_mem_nil
  not_deleted := rfl
  not_used := rfl
  one := Nat.zero_le 1
  word := rfl
  fits := ⟨by decide, by decide, by decide⟩
  work _ ho := absurd ho not_mem_nil
  idle _ := ⟨rfl, rfl, fun _ hc => absurd hc not_mem_nil⟩

/-- The serializer keeps its promises in every state of a run, as long as the counters fit into
the word, exactly when no step abandons pending callbacks. -/
theorem run_serializes_iff (actions : List Action) (hfits : Run.Along step Fits {} actions) :
    (∀ pre s, pre <+: actions → Run.run step {} pre = some s → s.Serializes) ↔
      Run.Along step (fun s a => ¬ s.Abandons a) {} actions := by
  have hstep : ∀ s a s', Alive s ∨ Gone s → s.Fits a → ¬ s.Abandons a → step s a = some s' →
      Alive s' ∨ Gone s' := by
    rintro s a s' (h | h) hfits hkeep hs'
    · exact h.of_step hfits hkeep hs'
    · rw [h.step_eq_none] at hs'
      cases hs'
  constructor
  · intro h
    refine hfits.of_property h hstep ?_ (.inl alive_init)
    rintro s a (hs | hs) - ha
    · exact hs.not_serializes_of_abandons (not_not.1 ha)
    · exact absurd (not_not.1 ha) (hs.not_abandons a)
  · intro h pre s hp hrun
    have hs : Alive s ∨ Gone s := by
      refine Run.run_invariant (I := fun s => Alive s ∨ Gone s) ((hfits.and h).mono hp) hrun ?_
        (.inl alive_init)
      intro s a s' hs ha
      exact hstep s a s' hs ha.1 ha.2
    exact hs.elim Alive.serializes Gone.serializes

/-- Two threads call `Run`, and the second callback calls `Orphan`. -/
def orphanLast : List Action :=
  [.run 0, .run 1, .release 1 1, .push 1 1, .advance 0, .advance 0, .advance 0, .orphan 0,
    .advance 0, .advance 0]

theorem run_serializes_orphanLast :
    (∀ pre s, pre <+: orphanLast → Run.run step {} pre = some s → s.Serializes) ∧
      ∃ s, Run.run step {} orphanLast = some s ∧ s.executed = [0, 1] ∧ s.deleted = 1 :=
  ⟨(run_serializes_iff orphanLast (by decide)).2 (by decide), _, rfl, by decide⟩

/-- A callback gives another callback to `Run` and then orphans the serializer: the owner takes the
size 1 for that of an empty queue. No thread has a step left, the second callback has not been
executed and the object is not deleted. -/
theorem run_abandons_orphanFirst :
    ∃ s, Run.run step {} [.run 0, .run 0, .release 0 1, .push 0 1, .orphan 0, .advance 0,
        .advance 0, .advance 0] = some s ∧
      s.Quiescent ∧ s.orphaned = true ∧ s.queue = [1] ∧ s.executed = [0] ∧ s.deleted = 0 ∧
      ¬ s.Serializes := by
  refine ⟨_, rfl, ⟨rfl, rfl, rfl⟩, rfl, rfl, rfl, rfl, fun h => ?_⟩
  cases (h.none_left rfl rfl).2

end WorkSerializer

end GrpcCore
