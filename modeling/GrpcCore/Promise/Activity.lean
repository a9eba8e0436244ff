import Mathlib.Algebra.Group.Nat.Defs
import GrpcCore.Lib.Run

/-!
# PromiseActivity

A `PromiseActivity` (`activity.h`) polls one promise under a mutex until it completes or the owner
orphans the activity, and then calls `on_done`. It is kept alive by a reference count: the owner, an
owning waker, a scheduled wakeup and a thread that runs one hold a reference each.

The model lists who holds a reference and where each of them is (`Holder`). Its steps are the atomic
operations of the threads. The section under the mutex is cut at the polls of the promise; what the
promise does in its poll or in its destructor (wakeups, `ForceImmediateRepoll`, `Orphan`) is a step
as well.

`refs_` has 32 bits. `PromiseActivity.run_sound` says that the protocol is followed in every run
with less than `2 ^ 32` references at a time, and `PromiseActivity.run_unsound` what happens
otherwise. Wakers that do not own a reference (`MakeNonOwningWaker`) are left out.
-/

namespace GrpcCore

open List Option Run

inductive ActionDuringRun where
  | none
  | wakeup
  | cancel
  deriving DecidableEq

/-- The value of the enumerator. -/
def ActionDuringRun.rank : ActionDuringRun → Nat
  | .none => 0
  | .wakeup => 1
  | .cancel => 2

def ActionDuringRun.max (a b : ActionDuringRun) : ActionDuringRun :=
  if a.rank < b.rank then b else a

@[grind =] theorem ActionDuringRun.max_cancel (a : ActionDuringRun) : a.max .cancel = .cancel := by
  cases a <;> rfl

@[grind =] theorem ActionDuringRun.max_wakeup (a : ActionDuringRun) :
    a.max .wakeup = if a = .cancel then .cancel else .wakeup := by
  cases a <;> rfl

/-- The methods that take the mutex: the constructor, `Step` and `Cancel`. -/
inductive Method where
  | start
  | step
  | cancel
  deriving DecidableEq

/-- Who holds a reference, and what it is about to do: the owner and a waker wait for their next
call; `scheduling` is a thread in `Wakeup` that has set `wakeup_scheduled_`, `scheduled` the closure
of `RunScheduledWakeup`, `stepping` a thread in `Step` and `cancelling` one in `Cancel` before they
take the mutex; with the mutex a thread polls or destroys the promise; without it, it calls
`on_done` or drops its reference. -/
inductive Holder where
  | owner
  | waker
  | scheduling (thread : Nat)
  | scheduled
  | stepping (thread : Nat)
  | cancelling (thread : Nat)
  | polling (thread : Nat) (method : Method)
  | destroying (thread : Nat) (method : Method)
  | callingDone (thread : Nat) (method : Method)
  | releasing (thread : Nat)
  deriving DecidableEq

/-- The thread that is going to call `on_done`. -/
def Holder.finisher : Holder → Option Nat
  | .destroying thread _ | .callingDone thread _ => some thread
  | _ => none

/-- What the method does after the section under the mutex and `on_done`: the constructor returns
the activity to its owner, the others drop their reference. -/
def Method.after : Method → Nat → Holder
  | .start, _ => .owner
  | .step, thread | .cancel, thread => .releasing thread

/-- How many holders there are of each kind. A holder is an owner until the activity is orphaned,
and that of the constructor is going to be one. -/
@[ext]
structure Tally where
  owners : Nat := 0
  scheduled : Nat := 0
  stepping : Nat := 0
  cancelling : Nat := 0
  polling : Nat := 0
  destroying : Nat := 0
  calling : Nat := 0

namespace Tally

instance : Add Tally where
  add t u :=
    { owners := t.owners + u.owners
      scheduled := t.scheduled + u.scheduled
      stepping := t.stepping + u.stepping
      cancelling := t.cancelling + u.cancelling
      polling := t.polling + u.polling
      destroying := t.destroying + u.destroying
      calling := t.calling + u.calling }

variable (t u : Tally)

@[grind =] theorem owners_add : (t + u).owners = t.owners + u.owners := rfl

@[grind =] theorem scheduled_add : (t + u).scheduled = t.scheduled + u.scheduled := rfl

@[grind =] theorem stepping_add : (t + u).stepping = t.stepping + u.stepping := rfl

@[grind =] theorem cancelling_add : (t + u).cancelling = t.cancelling + u.cancelling := rfl

@[grind =] theorem polling_add : (t + u).polling = t.polling + u.polling := rfl

@[grind =] theorem destroying_add : (t + u).destroying = t.destroying + u.destroying := rfl

@[grind =] theorem calling_add : (t + u).calling = t.calling + u.calling := rfl

@[grind]
def current (t : Tally) : Nat := t.polling + t.destroying

end Tally

/-- The holder of the constructor is going to be the owner. -/
@[grind]
def Method.owners : Method → Nat
  | .start => 1
  | .step | .cancel => 0

@[grind]
def Holder.tally : Holder → Tally
  | .owner => { owners := 1 }
  | .waker | .releasing _ => {}
  | .scheduling _ | .scheduled => { scheduled := 1 }
  | .stepping _ => { stepping := 1 }
  | .cancelling _ => { cancelling := 1 }
  | .polling _ method => { polling := 1, owners := method.owners }
  | .destroying _ method => { destroying := 1, owners := method.owners }
  | .callingDone _ method => { calling := 1, owners := method.owners }

@[grind =] theorem Method.tally_after (method : Method) (thread : Nat) :
    (method.after thread).tally = { owners := method.owners } := by
  cases method <;> rfl

def tallyOf : List Holder → Tally
  | [] => {}
  | h :: hs => tallyOf hs + h.tally

variable {l : List Holder}

theorem tallyOf_perm {l' : List Holder} (h : l.Perm l') : tallyOf l = tallyOf l' := by
  induction h with
  | nil => rfl
  | cons h _ ih => rw [tallyOf, tallyOf, ih]
  | swap h h' l =>
    rw [tallyOf, tallyOf, tallyOf, tallyOf]
    ext <;> grind
  | trans _ _ ih ih' => exact ih.trans ih'

theorem tallyOf_eq_erase {h : Holder} (hmem : h ∈ l) :
    tallyOf l = tallyOf (l.erase h) + h.tally :=
  tallyOf_perm (perm_cons_erase hmem)

theorem tallyOf_eq_zero (f : Tally → Nat) (hzero : f {} = 0) (hadd : ∀ t u, f (t + u) = f t + f u)
    (h : ∀ h ∈ l, f h.tally = 0) : f (tallyOf l) = 0 := by
  induction l with
  | nil => exact hzero
  | cons g l ih =>
    rw [tallyOf, hadd, ih fun h' hmem => h h' (mem_cons_of_mem g hmem), h g mem_cons_self]

theorem finisher_eq_none (htally : (tallyOf l).destroying = 0 ∧ (tallyOf l).calling = 0) :
    ∀ h ∈ l, h.finisher = none := by
  induction l with
  | nil => exact fun h hmem => absurd hmem not_mem_nil
  | cons h l ih =>
    rw [tallyOf, Tally.destroying_add, Tally.calling_add, Nat.add_eq_zero_iff,
      Nat.add_eq_zero_iff] at htally
    intro h' hmem
    rcases mem_cons.1 hmem with rfl | hmem
    · cases h' <;> simp_all [Holder.tally, Holder.finisher]
    · exact ih ⟨htally.1.1, htally.2.1⟩ h' hmem

/-- The activity and those who hold a reference. The last seven fields record what happened:
`Orphan`, a wakeup after the latest poll started, a poll when `done_` was set, the thread that set
`done_`, the threads that called `on_done`, how often the object was deleted, and a failed
assertion. It starts in the first poll of the constructor. -/
structure PromiseActivity where
  refs : UInt32 := 1
  actionDuringRun : ActionDuringRun := .none
  done : Bool := false
  wakeupScheduled : Bool := false
  holders : List Holder := [.polling 0 .start]
  orphaned : Bool := false
  woken : Bool := false
  polledAfterDone : Bool := false
  doneBy : Option Nat := none
  calledBy : List Nat := []
  deleted : Nat := 0
  failed : Bool := false

namespace PromiseActivity

def tally (s : PromiseActivity) : Tally := tallyOf s.holders

def pass (s : PromiseActivity) (h h' : Holder) : PromiseActivity :=
  { s with holders := h' :: s.holders.erase h }

/-- `Unref`, with the assertion of the destructor. -/
def unref (s : PromiseActivity) (h : Holder) : PromiseActivity :=
  { s with
    refs := s.refs - 1
    holders := s.holders.erase h
    deleted := if s.refs = 1 then s.deleted + 1 else s.deleted
    failed := s.failed || (s.refs = 1 && !s.done) }

def setActionDuringRun (s : PromiseActivity) (action : ActionDuringRun) : PromiseActivity :=
  { s with actionDuringRun := s.actionDuringRun.max action }

/-- `MarkDone`, up to the destructor of the promise. -/
def markDone (s : PromiseActivity) (thread : Nat) (method : Method) (h : Holder) :
    PromiseActivity :=
  { s with
    done := true
    holders := .destroying thread method :: s.holders.erase h
    doneBy := some thread
    failed := s.failed || s.done }

/-- The start of a poll in `StepLoop`. -/
def startPoll (s : PromiseActivity) : PromiseActivity :=
  { s with
    woken := false
    polledAfterDone := s.polledAfterDone || s.done
    failed := s.failed || s.done }

/-- `Wakeup` from a thread on which the activity is not the current one. -/
def wakeup (s : PromiseActivity) (thread : Nat) : PromiseActivity :=
  if s.wakeupScheduled then { s.pass .waker (.releasing thread) with woken := true }
  else { s.pass .waker (.scheduling thread) with wakeupScheduled := true, woken := true }

/-- `Wakeup` from the promise. -/
def wakeupCurrent (s : PromiseActivity) : PromiseActivity :=
  { (s.setActionDuringRun .wakeup).unref .waker with woken := true }

def forceImmediateRepoll (s : PromiseActivity) : PromiseActivity :=
  { s.setActionDuringRun .wakeup with woken := true }

/-- `Orphan` from the promise. -/
def orphanCurrent (s : PromiseActivity) : PromiseActivity :=
  { (s.setActionDuringRun .cancel).unref .owner with orphaned := true }

/-- The section of `Cancel` under the mutex. -/
def cancel (s : PromiseActivity) (thread : Nat) : PromiseActivity :=
  if s.done then s.pass (.cancelling thread) (.releasing thread)
  else s.markDone thread .cancel (.cancelling thread)

/-- The beginning of `RunScheduledWakeup`. -/
def runScheduledWakeup (s : PromiseActivity) (thread : Nat) : PromiseActivity :=
  { s.pass .scheduled (.stepping thread) with
    wakeupScheduled := false
    failed := s.failed || !s.wakeupScheduled }

/-- `Step` takes the mutex, and returns when the activity is done. -/
def lock (s : PromiseActivity) (thread : Nat) : PromiseActivity :=
  if s.done then s.pass (.stepping thread) (.releasing thread)
  else (s.pass (.stepping thread) (.polling thread .step)).startPoll

/-- The promise is pending: `StepLoop` looks at the action that occurred during the poll. -/
def pollPending (s : PromiseActivity) (thread : Nat) (method : Method) : PromiseActivity :=
  match s.actionDuringRun with
  | .none => s.pass (.polling thread method) (method.after thread)
  | .wakeup => { s.startPoll with actionDuringRun := .none }
  | .cancel =>
    { s.markDone thread method (.polling thread method) with actionDuringRun := .none }

inductive Action where
  | makeOwningWaker
  | wakeup (thread : Nat)
  | wakeupCurrent
  | drop
  | forceImmediateRepoll
  | orphan (thread : Nat)
  | orphanCurrent
  | cancel (thread : Nat)
  | scheduleWakeup (thread : Nat)
  | runScheduledWakeup (thread : Nat)
  | lock (thread : Nat)
  | pollReady (thread : Nat) (method : Method)
  | pollPending (thread : Nat) (method : Method)
  | unlock (thread : Nat) (method : Method)
  | onDone (thread : Nat) (method : Method)
  | unref (thread : Nat)

/-- The operation is the next one of a thread, not a call that someone may choose to make. -/
def Action.Pending : Action → Prop
  | .makeOwningWaker | .wakeup _ | .wakeupCurrent | .drop | .forceImmediateRepoll | .orphan _
  | .orphanCurrent => False
  | _ => True

/-- A step of the holder `h`, which may have to wait. -/
def perform (s : PromiseActivity) (h : Holder) (ready : Bool) (s' : PromiseActivity) :
    Option PromiseActivity :=
  if h ∈ s.holders ∧ ready then some s' else none

def current (s : PromiseActivity) : Bool := 0 < s.tally.current

/-- One step; `none` when nobody is at this operation or the mutex is not free. -/
def step (s : PromiseActivity) : Action → Option PromiseActivity
  | .makeOwningWaker =>
    if .owner ∈ s.holders ∨ s.current then
      some { s with refs := s.refs + 1, holders := .waker :: s.holders }
    else none
  | .wakeup thread => s.perform .waker true (s.wakeup thread)
  | .wakeupCurrent => s.perform .waker s.current s.wakeupCurrent
  | .drop => s.perform .waker true (s.unref .waker)
  | .forceImmediateRepoll => if s.current then some s.forceImmediateRepoll else none
  | .orphan thread =>
    s.perform .owner true { s.pass .owner (.cancelling thread) with orphaned := true }
  | .orphanCurrent => s.perform .owner s.current s.orphanCurrent
  | .cancel thread => s.perform (.cancelling thread) (!s.current) (s.cancel thread)
  | .scheduleWakeup thread =>
    s.perform (.scheduling thread) true (s.pass (.scheduling thread) .scheduled)
  | .runScheduledWakeup thread => s.perform .scheduled true (s.runScheduledWakeup thread)
  | .lock thread => s.perform (.stepping thread) (!s.current) (s.lock thread)
  | .pollReady thread method =>
    s.perform (.polling thread method) true (s.markDone thread method (.polling thread method))
  | .pollPending thread method =>
    s.perform (.polling thread method) true (s.pollPending thread method)
  | .unlock thread method =>
    s.perform (.destroying thread method) true
      (s.pass (.destroying thread method) (.callingDone thread method))
  | .onDone thread method =>
    s.perform (.callingDone thread method) true
      { s.pass (.callingDone thread method) (method.after thread) with
        calledBy := s.calledBy ++ [thread] }
  | .unref thread => s.perform (.releasing thread) true (s.unref (.releasing thread))

variable {s s' : PromiseActivity} {h h' : Holder} {thread : Nat} {method : Method}

/-! ## What is promised -/

def Quiescent (s : PromiseActivity) : Prop := ∀ a, a.Pending → s.step a = none

structure Sound (s : PromiseActivity) : Prop where
  /-- `on_done` is called at most once, by the thread that set `done_`. -/
  once : s.calledBy.length ≤ 1
  by_finisher : ∀ thread ∈ s.calledBy, s.doneBy = some thread
  /-- When every thread is through, it has been called for an activity that is orphaned or
  done. -/
  called : s.Quiescent → s.orphaned = true ∨ s.done = true → s.calledBy.length = 1
  /-- The promise is not polled after `done_` is set. -/
  not_polled : s.polledAfterDone = false
  not_polling : s.done = true → s.tally.polling = 0
  /-- The assertions hold. -/
  asserted : s.failed = false
  /-- After a wakeup since the latest poll started, an action is recorded, a wakeup is scheduled, or
  a thread is about to poll. -/
  not_lost : s.woken = true → s.done = false → s.actionDuringRun ≠ .none ∨
    0 < s.tally.scheduled ∨ 0 < s.tally.stepping
  /-- The object is deleted when the last reference is dropped. -/
  deleted : s.deleted = if s.holders = [] then 1 else 0

/-! ## The invariant -/

/-- The part of the invariant that is about the references. -/
structure Refs (s : PromiseActivity) : Prop where
  word : s.refs = UInt32.ofNat s.holders.length
  fits : s.holders.length < 2 ^ 32
  deleted : s.deleted = if s.holders = [] then 1 else 0

/-- The flags, and the threads that called `on_done`. -/
structure Flags where
  action : ActionDuringRun
  done : Bool
  wakeupScheduled : Bool
  orphaned : Bool
  woken : Bool
  calledBy : List Nat

def flags (s : PromiseActivity) : Flags :=
  ⟨s.actionDuringRun, s.done, s.wakeupScheduled, s.orphaned, s.woken, s.calledBy⟩

/-- The part of the invariant that is about the flags. -/
structure Protocol (t : Tally) (f : Flags) : Prop where
  owner : t.owners = (!f.orphaned).toNat
  scheduled : t.scheduled = f.wakeupScheduled.toNat
  current : t.current ≤ 1
  polling : f.done = true → t.polling = 0
  finishing : t.destroying + t.calling + f.calledBy.length = f.done.toNat
  cancelled : f.orphaned = true → f.done = false →
    0 < t.cancelling ∨ 0 < t.polling ∧ f.action = .cancel
  acting : f.action ≠ .none → f.done = true ∨ 0 < t.polling
  waking : f.woken = true → f.done = false →
    f.action ≠ .none ∨ 0 < t.scheduled ∨ 0 < t.stepping

structure Inv (s : PromiseActivity) : Prop extends Refs s where
  protocol : Protocol s.tally s.flags
  finisher : ∀ h ∈ s.holders, ∀ thread ∈ h.finisher, s.doneBy = some thread
  calledBy : ∀ thread ∈ s.calledBy, s.doneBy = some thread
  not_polled : s.polledAfterDone = false
  asserted : s.failed = false

/-! ## The flags -/

section

attribute [grind cases] Protocol

variable {t : Tally} {f : Flags}

theorem Protocol.wakeScheduled (hp : Protocol t f) (hscheduled : f.wakeupScheduled = true) :
    Protocol t { f with woken := true } := by
  constructor <;> grind

theorem Protocol.wake (hp : Protocol t f) (thread : Nat) (hscheduled : f.wakeupScheduled = false) :
    Protocol (t + (Holder.scheduling thread).tally)
      { f with wakeupScheduled := true, woken := true } := by
  constructor <;> grind

theorem Protocol.wakeCurrent (hp : Protocol t f) (hcurrent : 0 < t.current) :
    Protocol t { f with action := f.action.max .wakeup, woken := true } := by
  constructor <;> grind

theorem Protocol.orphan (hp : Protocol (t + Holder.owner.tally) f) :
    Protocol (t + (Holder.cancelling thread).tally) { f with orphaned := true } := by
  cases ho : f.orphaned <;> constructor <;> grind

theorem Protocol.orphanCurrent (hp : Protocol (t + Holder.owner.tally) f)
    (hcurrent : 0 < t.current) :
    Protocol t { f with action := f.action.max .cancel, orphaned := true } := by
  cases ho : f.orphaned <;> constructor <;> grind

theorem Protocol.leave (hp : Protocol (t + h.tally) f) (hdone : f.done = true)
    (hh : h = .cancelling thread ∨ h = .stepping thread) : Protocol t f := by
  constructor <;> grind

theorem Protocol.markDone (hp : Protocol (t + h.tally) f) (hdone : f.done = false)
    (hh : h = .polling thread method ∨ h = .cancelling thread ∧ t.current = 0 ∧ method = .cancel)
    (action : ActionDuringRun) :
    Protocol (t + (Holder.destroying thread method).tally) { f with action, done := true } := by
  constructor <;> grind

theorem Protocol.runScheduledWakeup (hp : Protocol (t + Holder.scheduled.tally) f) (thread : Nat) :
    f.wakeupScheduled = true ∧
      Protocol (t + (Holder.stepping thread).tally) { f with wakeupScheduled := false } := by
  cases hw : f.wakeupScheduled with
  | false => grind
  | true =>
    refine ⟨rfl, ?_⟩
    constructor <;> grind

theorem Protocol.lock (hp : Protocol (t + (Holder.stepping thread).tally) f)
    (hdone : f.done = false)
    (hfree : t.current = 0) :
    Protocol (t + (Holder.polling thread .step).tally) { f with woken := false } := by
  constructor <;> grind

theorem Protocol.pollAgain (hp : Protocol (t + (Holder.polling thread method).tally) f)
    (haction : f.action = .wakeup) (hdone : f.done = false) :
    Protocol (t + (Holder.polling thread method).tally)
      { f with action := .none, woken := false } := by
  constructor <;> grind

theorem Protocol.stopPolling (hp : Protocol (t + (Holder.polling thread method).tally) f)
    (haction : f.action = .none) (hdone : f.done = false) :
    Protocol (t + (method.after thread).tally) f := by
  constructor <;> grind

theorem Protocol.unlock (hp : Protocol (t + (Holder.destroying thread method).tally) f) :
    Protocol (t + (Holder.callingDone thread method).tally) f := by
  constructor <;> grind

theorem Protocol.onDone (hp : Protocol (t + (Holder.callingDone thread method).tally) f) :
    Protocol (t + (method.after thread).tally) { f with calledBy := f.calledBy ++ [thread] } := by
  constructor <;> grind

/-- As long as the activity is not done, someone is left to see to that. -/
theorem Protocol.ne_empty (hp : Protocol t f) (hdone : f.done = false) : t ≠ {} := by
  rintro rfl
  cases ho : f.orphaned <;> grind

end

/-! ## The references -/

theorem length_erase_add_one (hmem : h ∈ s.holders) :
    (s.holders.erase h).length + 1 = s.holders.length := by
  have hpos := length_pos_of_mem hmem
  rw [length_erase_of_mem hmem]
  omega

theorem Refs.pass (hs : Refs s) (hmem : h ∈ s.holders) (hrefs : s'.refs = s.refs)
    (hholders : s'.holders = h' :: s.holders.erase h) (hdeleted : s'.deleted = s.deleted) :
    Refs s' := by
  have hlength : s'.holders.length = s.holders.length := by
    rw [hholders, length_cons, length_erase_add_one hmem]
  refine ⟨?_, hlength ▸ hs.fits, ?_⟩
  · rw [hrefs, hs.word, hlength]
  · rw [hdeleted, hs.deleted, hholders, if_neg (ne_nil_of_mem hmem), if_neg (cons_ne_nil _ _)]

theorem Refs.refs_eq_one (hs : Refs s) (hmem : h ∈ s.holders) :
    s.refs = 1 ↔ s.holders.erase h = [] := by
  have hlength := length_erase_add_one hmem
  have hfits := hs.fits
  rw [hs.word, ← length_eq_zero_iff, ← UInt32.toNat_inj, UInt32.toNat_ofNat_of_lt' hfits]
  show s.holders.length = 1 ↔ _
  omega

theorem Refs.unref (hs : Refs s) (hmem : h ∈ s.holders) (hrefs : s'.refs = s.refs - 1)
    (hholders : s'.holders = s.holders.erase h)
    (hdeleted : s'.deleted = if s.refs = 1 then s.deleted + 1 else s.deleted) : Refs s' := by
  have hlength := length_erase_add_one hmem
  have hfits := hs.fits
  refine ⟨?_, ?_, ?_⟩
  · rw [hrefs, hs.word, hholders, ← hlength, UInt32.ofNat_add]
    exact UInt32.add_sub_cancel _ _
  · rw [hholders]
    omega
  · rw [hdeleted, hs.deleted, if_neg (ne_nil_of_mem hmem), hholders]
    simp only [hs.refs_eq_one hmem]

/-! ## Steps -/

theorem Inv.protocol_erase (hs : Inv s) (hmem : h ∈ s.holders) :
    Protocol (tallyOf (s.holders.erase h) + h.tally) s.flags :=
  tallyOf_eq_erase hmem ▸ hs.protocol

theorem Inv.finishing (hs : Inv s) :
    s.tally.destroying + s.tally.calling + s.calledBy.length = s.done.toNat :=
  hs.protocol.finishing

theorem Inv.pass (hs : Inv s) (hmem : h ∈ s.holders) (hrefs : s'.refs = s.refs)
    (hholders : s'.holders = h' :: s.holders.erase h) (hdeleted : s'.deleted = s.deleted)
    (hprotocol : Protocol (tallyOf (s.holders.erase h) + h'.tally) s'.flags)
    (hdoneBy : s'.doneBy = s.doneBy) (hfinisher : ∀ thread ∈ h'.finisher, thread ∈ h.finisher)
    (hcalledBy : ∀ thread ∈ s'.calledBy, thread ∈ s.calledBy ∨ thread ∈ h.finisher)
    (hpolled : s'.polledAfterDone = false) (hasserted : s'.failed = false) : Inv s' := by
  refine ⟨hs.toRefs.pass hmem hrefs hholders hdeleted, ?_, ?_, ?_, hpolled, hasserted⟩
  · rw [tally, hholders]
    exact hprotocol
  · intro g hg thread hthread
    rw [hdoneBy]
    rw [hholders] at hg
    rcases mem_cons.1 hg with rfl | hg
    · exact hs.finisher h hmem thread (hfinisher thread hthread)
    · exact hs.finisher g (mem_of_mem_erase hg) thread hthread
  · intro thread hthread
    rw [hdoneBy]
    rcases hcalledBy thread hthread with hthread | hthread
    · exact hs.calledBy thread hthread
    · exact hs.finisher h hmem thread hthread

theorem Inv.unref (hs : Inv s) (hmem : h ∈ s.holders) (hrefs : s'.refs = s.refs - 1)
    (hholders : s'.holders = s.holders.erase h)
    (hdeleted : s'.deleted = if s.refs = 1 then s.deleted + 1 else s.deleted)
    (hprotocol : Protocol (tallyOf (s.holders.erase h)) s'.flags) (hdone : s'.done = s.done)
    (hdoneBy : s'.doneBy = s.doneBy) (hcalledBy : s'.calledBy = s.calledBy)
    (hpolled : s'.polledAfterDone = s.polledAfterDone)
    (hfailed : s'.failed = (s.failed || (s.refs = 1 && !s.done))) : Inv s' := by
  refine ⟨hs.toRefs.unref hmem hrefs hholders hdeleted, ?_, ?_, ?_, hpolled.trans hs.not_polled, ?_⟩
  · rw [tally, hholders]
    exact hprotocol
  · intro g hg
    rw [hdoneBy]
    rw [hholders] at hg
    exact hs.finisher g (mem_of_mem_erase hg)
  · rw [hdoneBy, hcalledBy]
    exact hs.calledBy
  · -- the destructor finds the activity done
    rw [hfailed, hs.asserted, Bool.false_or, Bool.and_eq_false_imp]
    intro hone
    have hempty := (hs.toRefs.refs_eq_one hmem).1 (of_decide_eq_true hone)
    rw [hempty] at hprotocol
    cases hd : s.done with
    | true => rfl
    | false => exact absurd rfl (hprotocol.ne_empty (hdone.trans hd))

theorem Inv.act (hs : Inv s) (action : ActionDuringRun) (woken : Bool)
    (hprotocol : Protocol s.tally { s.flags with action, woken }) :
    Inv { s with actionDuringRun := action, woken } :=
  ⟨⟨hs.word, hs.fits, hs.deleted⟩, hprotocol, hs.finisher, hs.calledBy, hs.not_polled, hs.asserted⟩

theorem Inv.makeOwningWaker (hs : Inv s) (hfits : s.holders.length + 1 < 2 ^ 32)
    (hne : s.holders ≠ []) :
    Inv { s with refs := s.refs + 1, holders := .waker :: s.holders } := by
  refine ⟨⟨?_, hfits, ?_⟩, hs.protocol, ?_, hs.calledBy, hs.not_polled, hs.asserted⟩
  · rw [hs.word, length_cons, UInt32.ofNat_add]
    rfl
  · rw [if_neg (cons_ne_nil _ _), hs.deleted, if_neg hne]
  · intro h hh
    rcases mem_cons.1 hh with rfl | hh
    · exact fun _ hthread => nomatch hthread
    · exact hs.finisher h hh

theorem Inv.wakeup (hs : Inv s) (hmem : .waker ∈ s.holders) : Inv (s.wakeup thread) := by
  have hp := hs.protocol_erase hmem
  unfold PromiseActivity.wakeup
  split
  · next hscheduled =>
    exact hs.pass hmem rfl rfl rfl (hp.wakeScheduled hscheduled) rfl nofun (fun _ => .inl)
      hs.not_polled hs.asserted
  · next hscheduled =>
    have hp := hp.wake thread (Bool.eq_false_iff.2 hscheduled)
    exact hs.pass hmem rfl rfl rfl hp rfl nofun (fun _ => .inl) hs.not_polled hs.asserted

theorem Inv.markDone (hs : Inv s) (hmem : h ∈ s.holders) (hdone : s.done = false)
    (hh : h = .polling thread method ∨
      h = .cancelling thread ∧ (tallyOf (s.holders.erase h)).current = 0 ∧ method = .cancel)
    (action : ActionDuringRun) :
    Inv { s.markDone thread method h with actionDuringRun := action } := by
  have hp := hs.protocol_erase hmem
  have hfinishing := hs.finishing
  rw [hdone, Bool.toNat_false] at hfinishing
  have hnone : ∀ g ∈ s.holders, g.finisher = none :=
    finisher_eq_none ⟨by rw [tally] at hfinishing; omega, by rw [tally] at hfinishing; omega⟩
  have hcalled : s.calledBy = [] := length_eq_zero_iff.1 (by omega)
  refine ⟨hs.toRefs.pass hmem rfl rfl rfl, hp.markDone hdone hh action, ?_, ?_, hs.not_polled, ?_⟩
  · intro g hg t ht
    rcases mem_cons.1 hg with rfl | hg
    · exact ht
    · rw [hnone g (mem_of_mem_erase hg)] at ht
      cases ht
  · intro t ht
    simp only [PromiseActivity.markDone, hcalled] at ht
    cases ht
  · simp only [PromiseActivity.markDone, hdone, hs.asserted, Bool.or_false]

theorem current_erase (hmem : h ∈ s.holders) (hfree : s.current = false) :
    (tallyOf (s.holders.erase h)).current = 0 := by
  have hzero : ¬ 0 < s.tally.current := of_decide_eq_false hfree
  rw [tally, tallyOf_eq_erase hmem] at hzero
  grind

theorem Inv.cancel (hs : Inv s) (hmem : .cancelling thread ∈ s.holders)
    (hfree : s.current = false) :
    Inv (s.cancel thread) := by
  have hp := hs.protocol_erase hmem
  unfold PromiseActivity.cancel
  split
  · next hdone =>
    have hp := hp.leave hdone (.inl rfl)
    exact hs.pass hmem rfl rfl rfl hp rfl nofun (fun _ => .inl) hs.not_polled hs.asserted
  · next hdone =>
    rw [Bool.not_eq_true] at hdone
    exact hs.markDone hmem hdone (.inr ⟨rfl, current_erase hmem hfree, rfl⟩) s.actionDuringRun

theorem Inv.runScheduledWakeup (hs : Inv s) (hmem : .scheduled ∈ s.holders) :
    Inv (s.runScheduledWakeup thread) := by
  obtain ⟨hscheduled, hp⟩ : s.wakeupScheduled = true ∧ _ :=
    (hs.protocol_erase hmem).runScheduledWakeup thread
  refine hs.pass hmem rfl rfl rfl hp rfl nofun (fun _ => .inl) hs.not_polled ?_
  simp only [PromiseActivity.runScheduledWakeup, hscheduled, hs.asserted,
    Bool.not_true, Bool.or_false]

theorem Inv.lock (hs : Inv s) (hmem : .stepping thread ∈ s.holders) (hfree : s.current = false) :
    Inv (s.lock thread) := by
  have hp := hs.protocol_erase hmem
  unfold PromiseActivity.lock
  split
  · next hdone =>
    have hp := hp.leave hdone (.inr rfl)
    exact hs.pass hmem rfl rfl rfl hp rfl nofun (fun _ => .inl) hs.not_polled hs.asserted
  · next hdone =>
    rw [Bool.not_eq_true] at hdone
    have hp := hp.lock hdone (current_erase hmem hfree)
    refine hs.pass hmem rfl rfl rfl hp rfl nofun (fun _ => .inl) ?_ ?_
    · simp only [startPoll, PromiseActivity.pass, hdone, hs.not_polled, Bool.or_false]
    · simp only [startPoll, PromiseActivity.pass, hdone, hs.asserted, Bool.or_false]

theorem Inv.done_of_polling (hs : Inv s) (hmem : .polling thread method ∈ s.holders) :
    s.done = false := by
  have hp := (hs.protocol_erase hmem).polling
  rw [Tally.polling_add] at hp
  exact Bool.eq_false_iff.2 fun hdone => Nat.succ_ne_zero _ (hp hdone)

theorem Inv.pollPending (hs : Inv s) (hmem : .polling thread method ∈ s.holders) :
    Inv (s.pollPending thread method) := by
  have hdone := hs.done_of_polling hmem
  have hp := hs.protocol_erase hmem
  unfold PromiseActivity.pollPending
  split
  · next haction =>
    refine hs.pass hmem rfl rfl rfl (hp.stopPolling haction hdone) rfl ?_
      (fun _ => .inl) hs.not_polled
      hs.asserted
    cases method <;> exact nofun
  · next haction =>
    have hpoll := hp.pollAgain haction hdone
    rw [← tallyOf_eq_erase hmem] at hpoll
    refine ⟨⟨hs.word, hs.fits, hs.deleted⟩, hpoll, hs.finisher, hs.calledBy, ?_, ?_⟩
    · simp only [startPoll, hdone, hs.not_polled, Bool.or_false]
    · simp only [startPoll, hdone, hs.asserted, Bool.or_false]
  · exact hs.markDone hmem hdone (.inl rfl) .none

variable {ready : Bool} {a : Action}

theorem perform_eq_some {s'' : PromiseActivity} :
    s.perform h ready s' = some s'' ↔ (h ∈ s.holders ∧ ready = true) ∧ s' = s'' :=
  ite_some_none_eq_some

/-- An owning waker is made while the count has room for it. -/
def Fits (s : PromiseActivity) : Action → Prop
  | .makeOwningWaker => s.holders.length + 1 < 2 ^ 32
  | _ => True

instance (s : PromiseActivity) (a : Action) : Decidable (s.Fits a) := by
  unfold Fits
  split <;> infer_instance

theorem ne_nil_of_current (h : s.current = true) : s.holders ≠ [] := by
  intro hnil
  have hpos : 0 < s.tally.current := of_decide_eq_true h
  rw [tally, hnil] at hpos
  exact Nat.lt_irrefl 0 hpos

theorem Inv.of_step (hs : Inv s) (hfits : s.Fits a) (hstep : s.step a = some s') :
    Inv s' := by
  cases a with
  | makeOwningWaker =>
    obtain ⟨hreach, rfl⟩ := ite_some_none_eq_some.1 hstep
    exact hs.makeOwningWaker hfits (hreach.elim ne_nil_of_mem ne_nil_of_current)
  | wakeup thread =>
    obtain ⟨⟨hmem, -⟩, rfl⟩ := perform_eq_some.1 hstep
    exact hs.wakeup hmem
  | wakeupCurrent =>
    obtain ⟨⟨hmem, hcurrent⟩, rfl⟩ := perform_eq_some.1 hstep
    have hp := hs.protocol.wakeCurrent (of_decide_eq_true hcurrent)
    rw [tally, tallyOf_eq_erase hmem] at hp
    exact hs.unref hmem rfl rfl rfl hp rfl rfl rfl rfl rfl
  | drop =>
    obtain ⟨⟨hmem, -⟩, rfl⟩ := perform_eq_some.1 hstep
    exact hs.unref hmem rfl rfl rfl (hs.protocol_erase hmem) rfl rfl rfl rfl rfl
  | forceImmediateRepoll =>
    obtain ⟨hcurrent, rfl⟩ := ite_some_none_eq_some.1 hstep
    exact hs.act _ _ (hs.protocol.wakeCurrent (of_decide_eq_true hcurrent))
  | orphan thread =>
    obtain ⟨⟨hmem, -⟩, rfl⟩ := perform_eq_some.1 hstep
    exact hs.pass hmem rfl rfl rfl (hs.protocol_erase hmem).orphan rfl nofun (fun _ => .inl)
      hs.not_polled hs.asserted
  | orphanCurrent =>
    obtain ⟨⟨hmem, hcurrent⟩, rfl⟩ := perform_eq_some.1 hstep
    have hpos : 0 < s.tally.current := of_decide_eq_true hcurrent
    rw [tally, tallyOf_eq_erase hmem] at hpos
    have hp := (hs.protocol_erase hmem).orphanCurrent hpos
    exact hs.unref hmem rfl rfl rfl hp rfl rfl rfl rfl rfl
  | cancel thread =>
    obtain ⟨⟨hmem, hfree⟩, rfl⟩ := perform_eq_some.1 hstep
    exact hs.cancel hmem (by simpa using hfree)
  | scheduleWakeup thread =>
    obtain ⟨⟨hmem, -⟩, rfl⟩ := perform_eq_some.1 hstep
    have hp := hs.protocol_erase hmem
    exact hs.pass hmem rfl rfl rfl hp rfl nofun (fun _ => .inl) hs.not_polled hs.asserted
  | runScheduledWakeup thread =>
    obtain ⟨⟨hmem, -⟩, rfl⟩ := perform_eq_some.1 hstep
    exact hs.runScheduledWakeup hmem
  | lock thread =>
    obtain ⟨⟨hmem, hfree⟩, rfl⟩ := perform_eq_some.1 hstep
    exact hs.lock hmem (by simpa using hfree)
  | pollReady thread method =>
    obtain ⟨⟨hmem, -⟩, rfl⟩ := perform_eq_some.1 hstep
    exact hs.markDone hmem (hs.done_of_polling hmem) (.inl rfl) s.actionDuringRun
  | pollPending thread method =>
    obtain ⟨⟨hmem, -⟩, rfl⟩ := perform_eq_some.1 hstep
    exact hs.pollPending hmem
  | unlock thread method =>
    obtain ⟨⟨hmem, -⟩, rfl⟩ := perform_eq_some.1 hstep
    have hp := (hs.protocol_erase hmem).unlock
    exact hs.pass hmem rfl rfl rfl hp rfl (fun _ ht => ht) (fun _ => .inl) hs.not_polled hs.asserted
  | onDone thread method =>
    obtain ⟨⟨hmem, -⟩, rfl⟩ := perform_eq_some.1 hstep
    have hp := (hs.protocol_erase hmem).onDone
    refine hs.pass hmem rfl rfl rfl hp rfl ?_ ?_ hs.not_polled hs.asserted
    · cases method <;> exact nofun
    · intro t ht
      refine (mem_append.1 ht).imp_right fun hlast => ?_
      rw [mem_singleton.1 hlast]
      rfl
  | unref thread =>
    obtain ⟨⟨hmem, -⟩, rfl⟩ := perform_eq_some.1 hstep
    exact hs.unref hmem rfl rfl rfl (hs.protocol_erase hmem) rfl rfl rfl rfl rfl

/-! ## Runs -/

theorem Quiescent.not_mem (hq : Quiescent s) (ha : a.Pending)
    (hstep : s.step a = s.perform h ready s') (hready : ready = true) : h ∉ s.holders := by
  intro hmem
  have hnone := hq a ha
  rw [hstep, perform, if_pos ⟨hmem, hready⟩] at hnone
  cases hnone

/-- In a quiescent state nobody is in the middle of a section or about to call `on_done`, and the
mutex is free for those who wait for it. -/
theorem Quiescent.tally (hq : Quiescent s) :
    s.tally.polling = 0 ∧ s.tally.destroying = 0 ∧ s.tally.calling = 0 ∧
      s.tally.cancelling = 0 := by
  have hidle : ∀ h ∈ s.holders,
      h.tally.polling = 0 ∧ h.tally.destroying = 0 ∧ h.tally.calling = 0 := by
    intro h hmem
    cases h with
    | polling thread method =>
      exact absurd hmem (hq.not_mem (a := .pollReady thread method) trivial rfl rfl)
    | destroying thread method =>
      exact absurd hmem (hq.not_mem (a := .unlock thread method) trivial rfl rfl)
    | callingDone thread method =>
      exact absurd hmem (hq.not_mem (a := .onDone thread method) trivial rfl rfl)
    | _ => exact ⟨rfl, rfl, rfl⟩
  have hpolling : s.tally.polling = 0 :=
    tallyOf_eq_zero Tally.polling rfl Tally.polling_add fun h hmem => (hidle h hmem).1
  have hdestroying : s.tally.destroying = 0 :=
    tallyOf_eq_zero Tally.destroying rfl Tally.destroying_add fun h hmem => (hidle h hmem).2.1
  have hcalling : s.tally.calling = 0 :=
    tallyOf_eq_zero Tally.calling rfl Tally.calling_add fun h hmem => (hidle h hmem).2.2
  have hfree : s.current = false := by
    rw [current, Tally.current, hpolling, hdestroying]
    rfl
  refine ⟨hpolling, hdestroying, hcalling, ?_⟩
  refine tallyOf_eq_zero Tally.cancelling rfl Tally.cancelling_add fun h hmem => ?_
  cases h with
  | cancelling thread =>
    exact absurd hmem (hq.not_mem (a := .cancel thread) trivial rfl (by rw [hfree]; rfl))
  | _ => rfl

theorem Inv.sound (hs : Inv s) : Sound s where
  once := by
    have hfinishing := hs.finishing
    have hdone := s.done.toNat_le
    omega
  by_finisher := hs.calledBy
  called hq hend := by
    obtain ⟨hpolling, hdestroying, hcalling, hcancelling⟩ := hq.tally
    have hdone : s.done = true := by
      by_contra hdone
      rw [Bool.not_eq_true] at hdone
      have horphaned : s.orphaned = true := hend.resolve_right
        (by rw [hdone]; exact Bool.false_ne_true)
      have hcancelled := hs.protocol.cancelled horphaned hdone
      omega
    have hfinishing := hs.finishing
    rw [hdestroying, hcalling, hdone, Bool.toNat_true] at hfinishing
    omega
  not_polled := hs.not_polled
  not_polling := hs.protocol.polling
  asserted := hs.asserted
  not_lost := hs.protocol.waking
  deleted := hs.deleted

theorem inv_init : Inv {} where
  word := rfl
  fits := by decide
  deleted := rfl
  protocol := ⟨rfl, rfl, Nat.le_refl 1, nofun, rfl, nofun, nofun, nofun⟩
  finisher h hmem := by
    rw [mem_singleton.1 hmem]
    exact nofun
  calledBy := nofun
  not_polled := rfl
  asserted := rfl

/-- The activity keeps its promises in every state of a run in which there are always less than
`2 ^ 32` references. -/
theorem run_sound (actions : List Action) (hfits : Run.Along step Fits {} actions)
    (hrun : run step {} actions = some s) : s.Sound :=
  (run_invariant hfits hrun (fun _ _ _ hs hfits hstep => hs.of_step hfits hstep) inv_init).sound

/-- Three wakers are made. The first one leads to a second poll. In it the others wake the activity
up from other threads; the promise forces another poll, completes, and calls `Orphan` in its
destructor. -/
def orphanInDestructor : List Action :=
  [.makeOwningWaker, .makeOwningWaker, .pollPending 0 .start, .makeOwningWaker, .wakeup 1,
    .scheduleWakeup 1, .runScheduledWakeup 2, .lock 2, .wakeup 3, .forceImmediateRepoll,
    .pollPending 2 .step, .wakeup 1, .pollReady 2 .step, .orphanCurrent, .unlock 2 .step,
    .onDone 2 .step, .unref 2, .unref 1, .scheduleWakeup 3, .runScheduledWakeup 1,
      .lock 1, .unref 1]

theorem run_sound_orphanInDestructor :
    ∃ s, run step {} orphanInDestructor = some s ∧ s.Sound ∧ s.calledBy = [2] ∧ s.deleted = 1 :=
  ⟨_, rfl, run_sound orphanInDestructor (by decide) rfl, by decide, by decide⟩

theorem run_makeOwningWaker (n : Nat) (howner : .owner ∈ s.holders) :
    run step s (List.replicate n .makeOwningWaker) =
      some { s with
        refs := s.refs + UInt32.ofNat n
        holders := List.replicate n .waker ++ s.holders } := by
  induction n generalizing s with
  | zero =>
    have hzero : s.refs + UInt32.ofNat 0 = s.refs := UInt32.add_zero s.refs
    rw [replicate_zero, run_nil, hzero]
    rfl
  | succ n ih =>
    rw [replicate_succ, run_cons, step, if_pos (.inl howner), bind_some,
      ih (mem_cons_of_mem _ howner), UInt32.ofNat_add, replicate_succ', append_assoc,
      UInt32.add_assoc, UInt32.add_comm 1]
    rfl

/-- The count wraps around to 1 when a multiple of `2 ^ 32` wakers have been made. -/
theorem run_drop_of_ofNat {n : Nat} (hn : UInt32.ofNat (n + 1) = 0) :
    ∃ s, run step {} (.pollPending 0 .start ::
      (List.replicate (n + 1) .makeOwningWaker ++ [.drop])) =
        some s ∧
      .owner ∈ s.holders ∧ s.done = false ∧ s.deleted = 1 ∧ s.failed = true := by
  have hstart : step {} (.pollPending 0 .start) = some { holders := [.owner] } := rfl
  rw [run_cons, hstart, bind_some, run_append,
    run_makeOwningWaker _ (mem_singleton.2 rfl), bind_some, hn]
  have hmem : Holder.waker ∈ List.replicate (n + 1) Holder.waker ++ [.owner] :=
    mem_append_left _ mem_cons_self
  rw [run_cons, step, perform, if_pos ⟨hmem, rfl⟩, bind_some, run_nil]
  refine ⟨_, rfl, ?_, rfl, rfl, rfl⟩
  have hne : Holder.owner ≠ .waker := nofun
  exact (mem_erase_of_ne hne).2 (mem_append_right _ (mem_singleton.2 rfl))

/-- After `2 ^ 32` wakers have been made, the first one that is dropped deletes the activity, which
is not done, and the assertion of the destructor fails. -/
theorem run_unsound :
    ∃ s, run step {}
        (.pollPending 0 .start :: (List.replicate (2 ^ 32) .makeOwningWaker ++ [.drop])) = some s ∧
      .owner ∈ s.holders ∧ s.done = false ∧ s.deleted = 1 ∧ s.failed = true ∧ ¬ s.Sound := by
  obtain ⟨s, hrun, howner, hdone, hdeleted, hfailed⟩ := run_drop_of_ofNat (n := 2 ^ 32 - 1) rfl
  refine ⟨s, hrun, howner, hdone, hdeleted, hfailed, fun hs => ?_⟩
  rw [hs.asserted] at hfailed
  cases hfailed

end PromiseActivity

end GrpcCore
