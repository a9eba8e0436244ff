import GrpcCore.Lib.Run
import Mathlib.Data.List.Nodup

/-!
# Multi producer single consumer pipe

`mpsc.h`. Senders put items into the queue of the center, which has a limit; the receiver swaps the
whole queue with its own buffer and takes the items from there. A `Send` that finds the queue full
leaves a waker in `send_wakers_`, a `Next` that finds it empty one in `receive_waker_`. The wakers
are taken out under the mutex and fired after it is released: in the model they are in flight, and
each of them is fired by a step of its own.

`ReceiverClosed` does not wake the senders: one that waits then waits forever.
`MpscSystem.mpsc_run_iff_keeps` says that nothing else goes wrong.

A sender holds nothing but a pointer to the center, so that only the promises of `Send` are listed.
-/

namespace GrpcCore

open List Option

variable {α A : Type}

/-! ## Center -/

/-- `mpscpipe_detail::Center`. A waker is the activity that it wakes; `WaitSet` is a set of them. -/
structure MpscCenter (α A : Type) where
  maxQueued : Nat
  queue : List α := []
  receiverClosed : Bool := false
  receiveWaker : Option A := none
  sendWakers : List A := []

namespace MpscCenter

/-- `PollReceiveBatch`: the batch and the wakers to fire, or nothing when the queue is empty. -/
def pollReceiveBatch (c : MpscCenter α A) (current : A) :
    MpscCenter α A × Option (List α × List A) :=
  if c.queue.isEmpty then ({ c with receiveWaker := some current }, none)
  else ({ c with queue := [], sendWakers := [] }, some (c.queue, c.sendWakers))

/-- `PollSend`: the result, which is missing while it is pending, and the wakers to fire. -/
def pollSend [DecidableEq A] (c : MpscCenter α A) (t : α) (current : A) :
    MpscCenter α A × Option Bool × List A :=
  if c.receiverClosed then (c, some false, [])
  else if c.queue.length < c.maxQueued then
    ({ c with queue := c.queue ++ [t], receiveWaker := none }, some true, c.receiveWaker.toList)
  else ({ c with sendWakers := c.sendWakers.insert current }, none, [])

/-- `ReceiverClosed`. -/
def closeReceiver (c : MpscCenter α A) : MpscCenter α A := { c with receiverClosed := true }

end MpscCenter

/-! ## Receiver -/

/-- `MpscReceiver` without its pointer to the center. Items that were moved out stay in the buffer,
before the iterator. -/
structure MpscReceiver (α : Type) where
  buffer : List α := []
  bufferIt : Nat := 0

def MpscReceiver.rest (r : MpscReceiver α) : List α := r.buffer.drop r.bufferIt

/-- A poll of `Next`: the item, which is missing while it is pending, and the wakers to fire. The
first item of a new batch is read without a check: `none` when there is none. -/
def MpscReceiver.next (r : MpscReceiver α) (c : MpscCenter α A) (current : A) :
    Option (MpscReceiver α × MpscCenter α A × Option α × List A) :=
  match r.buffer[r.bufferIt]? with
  | some t => some ({ r with bufferIt := r.bufferIt + 1 }, c, some t, [])
  | none =>
    match c.pollReceiveBatch current with
    | (c', some (batch, wakers)) => batch[0]?.map fun t => (⟨batch, 1⟩, c', some t, wakers)
    | (c', none) => some (r, c', none, [])

/-- The limit that the constructor of `MpscReceiver` gives to the center. -/
def mpscMaxQueued (maxBufferHint : Nat) : Nat := max 1 (maxBufferHint / 2)

/-! ## Runs -/

/-- A promise of `Send`. While it is pending, the activity that polled it last is known, and whether
it has been woken since. -/
inductive SendState (A : Type) where
  | created
  | pending (activity : A) (woken : Bool)
  | resolved (sent : Bool)
  | dropped
  deriving DecidableEq

/-- The promise may be polled or destroyed. -/
def SendState.isLive : SendState A → Bool
  | .created | .pending .. => true
  | .resolved _ | .dropped => false

def SendState.wake [DecidableEq A] (activity : A) : SendState A → SendState A
  | .pending a woken => .pending a (woken || a = activity)
  | s => s

/-- A promise of `Send` with its item. -/
structure SendPromise (α A : Type) where
  item : α
  state : SendState A := .created
  deriving DecidableEq

/-- One pipe with all promises of `Send`, the pending `Next` (its activity, and whether that has
been woken since), the wakers in flight, the sends that resolved to true in their order, and the
items that were received. -/
structure MpscSystem (α A : Type) where
  center : MpscCenter α A
  receiver : Option (MpscReceiver α) := some {}
  sends : List (SendPromise α A) := []
  next : Option (A × Bool) := none
  inFlight : List A := []
  accepted : List (Nat × α) := []
  received : List α := []

/-- Events. `wakeup` fires a waker that is in flight. -/
inductive MpscEvent (α A : Type) where
  | send (t : α)
  | pollSend (i : Nat) (current : A)
  | dropSend (i : Nat)
  | pollNext (current : A)
  | destroyReceiver
  | wakeup (activity : A)

namespace MpscSystem

/-- A pipe for a receiver that was made with this hint. -/
def init (maxBufferHint : Nat) : MpscSystem α A :=
  { center := { maxQueued := mpscMaxQueued maxBufferHint } }

/-- The promise with number `i` gets a new state. -/
def setSend (s : MpscSystem α A) (i : Nat) (p : SendPromise α A) (state : SendState A) :
    MpscSystem α A :=
  { s with sends := s.sends.set i { p with state := state } }

/-- The new state of a promise after a poll with this result. -/
def polled (current : A) : Option Bool → SendState A
  | some sent => .resolved sent
  | none => .pending current false

/-- A poll of the promise `p` with number `i`. -/
def pollSend [DecidableEq A] (s : MpscSystem α A) (i : Nat) (p : SendPromise α A) (current : A) :
    MpscSystem α A :=
  let r := s.center.pollSend p.item current
  { s.setSend i p (polled current r.2.1) with
    center := r.1
    inFlight := s.inFlight ++ r.2.2
    accepted := if r.2.1 = some true then s.accepted ++ [(i, p.item)] else s.accepted }

def pollNext (s : MpscSystem α A) (r : MpscReceiver α) (current : A) : Option (MpscSystem α A) :=
  (r.next s.center current).map fun res =>
    { s with
      receiver := some res.1
      center := res.2.1
      next := if res.2.2.1.isSome then none else some (current, false)
      inFlight := s.inFlight ++ res.2.2.2
      received := s.received ++ res.2.2.1.toList }

def wakeup [DecidableEq A] (s : MpscSystem α A) (activity : A) : MpscSystem α A :=
  { s with
    sends := s.sends.map fun p => { p with state := p.state.wake activity }
    next := s.next.map fun n => (n.1, n.2 || n.1 = activity)
    inFlight := s.inFlight.erase activity }

def live (s : MpscSystem α A) (i : Nat) : Option (SendPromise α A) :=
  s.sends[i]?.filter (·.state.isLive)

def step [DecidableEq A] (s : MpscSystem α A) : MpscEvent α A → Option (MpscSystem α A)
  | .send t => some { s with sends := s.sends ++ [{ item := t }] }
  | .pollSend i current => (s.live i).map fun p => s.pollSend i p current
  | .dropSend i => (s.live i).map fun p => s.setSend i p .dropped
  | .pollNext current => s.receiver.bind fun r => s.pollNext r current
  | .destroyReceiver => s.receiver.map fun _ =>
    { s with receiver := none, next := none, center := s.center.closeReceiver }
  | .wakeup activity => if activity ∈ s.inFlight then some (s.wakeup activity) else none

/-- Promises are not used after they resolved or were destroyed, nor the receiver; only wakers that
are in flight are fired. -/
def Allowed (s : MpscSystem α A) : MpscEvent α A → Prop
  | .send _ => True
  | .pollSend i _ | .dropSend i => (s.live i).isSome
  | .pollNext _ | .destroyReceiver => s.receiver.isSome
  | .wakeup activity => activity ∈ s.inFlight

instance [DecidableEq A] (s : MpscSystem α A) : ∀ e, Decidable (s.Allowed e)
  | .send _ => instDecidableTrue
  | .pollSend i _ | .dropSend i => inferInstanceAs (Decidable ((s.live i).isSome = true))
  | .pollNext _ | .destroyReceiver => inferInstanceAs (Decidable (s.receiver.isSome = true))
  | .wakeup activity => inferInstanceAs (Decidable (activity ∈ s.inFlight))

/-- The promise waits for a waker that is not yet in flight: its activity has not been woken since
its last poll. -/
def Waits (s : MpscSystem α A) (p : SendPromise α A) : Prop :=
  ∃ a, p.state = .pending a false ∧ a ∉ s.inFlight

structure Correct (s : MpscSystem α A) : Prop where
  mem_accepted : ∀ i t, (i, t) ∈ s.accepted ↔ s.sends[i]? = some ⟨t, .resolved true⟩
  accepted_once : (s.accepted.map Prod.fst).Nodup
  received : s.received <+: s.accepted.map Prod.snd
  bounded : s.center.queue.length ≤ s.center.maxQueued
  send_waits : ∀ p ∈ s.sends, s.Waits p →
    s.center.receiverClosed = false ∧ s.center.queue.length = s.center.maxQueued
  next_waits : ∀ a, s.next = some (a, false) → a ∉ s.inFlight → s.center.queue = []

instance [DecidableEq A] (s : MpscSystem α A) (p : SendPromise α A) : Decidable (s.Waits p) :=
  match h : p.state with
  | .pending a false => decidable_of_iff (a ∉ s.inFlight) <| by simp [Waits, h]
  | .pending _ true | .created | .resolved _ | .dropped => isFalse <| by simp [Waits, h]

/-- The receiver is not destroyed while a promise waits. -/
def Keeps (s : MpscSystem α A) : MpscEvent α A → Prop
  | .destroyReceiver => ∀ p ∈ s.sends, ¬ s.Waits p
  | _ => True

instance [DecidableEq A] (s : MpscSystem α A) : ∀ e, Decidable (s.Keeps e)
  | .destroyReceiver => inferInstanceAs (Decidable (∀ p ∈ s.sends, ¬ s.Waits p))
  | .send _ | .pollSend .. | .dropSend _ | .pollNext _ | .wakeup _ => instDecidableTrue

/-! ## Accepted sends -/

/-- The accepted sends are the promises that resolved to true, each once. -/
structure Accepts (sends : List (SendPromise α A)) (accepted : List (Nat × α)) : Prop where
  mem_iff : ∀ i t, (i, t) ∈ accepted ↔ sends[i]? = some ⟨t, .resolved true⟩
  nodup : (accepted.map Prod.fst).Nodup

variable {sends : List (SendPromise α A)} {accepted : List (Nat × α)} {i : Nat}
  {p : SendPromise α A}

theorem Accepts.append (h : Accepts sends accepted) (t : α) :
    Accepts (sends ++ [{ item := t }]) accepted := by
  refine ⟨fun j u => (h.mem_iff j u).trans ?_, h.nodup⟩
  rw [getElem?_append]
  split
  · exact Iff.rfl
  · next hj =>
    have hnone : sends[j]? = none := List.getElem?_eq_none (Nat.le_of_not_lt hj)
    cases hd : j - sends.length <;> simp [hnone]

theorem Accepts.not_mem (h : Accepts sends accepted) (hp : sends[i]? = some p)
    (hlive : p.state.isLive = true) (t : α) : (i, t) ∉ accepted := by
  intro hmem
  obtain rfl := some.inj (hp.symm.trans ((h.mem_iff i t).1 hmem))
  cases hlive

variable {state : SendState A} {t : α}

theorem Accepts.set (h : Accepts sends accepted) (hp : sends[i]? = some p)
    (hlive : p.state.isLive = true) (hstate : state ≠ .resolved true) :
    Accepts (sends.set i { p with state := state }) accepted := by
  refine ⟨fun j u => ?_, h.nodup⟩
  by_cases hij : i = j
  · subst hij
    rw [getElem?_set_self (List.getElem?_eq_some_iff.1 hp).1]
    refine iff_of_false (h.not_mem hp hlive u) fun heq => hstate ?_
    exact congrArg SendPromise.state (some.inj heq)
  · rw [getElem?_set_ne hij]
    exact h.mem_iff j u

theorem Accepts.accept (h : Accepts sends accepted) (hp : sends[i]? = some p)
    (hlive : p.state.isLive = true) :
    Accepts (sends.set i { p with state := .resolved true }) (accepted ++ [(i, p.item)]) := by
  constructor
  · intro j u
    rw [mem_append, mem_singleton, Prod.mk.injEq]
    by_cases hij : i = j
    · subst hij
      rw [getElem?_set_self (List.getElem?_eq_some_iff.1 hp).1]
      simp [h.not_mem hp hlive u, eq_comm]
    · rw [getElem?_set_ne hij, ← h.mem_iff j u]
      exact or_iff_left fun heq => hij heq.1.symm
  · rw [map_append, nodup_append]
    refine ⟨h.nodup, nodup_singleton _, fun j hj k hk hjk => ?_⟩
    obtain ⟨⟨j', t⟩, hmem, rfl⟩ := mem_map.1 hj
    obtain rfl := mem_singleton.1 hk
    subst hjk
    exact h.not_mem hp hlive t hmem

theorem Accepts.wake [DecidableEq A] (h : Accepts sends accepted) (activity : A) :
    Accepts (sends.map fun p => { p with state := p.state.wake activity }) accepted := by
  refine ⟨fun j u => (h.mem_iff j u).trans ?_, h.nodup⟩
  rw [getElem?_map]
  cases sends[j]? with
  | none => simp
  | some q =>
    obtain ⟨item, state⟩ := q
    cases state <;> simp [SendState.wake]

/-! ## Steps -/

variable {s s' : MpscSystem α A} {e : MpscEvent α A} {r : MpscReceiver α}

/-- While nobody destroys the receiver too early: every accepted item is received, in the buffer or
in the queue, in this order; and who waits has left a waker. -/
structure Inv (s : MpscSystem α A) : Prop where
  accepts : Accepts s.sends s.accepted
  conserved : ∀ r, s.receiver = some r →
    s.accepted.map Prod.snd = s.received ++ r.rest ++ s.center.queue
  received : s.received <+: s.accepted.map Prod.snd
  bounded : s.center.queue.length ≤ s.center.maxQueued
  isOpen : s.center.receiverClosed = s.receiver.isNone
  send_waits : ∀ p ∈ s.sends, ∀ a, p.state = .pending a false → a ∉ s.inFlight →
    a ∈ s.center.sendWakers ∧ s.center.receiverClosed = false ∧
      s.center.queue.length = s.center.maxQueued
  next_waits : ∀ a, s.next = some (a, false) → a ∉ s.inFlight →
    s.center.receiveWaker = some a ∧ s.center.queue = []

theorem Inv.init (maxBufferHint : Nat) : Inv (MpscSystem.init maxBufferHint : MpscSystem α A) where
  accepts := ⟨fun _ _ => by simp [MpscSystem.init], nodup_nil⟩
  conserved := by
    rintro r ⟨⟩
    rfl
  received := prefix_refl _
  bounded := Nat.zero_le _
  isOpen := rfl
  send_waits := fun _ hp => (nomatch hp)
  next_waits := fun _ h => (nomatch h)

theorem Inv.correct (h : Inv s) : Correct s where
  mem_accepted := h.accepts.mem_iff
  accepted_once := h.accepts.nodup
  received := h.received
  bounded := h.bounded
  send_waits := by
    rintro p hp ⟨a, hstate, hflight⟩
    exact (h.send_waits p hp a hstate hflight).2
  next_waits := fun a hnext hflight => (h.next_waits a hnext hflight).2

theorem live_eq_some_iff : s.live i = some p ↔ s.sends[i]? = some p ∧ p.state.isLive = true := by
  rw [live, filter_eq_some_iff]

theorem Inv.send (h : Inv s) (t : α) : Inv { s with sends := s.sends ++ [{ item := t }] } := by
  refine { h with accepts := h.accepts.append t, send_waits := fun p hp a hstate hflight => ?_ }
  rcases mem_append.1 hp with hp | hp
  · exact h.send_waits p hp a hstate hflight
  · rw [mem_singleton.1 hp] at hstate
    cases hstate

theorem Inv.setSend (h : Inv s) (hp : s.sends[i]? = some p) (hlive : p.state.isLive = true)
    (hsent : state ≠ .resolved true) (hover : state.isLive = false) :
    Inv (s.setSend i p state) := by
  refine { h with
    accepts := h.accepts.set hp hlive hsent
    send_waits := fun q hq a hstate hflight => ?_ }
  rcases mem_or_eq_of_mem_set hq with hq | rfl
  · exact h.send_waits q hq a hstate hflight
  · rw [show state = .pending a false from hstate] at hover
    cases hover

theorem Inv.destroyReceiver (h : Inv s) (hk : s.Keeps .destroyReceiver) :
    Inv { s with receiver := none, next := none, center := s.center.closeReceiver } where
  accepts := h.accepts
  conserved := fun _ hr => (nomatch hr)
  received := h.received
  bounded := h.bounded
  isOpen := rfl
  send_waits := fun p hp a hstate hflight => (hk p hp ⟨a, hstate, hflight⟩).elim
  next_waits := fun _ hnext => (nomatch hnext)

/-! The three cases of a poll of `Next`. -/

theorem pollNext_buffered (hit : r.buffer[r.bufferIt]? = some t) (current : A) :
    s.pollNext r current =
      some { s with
        receiver := some { r with bufferIt := r.bufferIt + 1 }
        next := none
        received := s.received ++ [t] } := by
  simp [MpscSystem.pollNext, MpscReceiver.next, hit]

theorem pollNext_batch {ts : List α} (hit : r.buffer[r.bufferIt]? = none)
    (hqueue : s.center.queue = t :: ts) (current : A) :
    s.pollNext r current =
      some { s with
        receiver := some ⟨t :: ts, 1⟩
        center := { s.center with queue := [], sendWakers := [] }
        next := none
        inFlight := s.inFlight ++ s.center.sendWakers
        received := s.received ++ [t] } := by
  simp [MpscSystem.pollNext, MpscReceiver.next, MpscCenter.pollReceiveBatch, hit, hqueue]

theorem pollNext_empty (hit : r.buffer[r.bufferIt]? = none) (hqueue : s.center.queue = [])
    (current : A) :
    s.pollNext r current =
      some { s with
        receiver := some r
        center := { s.center with receiveWaker := some current }
        next := some (current, false) } := by
  simp [MpscSystem.pollNext, MpscReceiver.next, MpscCenter.pollReceiveBatch, hit, hqueue]

theorem rest_eq_cons (hit : r.buffer[r.bufferIt]? = some t) :
    r.rest = t :: r.buffer.drop (r.bufferIt + 1) := by
  obtain ⟨hlt, rfl⟩ := List.getElem?_eq_some_iff.1 hit
  exact drop_eq_getElem_cons hlt

theorem rest_eq_nil (hit : r.buffer[r.bufferIt]? = none) : r.rest = [] :=
  drop_eq_nil_of_le (List.getElem?_eq_none_iff.1 hit)

theorem Inv.pollNext (h : Inv s) (hr : s.receiver = some r) (current : A) :
    ∃ s', s.pollNext r current = some s' ∧ Inv s' := by
  have hopen : s.center.receiverClosed = false := by rw [h.isOpen, hr]; rfl
  have hconserved := h.conserved r hr
  cases hit : r.buffer[r.bufferIt]? with
  | some t =>
    have hall : s.accepted.map Prod.snd =
        (s.received ++ [t]) ++ r.buffer.drop (r.bufferIt + 1) ++ s.center.queue := by
      rw [hconserved, rest_eq_cons hit]
      simp
    refine ⟨_, pollNext_buffered hit current, { h with
      conserved := ?_
      received := ⟨_, (hall.trans (append_assoc _ _ _)).symm⟩
      isOpen := hopen
      next_waits := fun _ hnext => (nomatch hnext) }⟩
    rintro r' ⟨⟩
    exact hall
  | none =>
    rw [rest_eq_nil hit, append_nil] at hconserved
    cases hqueue : s.center.queue with
    | cons t ts =>
      have hall : s.accepted.map Prod.snd = (s.received ++ [t]) ++ ts := by
        rw [hconserved, hqueue]
        simp
      refine ⟨_, pollNext_batch hit hqueue current, h.accepts, ?_, ⟨_, hall.symm⟩,
        Nat.zero_le _, hopen, fun p hp a hstate ha => ?_, fun _ hnext => (nomatch hnext)⟩
      · rintro r' ⟨⟩
        rw [hall]
        exact (append_nil _).symm
      · -- who waited has its waker in flight now
        rw [mem_append, not_or] at ha
        exact (ha.2 (h.send_waits p hp a hstate ha.1).1).elim
    | nil =>
      refine ⟨_, pollNext_empty hit hqueue current, { h with
        conserved := ?_
        isOpen := hopen
        next_waits := ?_ }⟩
      · rintro r' ⟨⟩
        exact h.conserved r hr
      · rintro a ⟨⟩ -
        exact ⟨rfl, hqueue⟩

section
variable [DecidableEq A]

theorem SendState.eq_pending_of_wake {state : SendState A} {a activity : A}
    (h : state.wake activity = .pending a false) : state = .pending a false ∧ a ≠ activity := by
  cases state with
  | pending b woken =>
    obtain ⟨rfl, hwoken⟩ := SendState.pending.inj h
    rw [Bool.or_eq_false_iff, decide_eq_false_iff_not] at hwoken
    exact ⟨by rw [hwoken.1], hwoken.2⟩
  | created | resolved | dropped => cases h

theorem Inv.wakeup (h : Inv s) (activity : A) : Inv (s.wakeup activity) := by
  -- who is still not woken has another activity, whose wakers stay in flight
  have hflight {a : A} (hne : a ≠ activity) (ha : a ∉ s.inFlight.erase activity) : a ∉ s.inFlight :=
    fun hmem => ha ((mem_erase_of_ne hne).2 hmem)
  refine { h with
    accepts := h.accepts.wake activity
    send_waits := fun p hp a hstate ha => ?_
    next_waits := fun a hnext ha => ?_ }
  · obtain ⟨q, hq, rfl⟩ := mem_map.1 hp
    obtain ⟨hstate, hne⟩ := SendState.eq_pending_of_wake hstate
    exact h.send_waits q hq a hstate (hflight hne ha)
  · obtain ⟨⟨b, woken⟩, hb, heq⟩ := map_eq_some_iff.1 hnext
    obtain ⟨rfl, hwoken⟩ := Prod.mk.inj heq
    rw [Bool.or_eq_false_iff, decide_eq_false_iff_not] at hwoken
    obtain ⟨rfl, hne⟩ := hwoken
    exact h.next_waits b hb (hflight hne ha)

/-! The three cases of `PollSend`. -/

theorem pollSend_closed (hclosed : s.center.receiverClosed = true) (current : A) :
    s.pollSend i p current = s.setSend i p (.resolved false) := by
  simp [MpscSystem.pollSend, MpscCenter.pollSend, hclosed, polled, MpscSystem.setSend]

theorem pollSend_room (hclosed : s.center.receiverClosed = false)
    (hroom : s.center.queue.length < s.center.maxQueued) (current : A) :
    s.pollSend i p current =
      { s.setSend i p (.resolved true) with
        center := { s.center with queue := s.center.queue ++ [p.item], receiveWaker := none }
        inFlight := s.inFlight ++ s.center.receiveWaker.toList
        accepted := s.accepted ++ [(i, p.item)] } := by
  simp [MpscSystem.pollSend, MpscCenter.pollSend, hclosed, hroom, polled]

theorem pollSend_full (hclosed : s.center.receiverClosed = false)
    (hfull : ¬ s.center.queue.length < s.center.maxQueued) (current : A) :
    s.pollSend i p current =
      { s.setSend i p (.pending current false) with
        center := { s.center with sendWakers := s.center.sendWakers.insert current } } := by
  simp [MpscSystem.pollSend, MpscCenter.pollSend, hclosed, hfull, polled, MpscSystem.setSend]

theorem Inv.pollSend_room (h : Inv s) (hp : s.sends[i]? = some p) (hlive : p.state.isLive = true)
    (hclosed : s.center.receiverClosed = false)
    (hroom : s.center.queue.length < s.center.maxQueued) (current : A) :
    Inv (s.pollSend i p current) := by
  rw [MpscSystem.pollSend_room hclosed hroom]
  refine ⟨h.accepts.accept hp hlive, fun r hr => ?_, ?_, ?_, h.isOpen, fun q hq a hstate ha => ?_,
    fun a hnext ha => ?_⟩
  · rw [map_append, h.conserved r hr, append_assoc]
    rfl
  · rw [map_append]
    exact h.received.trans (prefix_append _ _)
  · rw [length_append]
    exact hroom
  · -- nobody waits while there is room
    rw [mem_append, not_or] at ha
    rcases mem_or_eq_of_mem_set hq with hq | rfl
    · have hfull := (h.send_waits q hq a hstate ha.1).2.2
      omega
    · cases hstate
  · -- the waker of the receiver is now in flight
    rw [mem_append, not_or] at ha
    rw [(h.next_waits a hnext ha.1).1] at ha
    exact (ha.2 (mem_singleton_self a)).elim

theorem Inv.pollSend_full (h : Inv s) (hp : s.sends[i]? = some p) (hlive : p.state.isLive = true)
    (hclosed : s.center.receiverClosed = false)
    (hfull : ¬ s.center.queue.length < s.center.maxQueued) (current : A) :
    Inv (s.pollSend i p current) := by
  rw [MpscSystem.pollSend_full hclosed hfull]
  refine { h with
    accepts := h.accepts.set hp hlive (by simp)
    send_waits := fun q hq a hstate ha => ?_ }
  rcases mem_or_eq_of_mem_set hq with hq | rfl
  · obtain ⟨hmem, hrest⟩ := h.send_waits q hq a hstate ha
    exact ⟨mem_insert_of_mem hmem, hrest⟩
  · obtain ⟨rfl, -⟩ := SendState.pending.inj hstate
    exact ⟨mem_insert_self, hclosed, Nat.le_antisymm h.bounded (Nat.le_of_not_lt hfull)⟩

theorem Inv.pollSend (h : Inv s) (hp : s.sends[i]? = some p) (hlive : p.state.isLive = true)
    (current : A) : Inv (s.pollSend i p current) := by
  cases hclosed : s.center.receiverClosed with
  | true =>
    rw [pollSend_closed hclosed]
    exact h.setSend hp hlive (by simp) rfl
  | false =>
    by_cases hroom : s.center.queue.length < s.center.maxQueued
    · exact h.pollSend_room hp hlive hclosed hroom current
    · exact h.pollSend_full hp hlive hclosed hroom current

/-- Every event goes through, and keeps the invariant unless it destroys the receiver while a
promise waits. -/
theorem Inv.exists_step (h : Inv s) (ha : s.Allowed e) :
    ∃ s', s.step e = some s' ∧ (s.Keeps e → Inv s') := by
  cases e with
  | send t => exact ⟨_, rfl, fun _ => h.send t⟩
  | pollSend i current =>
    obtain ⟨p, hp⟩ := isSome_iff_exists.1 ha
    obtain ⟨hget, hlive⟩ := live_eq_some_iff.1 hp
    exact ⟨_, by rw [step, hp]; rfl, fun _ => h.pollSend hget hlive current⟩
  | dropSend i =>
    obtain ⟨p, hp⟩ := isSome_iff_exists.1 ha
    obtain ⟨hget, hlive⟩ := live_eq_some_iff.1 hp
    exact ⟨_, by rw [step, hp]; rfl, fun _ => h.setSend hget hlive (by simp) rfl⟩
  | pollNext current =>
    obtain ⟨r, hr⟩ := isSome_iff_exists.1 ha
    obtain ⟨s', hs', hinv⟩ := h.pollNext hr current
    exact ⟨s', by rw [step, hr, bind_some, hs'], fun _ => hinv⟩
  | destroyReceiver =>
    obtain ⟨r, hr⟩ := isSome_iff_exists.1 ha
    exact ⟨_, by rw [step, hr]; rfl, h.destroyReceiver⟩
  | wakeup activity => exact ⟨_, if_pos ha, fun _ => h.wakeup activity⟩

theorem Inv.step (h : Inv s) (ha : s.Allowed e) (hk : s.Keeps e) (hs : s.step e = some s') :
    Inv s' := by
  obtain ⟨s₁, h₁, hinv⟩ := h.exists_step ha
  obtain rfl := some.inj (h₁.symm.trans hs)
  exact hinv hk

theorem not_correct_of_not_keeps (ha : s.Allowed e) (hk : ¬ s.Keeps e) :
    ∃ s', s.step e = some s' ∧ ¬ Correct s' := by
  cases e with
  | destroyReceiver =>
    obtain ⟨r, hr⟩ := isSome_iff_exists.1 ha
    refine ⟨_, by rw [MpscSystem.step, hr]; rfl, fun hc => hk fun p hp hwaits => ?_⟩
    exact Bool.noConfusion (hc.send_waits p hp hwaits).1
  | send | pollSend | dropSend | pollNext | wakeup => exact (hk trivial).elim

/-- In a run every event goes through and the pipe is correct in every state, exactly when the
receiver is never destroyed while a promise of `Send` waits. -/
theorem mpsc_run_iff_keeps (maxBufferHint : Nat) (events : List (MpscEvent α A))
    (h : Run.Along MpscSystem.step Allowed (MpscSystem.init maxBufferHint) events) :
    ((∃ s, Run.run MpscSystem.step (MpscSystem.init maxBufferHint) events = some s) ∧
      ∀ pre s, pre <+: events → Run.run MpscSystem.step
        (MpscSystem.init maxBufferHint) pre = some s →
        Correct s) ↔
    Run.Along MpscSystem.step Keeps (MpscSystem.init maxBufferHint) events := by
  constructor
  · rintro ⟨-, hcorrect⟩
    exact h.of_property hcorrect (fun s e s' hs ha hk => hs.step ha hk)
      (fun s e _ ha hk => not_correct_of_not_keeps ha hk) (Inv.init maxBufferHint)
  · intro hk
    have hboth := h.and hk
    obtain ⟨s, hrun, -⟩ := hboth.exists_run (fun s e hs hG =>
      (hs.exists_step hG.1).imp fun _ h => ⟨h.1, h.2 hG.2⟩) (Inv.init maxBufferHint)
    refine ⟨⟨s, hrun⟩, fun pre s' hpre hrun' => ?_⟩
    exact (Run.run_invariant (hboth.mono hpre) hrun' (fun s e s' hs hG => hs.step hG.1 hG.2)
      (Inv.init maxBufferHint)).correct

/-- A sender waits for the receiver, which reads both items and is destroyed. -/
theorem mpsc_run_iff_keeps_two_sends : ∃ s : MpscSystem Nat Nat,
    Run.run MpscSystem.step (MpscSystem.init 1)
      [.send 10, .send 20, .pollSend 0 7, .pollSend 1 7, .pollNext 8, .wakeup 7, .pollNext 8,
        .pollSend 1 7, .wakeup 8, .pollNext 8, .destroyReceiver] = some s :=
  ((mpsc_run_iff_keeps 1 _ (by decide)).2 (by decide)).1

/-- The second sender waits when the receiver is destroyed. -/
theorem destroyReceiver_loses_wakeup :
    Run.Along MpscSystem.step Allowed (MpscSystem.init 1 : MpscSystem Nat Nat)
      [.send 10, .send 20, .pollSend 0 7, .pollSend 1 7, .destroyReceiver] ∧
    ∃ s : MpscSystem Nat Nat,
      Run.run MpscSystem.step (MpscSystem.init 1)
        [.send 10, .send 20, .pollSend 0 7, .pollSend 1 7, .destroyReceiver] = some s ∧
      s.sends[1]? = some ⟨20, .pending 7 false⟩ ∧ s.inFlight = [] ∧ s.center.receiverClosed = true ∧
      ¬ Correct s := by
  refine ⟨by decide, _, rfl, rfl, rfl, rfl, fun h => ?_⟩
  have hwaits := h.send_waits ⟨20, .pending 7 false⟩ (by decide) ⟨7, rfl, by decide⟩
  exact Bool.noConfusion hwaits.1

end

end MpscSystem

end GrpcCore
