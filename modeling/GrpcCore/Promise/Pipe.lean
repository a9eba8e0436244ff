import GrpcCore.Lib.Run

/-!
# Promise pipe

`pipe.h`. The center of a pipe has one slot. A `Push` puts its value there (`kReady`) and is pending
until the receiver has read and acknowledged it (`kAcked`); when it is polled then, it empties the
slot again and resolves to true. A `Next` resolves to a `NextResult`, whose destruction is the
acknowledgement.

The slot is emptied by the `Push` that filled it and by nobody else. When that `Push` is destroyed
before it has seen the acknowledgement, the slot stays `kAcked`, and every later `Push` is pending
for as long as the receiver is open. `PipeSystem.pipe_run_iff_keeps` says that everything else is as
it should be.

`Wake` clears the flag of the waiter and asks the activity for another poll, so that a promise whose
waiter is still set has not been asked since its last poll.
-/

namespace GrpcCore

open List Option Run

variable {α : Type} [Inhabited α]

/-! ## Center -/

inductive ValueState where
  | empty
  | ready
  | acked
  deriving DecidableEq

/-- `pipe_detail::Center`. The reference counts have two bits. -/
structure PipeCenter (α : Type) where
  value : α
  sendRefs : Nat := 1
  recvRefs : Nat := 1
  valueState : ValueState := .empty
  onEmpty : Bool := false
  onFull : Bool := false

/-- What a poll of `Next` returns: nothing yet, a result without a value because the sender is
closed, or the value. -/
inductive NextPoll where
  | pending
  | closed
  | value

namespace PipeCenter

def refSend (c : PipeCenter α) : Option (PipeCenter α) :=
  let refs := (c.sendRefs + 1) % 4
  if refs = 0 then none else some { c with sendRefs := refs }

def refRecv (c : PipeCenter α) : Option (PipeCenter α) :=
  let refs := (c.recvRefs + 1) % 4
  if refs = 0 then none else some { c with recvRefs := refs }

def wakeBoth (c : PipeCenter α) : PipeCenter α := { c with onFull := false, onEmpty := false }

/-- `UnrefSend`. Without references the center is destroyed: nobody can use it afterwards. -/
def unrefSend (c : PipeCenter α) : Option (PipeCenter α) :=
  if c.sendRefs = 0 then none
  else
    let c := { c with sendRefs := c.sendRefs - 1 }
    some (if c.sendRefs = 0 then c.wakeBoth else c)

def resetValue (c : PipeCenter α) : PipeCenter α :=
  { c with value := default, valueState := .empty }

def unrefRecv (c : PipeCenter α) : Option (PipeCenter α) :=
  if c.recvRefs = 0 then none
  else
    let c := { c with recvRefs := c.recvRefs - 1 }
    some <|
      if c.recvRefs = 0 then
        let c := c.wakeBoth
        if c.sendRefs = 0 then c
        else if c.valueState = .ready then c.resetValue else c
      else c

/-- `Push`: the result, which is missing while it is pending. -/
def push (c : PipeCenter α) (value : α) : Option (PipeCenter α × Option Bool) :=
  if c.sendRefs = 0 then none
  else if c.recvRefs = 0 then some (c, some false)
  else if c.valueState ≠ .empty then some ({ c with onEmpty := true }, none)
  else some ({ c with valueState := .ready, value := value, onFull := false }, some true)

/-- `PollAck`: the result, which is missing while it is pending. -/
def pollAck (c : PipeCenter α) : Option (PipeCenter α × Option Bool) :=
  if c.sendRefs = 0 then none
  else if c.recvRefs = 0 then some (c, some (c.valueState = .acked))
  else if c.valueState ≠ .acked then some ({ c with onEmpty := true }, none)
  else some ({ c with valueState := .empty }, some true)

def next (c : PipeCenter α) : Option (PipeCenter α × NextPoll) :=
  if c.recvRefs = 0 then none
  else if c.valueState ≠ .ready then
    if c.sendRefs = 0 then some (c, .closed) else some ({ c with onFull := true }, .pending)
  else c.refRecv.map fun c => (c, .value)

def ackNext (c : PipeCenter α) : Option (PipeCenter α) :=
  if c.valueState ≠ .ready then none
  else unrefRecv { c with valueState := .acked, onEmpty := false }

end PipeCenter

/-! ## Histories -/

/-- What the last poll of a `Push` returned. -/
inductive PushState where
  | created
  | pending
  | resolved (result : Bool)

def PushState.isLive : PushState → Bool
  | .created | .pending => true
  | .resolved _ => false

/-- `pipe_detail::Push`, with the value that it was created with, and the place of the value among
those that were put into the slot. -/
structure PipePush (α : Type) where
  push : Option α
  value : α
  place : Option Nat := none
  state : PushState := .created

/-- A `Next` or a `NextResult`: there is none, there is one with a reference to the center, or one
without. -/
inductive PipeHandle where
  | absent
  | holding
  | released
  deriving DecidableEq

def PipeHandle.refs : PipeHandle → Nat
  | .holding => 1
  | .absent | .released => 0

/-- A pipe: the ends that are open, the promises and the result that are alive, the values that were
put into the slot, the values that were received, and how many of them were acknowledged. -/
structure PipeSystem (α : Type) where
  center : PipeCenter α
  sender : Bool := true
  receiver : Bool := true
  push : Option (PipePush α) := none
  next : PipeHandle := .absent
  result : PipeHandle := .absent
  pushed : List α := []
  received : List α := []
  acked : Nat := 0

inductive PipeEvent (α : Type) where
  | createPush (value : α)
  | pollPush
  | destroyPush
  | createNext
  | pollNext
  | destroyNext
  | resetResult
  | destroyResult
  | closeSender
  | closeReceiver

namespace PipeSystem

/-- `Pipe`. -/
def init : PipeSystem α := { center := { value := default } }

/-- The second part of a poll of a `Push`, when the value is out. -/
def pollAck (s : PipeSystem α) (p : PipePush α) : Option (PipeSystem α) :=
  s.center.pollAck.map fun r =>
    let state := (r.2.map PushState.resolved).getD .pending
    { s with center := r.1, push := some { p with state := state } }

def pollPush (s : PipeSystem α) (p : PipePush α) : Option (PipeSystem α) :=
  match p.push with
  | none => s.pollAck p
  | some value => (s.center.push value).bind fun r =>
    match r.2 with
    | none => some { s with center := r.1, push := some { p with state := .pending } }
    | some false =>
      some { s with center := r.1, push := some { p with push := none, state := .resolved false } }
    | some true =>
      pollAck { s with center := r.1, pushed := s.pushed ++ [value] }
        { p with push := none, place := some s.pushed.length }

/-- A poll of a `Next` that holds its reference. -/
def pollNext (s : PipeSystem α) : Option (PipeSystem α) :=
  s.center.next.bind fun r =>
    match r.2 with
    | .pending => some { s with center := r.1 }
    | .closed => r.1.unrefRecv.map fun c =>
      { s with center := c, next := .released, result := .released }
    | .value => r.1.unrefRecv.map fun c =>
      { s with
        center := c, next := .released, result := .holding
        received := s.received ++ [r.1.value] }

/-- A `NextResult` is reset or destroyed. -/
def releaseResult (s : PipeSystem α) (h : PipeHandle) : Option (PipeSystem α) :=
  match s.result with
  | .absent => none
  | .released => some { s with result := h }
  | .holding => s.center.ackNext.map fun c =>
    { s with center := c, result := h, acked := s.acked + 1 }

def step (s : PipeSystem α) : PipeEvent α → Option (PipeSystem α)
  | .createPush value =>
    if s.sender ∧ s.push = none then
      s.center.refSend.map fun c =>
        { s with center := c, push := some { push := some value, value := value } }
    else none
  | .pollPush => (s.push.filter (·.state.isLive)).bind s.pollPush
  | .destroyPush => s.push.bind fun _ => s.center.unrefSend.map fun c =>
    { s with center := c, push := none }
  | .createNext =>
    if s.receiver ∧ s.next ≠ .holding then
      s.center.refRecv.map fun c => { s with center := c, next := .holding }
    else none
  | .pollNext => if s.next = .holding ∧ s.result ≠ .holding then s.pollNext else none
  | .destroyNext =>
    match s.next with
    | .absent => none
    | .released => some { s with next := .absent }
    | .holding => s.center.unrefRecv.map fun c => { s with center := c, next := .absent }
  | .resetResult => s.releaseResult .released
  | .destroyResult => s.releaseResult .absent
  | .closeSender =>
    if s.sender then s.center.unrefSend.map fun c => { s with center := c, sender := false }
    else none
  | .closeReceiver =>
    if s.receiver then s.center.unrefRecv.map fun c => { s with center := c, receiver := false }
    else none

/-- The ends are used while they are open and the promises while they are unresolved, and of each
kind there is one at a time. -/
def Allowed (s : PipeSystem α) : PipeEvent α → Prop
  | .createPush _ => s.sender = true ∧ s.push = none
  | .pollPush => ∃ p, s.push = some p ∧ p.state.isLive = true
  | .destroyPush => s.push.isSome
  | .createNext => s.receiver = true ∧ s.next ≠ .holding
  | .pollNext => s.next = .holding ∧ s.result ≠ .holding
  | .destroyNext => s.next ≠ .absent
  | .resetResult | .destroyResult => s.result ≠ .absent
  | .closeSender => s.sender = true
  | .closeReceiver => s.receiver = true

instance (s : PipeSystem α) : ∀ e, Decidable (s.Allowed e)
  | .createPush _ => inferInstanceAs (Decidable (s.sender = true ∧ s.push = none))
  | .pollPush => decidable_of_iff (s.push.any (·.state.isLive)) <| by
      simp [Allowed, Option.any_eq_true]
  | .destroyPush => inferInstanceAs (Decidable (s.push.isSome = true))
  | .createNext => inferInstanceAs (Decidable (s.receiver = true ∧ s.next ≠ .holding))
  | .pollNext => inferInstanceAs (Decidable (s.next = .holding ∧ s.result ≠ .holding))
  | .destroyNext => inferInstanceAs (Decidable (s.next ≠ .absent))
  | .resetResult | .destroyResult => inferInstanceAs (Decidable (s.result ≠ .absent))
  | .closeSender => inferInstanceAs (Decidable (s.sender = true))
  | .closeReceiver => inferInstanceAs (Decidable (s.receiver = true))

/-- What the pipe promises. The values acknowledged are the first `acked` ones that were received; a
`Push` whose waiter is still set has not been asked for another poll. -/
structure Correct (s : PipeSystem α) : Prop where
  received : s.received <+: s.pushed
  acked : s.acked + s.result.refs = s.received.length
  sendRefs : s.center.sendRefs = s.sender.toNat + s.push.isSome.toNat
  recvRefs : s.center.recvRefs = s.receiver.toNat + s.next.refs + s.result.refs
  place : ∀ p k, s.push = some p → p.place = some k → s.pushed[k]? = some p.value
  resolved : ∀ p b, s.push = some p → p.state = .resolved b →
    (b = true ↔ ∃ k, p.place = some k ∧ k < s.acked)
  closed : ∀ p, s.push = some p → p.state = .resolved false → s.center.recvRefs = 0
  waits : ∀ p, s.push = some p → p.state = .pending → s.center.onEmpty = true →
    s.center.recvRefs ≠ 0 → s.acked < s.pushed.length

/-- A `Push` that still has its value does not find the slot acknowledged. -/
def Keeps (s : PipeSystem α) : PipeEvent α → Prop
  | .pollPush => ∀ p, s.push = some p → p.push.isSome → s.center.recvRefs ≠ 0 →
    s.center.valueState ≠ .acked
  | _ => True

instance (s : PipeSystem α) : ∀ e, Decidable (s.Keeps e)
  | .pollPush =>
    decidable_of_iff (s.push.all fun p =>
      p.push.isSome → s.center.recvRefs ≠ 0 → s.center.valueState ≠ .acked) <| by
      simp only [Keeps, Option.all_eq_true, decide_eq_true_eq]
  | .createPush _ | .destroyPush | .createNext | .pollNext | .destroyNext | .resetResult
  | .destroyResult | .closeSender | .closeReceiver => instDecidableTrue

/-! ## References -/

variable {s s' : PipeSystem α} {e : PipeEvent α} {p : PipePush α} {c : PipeCenter α}

omit [Inhabited α] in
theorem refSend_eq (h : c.sendRefs < 3) :
    c.refSend = some { c with sendRefs := c.sendRefs + 1 } := by
  have hmod : (c.sendRefs + 1) % 4 = c.sendRefs + 1 := Nat.mod_eq_of_lt (by omega)
  rw [PipeCenter.refSend, hmod]
  exact if_neg (by omega)

omit [Inhabited α] in
theorem refRecv_eq (h : c.recvRefs < 3) :
    c.refRecv = some { c with recvRefs := c.recvRefs + 1 } := by
  have hmod : (c.recvRefs + 1) % 4 = c.recvRefs + 1 := Nat.mod_eq_of_lt (by omega)
  rw [PipeCenter.refRecv, hmod]
  exact if_neg (by omega)

omit [Inhabited α] in
theorem exists_unrefSend (h : c.sendRefs ≠ 0) : ∃ c', c.unrefSend = some c' ∧
    c'.sendRefs = c.sendRefs - 1 ∧ c'.recvRefs = c.recvRefs ∧ c'.valueState = c.valueState ∧
    c'.value = c.value ∧ (c'.onEmpty = true → c.onEmpty = true) := by
  refine ⟨_, if_neg h, ?_⟩
  split_ifs <;> simp [PipeCenter.wakeBoth]

theorem unrefRecv_of_one_lt (h : 1 < c.recvRefs) :
    c.unrefRecv = some { c with recvRefs := c.recvRefs - 1 } := by
  rw [PipeCenter.unrefRecv, if_neg (by omega)]
  exact congrArg some (if_neg (by simp only; omega))

theorem exists_unrefRecv_of_eq_one (h : c.recvRefs = 1) : ∃ c', c.unrefRecv = some c' ∧
    c'.sendRefs = c.sendRefs ∧ c'.recvRefs = 0 ∧
    (c.sendRefs ≠ 0 → c'.valueState = if c.valueState = .ready then .empty else c.valueState) := by
  refine ⟨_, if_neg (by omega), ?_⟩
  simp only [h, Nat.sub_self, if_true, PipeCenter.wakeBoth]
  by_cases hsend : c.sendRefs = 0
  · rw [if_pos hsend]
    exact ⟨rfl, rfl, fun hne => (hne hsend).elim⟩
  · rw [if_neg hsend]
    split_ifs <;> exact ⟨rfl, rfl, fun _ => rfl⟩

/-! ## The slot -/

variable {handle : PipeHandle}

theorem refs_eq_zero : handle.refs = 0 ↔ handle ≠ .holding := by
  cases handle <;> simp [PipeHandle.refs]

/-- What is known of a `Push`, from the values put into the slot, the number acknowledged, the state
of the slot and the references of the receiver. -/
inductive PushOk (pushed : List α) (acked : Nat) (slot : ValueState) (refs : Nat)
    (p : PipePush α) : Prop
  | unsent : p.push = some p.value → p.place = none → p.state.isLive = true → PushOk ..
  | sent (k : Nat) : p.push = none → p.place = some k → k + 1 = pushed.length →
      pushed[k]? = some p.value → p.state = .pending → (slot = .acked ↔ k < acked) →
      (refs ≠ 0 → slot ≠ .empty) → PushOk ..
  | received (k : Nat) : p.place = some k → pushed[k]? = some p.value → k < acked →
      p.state = .resolved true → PushOk ..
  | closed : p.state = .resolved false → refs = 0 →
      (∀ k, p.place = some k → acked ≤ k ∧ pushed[k]? = some p.value) → PushOk ..

omit [Inhabited α] in
theorem PushOk.refs {pushed : List α} {acked refs refs' : Nat} {slot : ValueState}
    (h : PushOk pushed acked slot refs p) (hrefs : refs' = 0 ↔ refs = 0) :
    PushOk pushed acked slot refs' p := by
  cases h with
  | unsent h₁ h₂ h₃ => exact .unsent h₁ h₂ h₃
  | sent k h₁ h₂ h₃ h₄ h₅ h₆ h₇ =>
    exact .sent k h₁ h₂ h₃ h₄ h₅ h₆ fun hne => h₇ (mt hrefs.2 hne)
  | received k h₁ h₂ h₃ h₄ => exact .received k h₁ h₂ h₃ h₄
  | closed h₁ h₂ h₃ => exact .closed h₁ (hrefs.2 h₂) h₃

/-- The value that waits for the receiver. -/
def unread (s : PipeSystem α) : List α :=
  if s.center.valueState = .ready ∧ s.result ≠ .holding then [s.center.value] else []

/-- The invariant without the count of the receiving references. -/
structure Slot (s : PipeSystem α) : Prop where
  received : s.received <+: s.pushed
  acked : s.acked + s.result.refs = s.received.length
  sendRefs : s.center.sendRefs = s.sender.toNat + s.push.isSome.toNat
  unread : s.center.recvRefs ≠ 0 → s.pushed = s.received ++ s.unread
  result : s.result = .holding → s.center.valueState = .ready
  push : ∀ p, s.push = some p → PushOk s.pushed s.acked s.center.valueState s.center.recvRefs p
  waits : ∀ p, s.push = some p → p.state = .pending → s.center.onEmpty = true →
    s.center.recvRefs ≠ 0 → s.acked < s.pushed.length

structure Inv (s : PipeSystem α) : Prop extends Slot s where
  recvRefs : s.center.recvRefs = s.receiver.toNat + s.next.refs + s.result.refs

theorem Inv.init : Inv (PipeSystem.init : PipeSystem α) where
  received := prefix_refl _
  acked := rfl
  sendRefs := rfl
  unread := fun _ => rfl
  result := fun h => (nomatch h)
  push := fun _ h => (nomatch h)
  waits := fun _ h => (nomatch h)
  recvRefs := rfl

omit [Inhabited α] in
theorem Inv.correct (h : Inv s) : Correct s where
  received := h.received
  acked := h.acked
  sendRefs := h.sendRefs
  recvRefs := h.recvRefs
  waits := h.waits
  place := by
    intro p k hp hk
    cases h.push p hp with
    | unsent _ hplace => cases hplace.symm.trans hk
    | sent j _ hplace _ hvalue => cases hplace.symm.trans hk; exact hvalue
    | received j hplace hvalue => cases hplace.symm.trans hk; exact hvalue
    | closed _ _ hplace => exact (hplace k hk).2
  resolved := by
    intro p b hp hb
    cases h.push p hp with
    | unsent _ _ hlive => rw [hb] at hlive; cases hlive
    | sent _ _ _ _ _ hpending => cases hpending.symm.trans hb
    | received k hplace _ hlt htrue =>
      cases htrue.symm.trans hb
      exact iff_of_true rfl ⟨k, hplace, hlt⟩
    | closed hfalse _ hplace =>
      cases hfalse.symm.trans hb
      refine iff_of_false Bool.false_ne_true ?_
      rintro ⟨k, hk, hlt⟩
      exact Nat.not_lt.2 (hplace k hk).1 hlt
  closed := by
    intro p hp hfalse
    cases h.push p hp with
    | unsent _ _ hlive => rw [hfalse] at hlive; cases hlive
    | sent _ _ _ _ _ hpending => cases hpending.symm.trans hfalse
    | received _ _ _ _ htrue => cases htrue.symm.trans hfalse
    | closed _ hrefs => exact hrefs

omit [Inhabited α] in
theorem Slot.acked_succ (h : Slot s) (hrefs : s.center.recvRefs ≠ 0)
    (hready : s.center.valueState = .ready) : s.acked + 1 = s.pushed.length := by
  have hacked := h.acked
  rw [h.unread hrefs, length_append]
  by_cases hresult : s.result = .holding
  · rw [hresult] at hacked
    simp only [PipeSystem.unread, hresult, ne_eq, not_true_eq_false, and_false,
      if_false, length_nil]
    exact hacked
  · have hzero := refs_eq_zero.2 hresult
    simp only [PipeSystem.unread, hready, hresult, ne_eq, not_false_eq_true, and_self, if_true,
      length_singleton]
    omega

omit [Inhabited α] in
theorem Slot.received_eq (h : Slot s) (hrefs : s.center.recvRefs ≠ 0)
    (hready : s.center.valueState ≠ .ready) :
    s.pushed = s.received ∧ s.acked = s.pushed.length := by
  have hpushed := h.unread hrefs
  rw [PipeSystem.unread, if_neg (fun hand => hready hand.1), append_nil] at hpushed
  have hacked := h.acked
  rw [refs_eq_zero.2 (mt h.result hready)] at hacked
  exact ⟨hpushed, hpushed ▸ hacked⟩

/-! ## Steps -/

omit [Inhabited α] in
/-- The ends and the promises of the receiver do not matter, but for the value that a result
holds. -/
theorem Slot.handles (h : Slot s) (receiver : Bool) (next : PipeHandle) {result : PipeHandle}
    (hr : result ≠ .holding) (hs : s.result ≠ .holding) :
    Slot { s with receiver := receiver, next := next, result := result } := by
  have hacked := h.acked
  rw [refs_eq_zero.2 hs] at hacked
  refine { h with
    acked := by rw [refs_eq_zero.2 hr]; exact hacked
    unread := fun hne => ?_
    result := fun hholding => (hr hholding).elim }
  have hunread := h.unread hne
  simpa only [PipeSystem.unread, ne_eq, hs, hr] using hunread

theorem Slot.unrefRecv (h : Slot s) (hrefs : s.center.recvRefs ≠ 0)
    (hresult : s.result = .holding → s.center.recvRefs ≠ 1) :
    ∃ c, s.center.unrefRecv = some c ∧ c.recvRefs = s.center.recvRefs - 1 ∧
      Slot { s with center := c } := by
  by_cases hone : s.center.recvRefs = 1
  · -- the receiver is closed now
    obtain ⟨c, hc, hsend, hrecv, hstate⟩ := exists_unrefRecv_of_eq_one hone
    refine ⟨c, hc, by rw [hrecv, hone], h.received, h.acked, hsend.trans h.sendRefs,
      fun hne => (hne hrecv).elim, fun hr => (hresult hr hone).elim, fun p hp => ?_,
      fun _ _ _ _ hne => (hne hrecv).elim⟩
    have hstate' := hstate (by rw [h.sendRefs, hp]; exact Nat.succ_ne_zero _)
    cases h.push p hp with
    | unsent h₁ h₂ h₃ => exact .unsent h₁ h₂ h₃
    | sent k h₁ h₂ h₃ h₄ h₅ h₆ h₇ =>
      refine .sent k h₁ h₂ h₃ h₄ h₅ ?_ fun hne => (hne hrecv).elim
      rw [hstate', ← h₆]
      cases s.center.valueState <;> simp
    | received k h₁ h₂ h₃ h₄ => exact .received k h₁ h₂ h₃ h₄
    | closed h₁ h₂ h₃ => exact .closed h₁ hrecv h₃
  · refine ⟨_, unrefRecv_of_one_lt (by omega), rfl, { h with
      unread := fun _ => h.unread hrefs
      push := fun p hp => (h.push p hp).refs ?_
      waits := fun p hp hpending hwaiting _ => h.waits p hp hpending hwaiting hrefs }⟩
    simp only
    omega

omit [Inhabited α] in
theorem Inv.unrefSend (h : Inv s) {sender : Bool} {push : Option (PipePush α)}
    (hrefs : s.center.sendRefs = sender.toNat + push.isSome.toNat + 1)
    (hpush : ∀ p, push = some p → s.push = some p) :
    ∃ c, s.center.unrefSend = some c ∧
      Inv { s with center := c, sender := sender, push := push } := by
  obtain ⟨c, hc, hsend, hrecv, hstate, hvalue, hwaiting⟩ :=
      exists_unrefSend (c := s.center) (by omega)
  refine ⟨c, hc, ⟨h.received, h.acked, ?_, fun hne => ?_, fun hr => hstate.trans (h.result hr),
    fun p hp => ?_, fun p hp hpending hw hne => ?_⟩, hrecv.trans h.recvRefs⟩
  · rw [hsend, hrefs]
    rfl
  · simp only [PipeSystem.unread, hstate, hvalue]
    exact h.unread (hrecv ▸ hne)
  · rw [hstate, hrecv]
    exact h.push p (hpush p hp)
  · exact h.waits p (hpush p hp) hpending (hwaiting hw) (hrecv ▸ hne)

omit [Inhabited α] in
theorem Inv.pollAck {k : Nat} (h : Inv s) (hsend : s.center.sendRefs = s.sender.toNat + 1)
    (hpush : p.push = none) (hplace : p.place = some k) (hlast : k + 1 = s.pushed.length)
    (hvalue : s.pushed[k]? = some p.value) (hacked : s.center.valueState = .acked ↔ k < s.acked)
    (hempty : s.center.recvRefs ≠ 0 → s.center.valueState ≠ .empty) :
    Returns (s.pollAck p) Inv := by
  have hne : s.center.sendRefs ≠ 0 := by omega
  unfold PipeSystem.pollAck PipeCenter.pollAck
  rw [if_neg hne]
  split_ifs with hrefs hstate
  · -- the receiver is closed
    refine ⟨_, rfl, { h with
      sendRefs := hsend, push := ?_, waits := fun _ _ _ _ hne => (hne hrefs).elim }⟩
    rintro q ⟨⟩
    by_cases hlt : s.center.valueState = .acked
    · exact .received k hplace hvalue (hacked.1 hlt) (by simp [hlt])
    · refine .closed (by simp [hlt]) hrefs fun j hj => ?_
      cases hplace.symm.trans hj
      exact ⟨Nat.not_lt.1 (mt hacked.2 hlt), hvalue⟩
  · -- the value is not acknowledged
    have hready : s.center.valueState = .ready := by
      cases hv : s.center.valueState with
      | empty => exact (hempty hrefs hv).elim
      | ready => rfl
      | acked => exact (hstate hv).elim
    have hsucc := h.acked_succ hrefs hready
    refine ⟨_, rfl, { h with sendRefs := hsend, push := ?_, waits := fun _ _ _ _ _ => ?_ }⟩
    · rintro q ⟨⟩
      exact .sent k hpush hplace hlast hvalue rfl hacked hempty
    · show s.acked < s.pushed.length
      omega
  · -- the value is acknowledged
    have hstate : s.center.valueState = .acked := not_not.1 hstate
    have hnot : s.center.valueState ≠ .ready := by rw [hstate]; simp
    obtain ⟨hpushed, -⟩ := h.received_eq hrefs hnot
    refine ⟨_, rfl, { h with
      sendRefs := hsend
      unread := fun _ => hpushed.trans (append_nil _).symm
      result := fun hr => (hnot (h.result hr)).elim
      push := ?_
      waits := ?_ }⟩
    · rintro q ⟨⟩
      exact .received k hplace hvalue (hacked.1 hstate) rfl
    · rintro q ⟨⟩ hpending
      cases hpending

omit [Inhabited α] in
theorem Inv.pollPush (h : Inv s) (hp : s.push = some p) (hlive : p.state.isLive = true)
    (hk : s.Keeps .pollPush) : Returns (s.pollPush p) Inv := by
  have hsend : s.center.sendRefs = s.sender.toNat + 1 := by rw [h.sendRefs, hp]; rfl
  have hne : s.center.sendRefs ≠ 0 := by omega
  cases h.push p hp with
  | sent k hpush hplace hlast hvalue _ hacked hempty =>
    rw [PipeSystem.pollPush, hpush]
    exact h.pollAck hsend hpush hplace hlast hvalue hacked hempty
  | received _ _ _ _ htrue => rw [htrue] at hlive; cases hlive
  | closed hfalse => rw [hfalse] at hlive; cases hlive
  | unsent hpush hplace _ =>
    simp only [PipeSystem.pollPush, hpush, PipeCenter.push, if_neg hne]
    split_ifs with hrefs hstate
    · refine ⟨_, rfl, { h with
        sendRefs := hsend, push := ?_, waits := fun _ _ _ _ hne => (hne hrefs).elim }⟩
      rintro q ⟨⟩
      exact .closed rfl hrefs fun k hplace' => (nomatch hplace.symm.trans hplace')
    · -- the slot is taken, and the value in it is not acknowledged
      have hready : s.center.valueState = .ready := by
        cases hv : s.center.valueState with
        | empty => exact (hstate hv).elim
        | ready => rfl
        | acked => exact (hk p hp (by rw [hpush]; rfl) hrefs hv).elim
      have hsucc := h.acked_succ hrefs hready
      refine ⟨_, rfl, { h with sendRefs := hsend, push := ?_, waits := fun _ _ _ _ _ => ?_ }⟩
      · rintro q ⟨⟩
        exact .unsent rfl hplace rfl
      · show s.acked < s.pushed.length
        omega
    · have hstate : s.center.valueState = .empty := not_not.1 hstate
      have hnot : s.center.valueState ≠ .ready := by rw [hstate]; simp
      have hresult : s.result ≠ .holding := fun hr => hnot (h.result hr)
      obtain ⟨hpushed, hacked⟩ := h.received_eq hrefs hnot
      -- the slot is filled before the promise is looked at again by `PollAck`
      have hfilled : Inv { s with
          center := { s.center with valueState := .ready, value := p.value, onFull := false }
          pushed := s.pushed ++ [p.value] } := by
        refine { h with
          received := h.received.trans (prefix_append _ _)
          unread := fun _ => ?_
          result := fun _ => rfl
          push := fun q hq => ?_
          waits := fun _ _ _ _ _ => ?_ }
        · simp only [PipeSystem.unread, hresult, ne_eq, not_false_eq_true,
            and_self, if_true, hpushed]
        · cases hp.symm.trans hq
          exact .unsent hpush hplace hlive
        · simp only [length_append, length_singleton]
          omega
      refine hfilled.pollAck hsend rfl rfl ?_ ?_ ?_ fun _ => by simp
      · rw [length_append, length_singleton]
      · exact getElem?_concat_length
      · simp [hacked]

theorem Inv.releaseResult (h : Inv s) (hr : s.result ≠ .absent)
    (hnot : handle ≠ .holding) : Returns (s.releaseResult handle) Inv := by
  have hhandle := refs_eq_zero.2 hnot
  unfold PipeSystem.releaseResult
  cases hresult : s.result with
  | absent => exact (hr hresult).elim
  | released =>
    have hs : s.result ≠ .holding := by rw [hresult]; simp
    refine ⟨_, rfl, h.handles s.receiver s.next hnot hs, ?_⟩
    rw [hhandle, ← refs_eq_zero.2 hs]
    exact h.recvRefs
  | holding =>
    have hready := h.result hresult
    have hcount := h.recvRefs
    have hacked := h.acked
    rw [hresult] at hcount hacked
    have hne : s.center.recvRefs ≠ 0 := by
      rw [hcount]
      exact Nat.succ_ne_zero _
    have hsucc := h.acked_succ hne hready
    have hpushed : s.pushed = s.received := by
      have hunread := h.unread hne
      rwa [PipeSystem.unread, if_neg (fun hand => hand.2 hresult), append_nil] at hunread
    -- the value is acknowledged before the reference is dropped
    have hack : Slot { s with
        center := { s.center with valueState := .acked, onEmpty := false }
        result := handle
        acked := s.acked + 1 } := by
      refine ⟨h.received, by rw [hhandle]; exact hacked, h.sendRefs, fun _ => ?_,
        fun hholding => (hnot hholding).elim, fun p hp => ?_, fun _ _ _ hwaiting =>
          (nomatch hwaiting)⟩
      · exact hpushed.trans (append_nil _).symm
      · cases h.push p hp with
        | unsent h₁ h₂ h₃ => exact .unsent h₁ h₂ h₃
        | sent k h₁ h₂ h₃ h₄ h₅ =>
          refine .sent k h₁ h₂ h₃ h₄ h₅ (iff_of_true rfl ?_) fun _ => by simp
          show k < s.acked + 1
          omega
        | received k h₁ h₂ h₃ h₄ => exact .received k h₁ h₂ (Nat.lt_succ_of_lt h₃) h₄
        | closed _ h₂ => exact (hne h₂).elim
    obtain ⟨c, hc, hrecv, hslot⟩ := hack.unrefRecv hne (fun hholding => (hnot hholding).elim)
    refine ⟨_, by rw [PipeCenter.ackNext, if_neg (not_not.2 hready), hc]; rfl, hslot, ?_⟩
    show c.recvRefs = _
    rw [hrecv, hhandle]
    show s.center.recvRefs - 1 = _
    rw [hcount]
    rfl

theorem Inv.unrefRecv (h : Inv s) {receiver : Bool} {next : PipeHandle}
    (hrefs : s.receiver.toNat + s.next.refs = receiver.toNat + next.refs + 1) :
    ∃ c, s.center.unrefRecv = some c ∧
      Inv { s with center := c, receiver := receiver, next := next } := by
  have hcount := h.recvRefs
  have hresult (hr : s.result = .holding) : s.center.recvRefs ≠ 1 := by
    have hone : s.result.refs = 1 := by rw [hr]; rfl
    omega
  obtain ⟨c, hc, hrecv, hslot⟩ := h.toSlot.unrefRecv (by omega) hresult
  refine ⟨c, hc, { hslot with unread := hslot.unread, recvRefs := ?_ }⟩
  show c.recvRefs = receiver.toNat + next.refs + s.result.refs
  omega

theorem Inv.pollNext (h : Inv s) (hnext : s.next = .holding) (hresult : s.result ≠ .holding) :
    Returns s.pollNext Inv := by
  have hcount := h.recvRefs
  rw [hnext, refs_eq_zero.2 hresult] at hcount
  have hrecv : s.receiver.toNat ≤ 1 := Bool.toNat_le s.receiver
  simp only [PipeHandle.refs] at hcount
  have hne : s.center.recvRefs ≠ 0 := by omega
  by_cases hready : s.center.valueState = .ready
  · have hpushed := h.unread hne
    rw [PipeSystem.unread, if_pos ⟨hready, hresult⟩] at hpushed
    have hacked := h.acked
    rw [refs_eq_zero.2 hresult] at hacked
    have hpoll : s.pollNext = some { s with
        next := .released
        result := .holding
        received := s.received ++ [s.center.value] } := by
      have hunref := unrefRecv_of_one_lt (c := { s.center with recvRefs := s.center.recvRefs + 1 })
        (by simp only; omega)
      rw [PipeSystem.pollNext, PipeCenter.next, if_neg hne, if_neg (not_not.2 hready),
        refRecv_eq (by omega)]
      simp only [map_some, bind_some, hunref, Nat.add_sub_cancel]
    refine ⟨_, hpoll, ⟨⟨[], by rw [hpushed, append_nil]⟩, ?_, h.sendRefs,
      fun _ => ?_, fun _ => hready, h.push, h.waits⟩, ?_⟩
    · rw [length_append, ← hacked]
      rfl
    · rw [hpushed, PipeSystem.unread, if_neg (fun hand => hand.2 rfl), append_nil]
    · show s.center.recvRefs = s.receiver.toNat + 0 + 1
      omega
  · unfold PipeSystem.pollNext PipeCenter.next
    rw [if_neg hne, if_pos hready]
    split_ifs with hsend
    · obtain ⟨c, hc, hinv⟩ := @Inv.unrefRecv _ _ _ h s.receiver .released (by rw [hnext]; rfl)
      refine ⟨_, by rw [bind_some]; simp only [hc]; rfl,
        hinv.handles s.receiver .released (by simp) hresult, ?_⟩
      rw [hinv.recvRefs, refs_eq_zero.2 hresult]
      rfl
    · exact ⟨_, rfl, { h with }⟩

theorem Inv.createPush (h : Inv s) (value : α) (hsender : s.sender = true) (hpush : s.push = none) :
    Returns (s.step (.createPush value)) Inv := by
  have hone : s.center.sendRefs = 1 := by
    rw [h.sendRefs, hsender, hpush]
    rfl
  refine ⟨{ s with
      center := { s.center with sendRefs := s.center.sendRefs + 1 }
      push := some { push := some value, value := value } },
    by rw [PipeSystem.step, if_pos ⟨hsender, hpush⟩, refSend_eq (by omega)]; rfl,
    { h with sendRefs := by rw [hsender, hone]; rfl, push := ?_, waits := ?_ }⟩
  · rintro p ⟨⟩
    exact .unsent rfl rfl rfl
  · rintro p ⟨⟩ hpending
    cases hpending

theorem Inv.createNext (h : Inv s) (hreceiver : s.receiver = true) (hnext : s.next ≠ .holding) :
    Returns (s.step .createNext) Inv := by
  have hresult : s.result.refs ≤ 1 := by cases s.result <;> decide
  have hrecv : s.center.recvRefs = 1 + s.result.refs := by
    rw [h.recvRefs, hreceiver, refs_eq_zero.2 hnext]
    rfl
  refine ⟨{ s with
      center := { s.center with recvRefs := s.center.recvRefs + 1 }, next := .holding },
    by rw [PipeSystem.step, if_pos ⟨hreceiver, hnext⟩, refRecv_eq (by omega)]; rfl,
    { h with
      unread := fun _ => h.unread (by omega)
      push := fun p hp => (h.push p hp).refs (by simp only; omega)
      waits := fun p hp hpending hw _ => h.waits p hp hpending hw (by omega)
      recvRefs := ?_ }⟩
  rw [hreceiver]
  show s.center.recvRefs + 1 = 1 + 1 + s.result.refs
  omega

/-- Every event goes through and keeps the invariant, as long as no `Push` finds the slot
acknowledged. -/
theorem Inv.exists_step (h : Inv s) (ha : s.Allowed e) (hk : s.Keeps e) :
    Returns (s.step e) Inv := by
  have hsend := h.sendRefs
  have hrecv := h.recvRefs
  cases e with
  | createPush value => exact h.createPush value ha.1 ha.2
  | pollPush =>
    obtain ⟨p, hp, hlive⟩ := ha
    obtain ⟨s', hs', hinv⟩ := h.pollPush hp hlive hk
    exact ⟨s', by rw [step, hp, filter_some, if_pos hlive]; exact hs', hinv⟩
  | destroyPush =>
    obtain ⟨p, hp⟩ := isSome_iff_exists.1 ha
    rw [hp] at hsend
    obtain ⟨c, hc, hinv⟩ := @Inv.unrefSend _ _ h s.sender none hsend
      (fun _ hnone => (nomatch hnone))
    exact ⟨_, by rw [step, hp, bind_some, hc]; rfl, hinv⟩
  | createNext => exact h.createNext ha.1 ha.2
  | pollNext =>
    obtain ⟨s', hs', hinv⟩ := h.pollNext ha.1 ha.2
    exact ⟨s', (if_pos ha).trans hs', hinv⟩
  | destroyNext =>
    cases hnext : s.next with
    | absent => exact (ha hnext).elim
    | released =>
      refine ⟨{ s with next := .absent }, by rw [step, hnext],
        { h with unread := h.unread, recvRefs := ?_ }⟩
      rw [hnext] at hrecv
      exact hrecv
    | holding =>
      obtain ⟨c, hc, hinv⟩ := @Inv.unrefRecv _ _ _ h s.receiver .absent (by rw [hnext]; rfl)
      exact ⟨_, by rw [step, hnext]; simp only [hc]; rfl, hinv⟩
  | resetResult => exact h.releaseResult ha (by simp)
  | destroyResult => exact h.releaseResult ha (by simp)
  | closeSender =>
    have ha : s.sender = true := ha
    rw [ha] at hsend
    obtain ⟨c, hc, hinv⟩ := @Inv.unrefSend _ _ h false s.push
      (by rw [hsend, Bool.toNat_true, Bool.toNat_false]; omega) (fun _ hp => hp)
    exact ⟨_, by rw [step, if_pos ha, hc]; rfl, hinv⟩
  | closeReceiver =>
    have ha : s.receiver = true := ha
    obtain ⟨c, hc, hinv⟩ := @Inv.unrefRecv _ _ _ h false s.next
      (by rw [ha, Bool.toNat_true, Bool.toNat_false]; omega)
    exact ⟨_, by rw [step, if_pos ha, hc]; rfl, hinv⟩

theorem Inv.step (h : Inv s) (ha : s.Allowed e) (hk : s.Keeps e) (hs : s.step e = some s') :
    Inv s' := by
  obtain ⟨s₁, h₁, hinv⟩ := h.exists_step ha hk
  obtain rfl := some.inj (h₁.symm.trans hs)
  exact hinv

/-- A `Push` that finds the slot acknowledged is pending, with nothing to wait for. -/
theorem Inv.not_correct (h : Inv s) (ha : s.Allowed e) (hk : ¬ s.Keeps e) :
    Returns (s.step e) (¬ Correct ·) := by
  cases e with
  | pollPush =>
    obtain ⟨p, hp, hlive⟩ := ha
    simp only [Keeps, not_forall, not_not] at hk
    obtain ⟨q, hq, hvalue, hrefs, hacked⟩ := hk
    cases hp.symm.trans hq
    obtain ⟨value, hvalue⟩ := isSome_iff_exists.1 hvalue
    have hsend : s.center.sendRefs ≠ 0 := by
      rw [h.sendRefs, hp]
      exact Nat.succ_ne_zero _
    have hnot : s.center.valueState ≠ .ready := by rw [hacked]; simp
    have hfull : s.center.valueState ≠ .empty := by rw [hacked]; simp
    refine ⟨{ s with center := { s.center with onEmpty := true }, push := some { p with
      state := .pending } }, ?_, fun hc => ?_⟩
    · rw [PipeSystem.step, hp, filter_some, if_pos hlive, bind_some, PipeSystem.pollPush, hvalue]
      simp only [PipeCenter.push, if_neg hsend, if_neg hrefs, if_pos hfull, bind_some]
    · have hlt : s.acked < s.pushed.length := hc.waits _ rfl rfl rfl hrefs
      have heq := (h.received_eq hrefs hnot).2
      omega
  | createPush | destroyPush | createNext | pollNext | destroyNext | resetResult | destroyResult
  | closeSender | closeReceiver => exact (hk trivial).elim

/-! ## Whole histories -/

/-- In a history every event goes through and the pipe is correct in every state, exactly when no
`Push` is polled with its value while the slot is acknowledged and the receiver open. -/
theorem pipe_run_iff_keeps (events : List (PipeEvent α))
    (h : Along PipeSystem.step Allowed PipeSystem.init events) :
    ((∃ s, run PipeSystem.step PipeSystem.init events = some s) ∧
      ∀ pre s, pre <+: events → run PipeSystem.step PipeSystem.init pre = some s → Correct s) ↔
    Along PipeSystem.step Keeps PipeSystem.init events := by
  constructor
  · rintro ⟨-, hcorrect⟩
    exact h.of_property hcorrect (fun s e s' hs ha hk => hs.step ha hk)
      (fun s e hs ha hk => hs.not_correct ha hk) Inv.init
  · intro hk
    have hboth := h.and hk
    obtain ⟨s, hrun, -⟩ := hboth.exists_run (fun s e hs hG => hs.exists_step hG.1 hG.2) Inv.init
    refine ⟨⟨s, hrun⟩, fun pre s' hpre hrun' => ?_⟩
    exact (run_invariant (hboth.mono hpre) hrun' (fun s e s' hs hG => hs.step hG.1 hG.2)
      Inv.init).correct

/-- A value that is received and one that is lost when the receiver is closed. -/
theorem pipe_run_iff_keeps_two_values : ∃ s : PipeSystem Nat,
    run PipeSystem.step PipeSystem.init
      [.createPush 1, .pollPush, .createNext, .pollNext, .destroyResult, .pollPush, .destroyPush,
        .createPush 2, .pollPush, .closeReceiver, .destroyNext, .pollPush] = some s :=
  ((pipe_run_iff_keeps _ (by decide)).2 (by decide)).1

/-- A `Push` is destroyed when its value is in the pipe. The value is received and acknowledged; the
next `Push` is pending all the same, with the receiver open. -/
theorem abandoned_push_blocks_pipe :
    Along PipeSystem.step Allowed (PipeSystem.init : PipeSystem Nat)
      [.createPush 1, .pollPush, .destroyPush, .createNext, .pollNext,
        .destroyResult, .createPush 2, .pollPush] ∧
    ∃ s : PipeSystem Nat,
      run PipeSystem.step PipeSystem.init
        [.createPush 1, .pollPush, .destroyPush, .createNext, .pollNext,
          .destroyResult, .createPush 2, .pollPush] = some s ∧
      s.push = some ⟨some 2, 2, none, .pending⟩ ∧ s.center.onEmpty = true ∧ s.receiver = true ∧
      s.pushed = [1] ∧ s.acked = 1 ∧ ¬ Correct s := by
  refine ⟨by decide, _, rfl, rfl, rfl, rfl, rfl, rfl, fun h => ?_⟩
  exact absurd (h.waits _ rfl rfl rfl (by decide)) (by decide)

end PipeSystem

end GrpcCore
