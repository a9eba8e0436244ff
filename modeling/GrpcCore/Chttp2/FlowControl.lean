import GrpcCore.Lib.Numeric
import Mathlib.Algebra.Order.Group.Unbundled.Int

/-!
# Flow control

`TransportFlowControl` and `StreamFlowControl` (`flow_control.h`, `flow_control.cc`), with the
flow-control fixes of the transport enabled. The 64-bit counters are integers: the windows stay far
below `2 ^ 63`. What the bandwidth estimator and the memory pressure make of the initial window is
an argument of `periodicUpdate`. `Clamp` is `Numeric.clamp`. A failing `GPR_ASSERT` is `none`.

Every function has one lemma that says what it does to the counters: `announcedWindow` moves only
by what is announced and received, the deltas of the streams likewise, and
`announcedStreamTotalOverIncomingWindow` follows the positive part of the deltas.
-/

namespace GrpcCore

namespace FlowControl

def kDefaultWindow : Nat := 65535

def kDefaultFrameSize : Nat := 16384

/-- The maximum per-stream flow control window delta to advertise. -/
def kMaxWindowDelta : Int := 2 ^ 20

def kMaxWindowUpdateSize : Int := 2 ^ 31 - 1

end FlowControl

open FlowControl Numeric

inductive Urgency where
  | noActionNeeded
  | updateImmediately
  | queueUpdate

structure FlowControlAction where
  sendStreamUpdate : Urgency := .noActionNeeded
  sendTransportUpdate : Urgency := .noActionNeeded
  sendInitialWindowUpdate : Urgency := .noActionNeeded
  sendMaxFrameSizeUpdate : Urgency := .noActionNeeded
  initialWindowSize : Nat := 0
  maxFrameSize : Nat := 0

structure TransportFlowControl where
  announcedStreamTotalOverIncomingWindow : Int := 0
  remoteWindow : Int := kDefaultWindow
  targetInitialWindowSize : Nat := kDefaultWindow
  targetFrameSize : Nat := kDefaultFrameSize
  announcedWindow : Int := kDefaultWindow
  ackedInitWindow : Nat := kDefaultWindow
  deriving DecidableEq

structure StreamFlowControl where
  minProgressSize : Int := 0
  remoteWindowDelta : Int := 0
  announcedWindowDelta : Int := 0
  pendingSize : Option Int := none

/-- The error of `RecvData`, for the transport and for a stream. -/
structure WindowOverflow where
  frameSize : Int
  localWindow : Int
  deriving DecidableEq

def WindowOverflow.message (e : WindowOverflow) : String :=
  s!"frame of size {e.frameSize} overflows local window of {e.localWindow}"

namespace TransportFlowControl

/-- `target_window`, an unsigned 32-bit word. -/
def targetWindow (t : TransportFlowControl) : Int :=
  min (2 ^ 31 - 1) (t.announcedStreamTotalOverIncomingWindow + t.targetInitialWindowSize) % 2 ^ 32

def maybeSendUpdate (t : TransportFlowControl) (writingAnyway : Bool) :
    Int × TransportFlowControl :=
  let target := t.targetWindow
  if (writingAnyway = true ∨ t.announcedWindow ≤ target / 2) ∧ t.announcedWindow ≠ target then
    let announce := clamp (target - t.announcedWindow) 0 kMaxWindowUpdateSize
    (announce, { t with announcedWindow := t.announcedWindow + announce })
  else (0, t)

def updateAction (t : TransportFlowControl) (action : FlowControlAction) : FlowControlAction :=
  if t.announcedWindow < t.targetWindow / 2 then
    { action with sendTransportUpdate := .updateImmediately }
  else action

/-- `UpdateAnnouncedWindowDelta`: the transport and the new delta. -/
def updateAnnouncedWindowDelta (t : TransportFlowControl) (delta change : Int) :
    TransportFlowControl × Int :=
  if change = 0 then (t, delta)
  else
    let total := t.announcedStreamTotalOverIncomingWindow
    let total := if 0 < delta then total - delta else total
    let delta := delta + change
    let total := if 0 < delta then total + delta else total
    ({ t with announcedStreamTotalOverIncomingWindow := total }, delta)

/-- `UpdateSetting` for the initial window: the new target, and the action if it changed. A target
or a current value of zero is urgent. -/
def updateInitialWindow (t : TransportFlowControl) (newDesiredValue : Nat)
    (action : FlowControlAction) : TransportFlowControl × FlowControlAction :=
  let newDesiredValue := min newDesiredValue 2147483647
  if newDesiredValue ≠ t.targetInitialWindowSize then
    let urgency := if t.targetInitialWindowSize = 0 ∨ newDesiredValue = 0 then
      Urgency.updateImmediately else .queueUpdate
    ({ t with targetInitialWindowSize := newDesiredValue },
      { action with
        sendInitialWindowUpdate := urgency, initialWindowSize := newDesiredValue })
  else (t, action)

/-- `UpdateSetting` for the frame size, which is never zero. -/
def updateMaxFrameSize (t : TransportFlowControl) (newDesiredValue : Nat)
    (action : FlowControlAction) : TransportFlowControl × FlowControlAction :=
  let newDesiredValue := max 16384 (min newDesiredValue 16777215)
  if newDesiredValue ≠ t.targetFrameSize then
    let urgency := if t.targetFrameSize = 0 ∨ newDesiredValue = 0 then
      Urgency.updateImmediately else .queueUpdate
    ({ t with targetFrameSize := newDesiredValue },
      { action with sendMaxFrameSizeUpdate := urgency, maxFrameSize := newDesiredValue })
  else (t, action)

/-- `PeriodicUpdate` with BDP probes enabled. `target` is the estimate. -/
def periodicUpdate (t : TransportFlowControl) (target : Nat) :
    TransportFlowControl × FlowControlAction :=
  let (t, action) := t.updateInitialWindow target {}
  let (t, action) := t.updateMaxFrameSize target action
  (t, t.updateAction action)

def setAckedInitialWindow (t : TransportFlowControl) (value : Nat) :
    TransportFlowControl × FlowControlAction :=
  let t := { t with ackedInitWindow := value }
  if t.ackedInitWindow ≠ t.targetInitialWindowSize then
    let urgency := if t.ackedInitWindow = 0 ∨ t.targetInitialWindowSize = 0 then
      Urgency.updateImmediately else .queueUpdate
    (t, { sendInitialWindowUpdate := urgency, initialWindowSize := t.targetInitialWindowSize })
  else (t, {})

/-- `OutgoingUpdateContext::RecvUpdate`: a WINDOW_UPDATE frame for the transport. -/
def recvUpdate (t : TransportFlowControl) (size : Int) : TransportFlowControl :=
  { t with remoteWindow := t.remoteWindow + size }

def streamSentData (t : TransportFlowControl) (size : Int) : TransportFlowControl :=
  { t with remoteWindow := t.remoteWindow - size }

end TransportFlowControl

namespace StreamFlowControl

/-- The delta that `DesiredAnnounceSize` aims at. -/
def desiredWindowDelta (s : StreamFlowControl) : Int :=
  if s.minProgressSize = 0 then
    match s.pendingSize with
    | some pending =>
      if s.announcedWindowDelta < -pending then -pending else s.announcedWindowDelta
    | none => s.announcedWindowDelta
  else min s.minProgressSize kMaxWindowDelta

def desiredAnnounceSize (s : StreamFlowControl) : Int :=
  clamp (s.desiredWindowDelta - s.announcedWindowDelta) 0 kMaxWindowUpdateSize

def maybeSendUpdate (t : TransportFlowControl) (s : StreamFlowControl) :
    Option (Int × TransportFlowControl × StreamFlowControl) :=
  let announce := s.desiredAnnounceSize
  let (t, delta) := t.updateAnnouncedWindowDelta s.announcedWindowDelta announce
  let s := { s with pendingSize := none, announcedWindowDelta := delta }
  if s.desiredAnnounceSize = 0 then some (announce, t, s) else none

/-- `RecvData`: the check of the transport, that of the stream, and the bookkeeping of both. -/
def recvData (t : TransportFlowControl) (s : StreamFlowControl) (incomingFrameSize : Int) :
    Except WindowOverflow (TransportFlowControl × StreamFlowControl) :=
  if t.announcedWindow < incomingFrameSize then .error ⟨incomingFrameSize, t.announcedWindow⟩
  else
    let ackedStreamWindow := s.announcedWindowDelta + t.ackedInitWindow
    if ackedStreamWindow < incomingFrameSize then .error ⟨incomingFrameSize, ackedStreamWindow⟩
    else
      let (t, delta) :=
        t.updateAnnouncedWindowDelta s.announcedWindowDelta (-incomingFrameSize)
      .ok ({ t with announcedWindow := t.announcedWindow - incomingFrameSize },
        { s with
          announcedWindowDelta := delta
          minProgressSize := s.minProgressSize - min s.minProgressSize incomingFrameSize })

def updateAction (t : TransportFlowControl) (s : StreamFlowControl) (action : FlowControlAction) :
    FlowControlAction :=
  let desired := s.desiredAnnounceSize
  if 0 < desired then
    let hurryUpSize := max (t.targetInitialWindowSize / 2 : Int) 8192
    let urgent := hurryUpSize < desired ∨
      0 < s.minProgressSize ∧ (s.announcedWindowDelta < 0 ∨
        s.announcedWindowDelta = 0 ∧ t.targetInitialWindowSize = 0)
    { action with sendStreamUpdate := if urgent then .updateImmediately else .queueUpdate }
  else action

/-- `MakeAction` of a stream's update context: the transport's action, then the stream's. -/
def makeAction (t : TransportFlowControl) (s : StreamFlowControl) : FlowControlAction :=
  s.updateAction t (t.updateAction {})

def setMinProgressSize (s : StreamFlowControl) (size : Int) : StreamFlowControl :=
  { s with minProgressSize := size }

def setPendingSize (s : StreamFlowControl) (size : Int) : Option StreamFlowControl :=
  if 0 ≤ size then some { s with pendingSize := some size } else none

/-- `OutgoingUpdateContext::RecvUpdate`: a WINDOW_UPDATE frame for the stream. -/
def recvUpdate (s : StreamFlowControl) (size : Int) : StreamFlowControl :=
  { s with remoteWindowDelta := s.remoteWindowDelta + size }

/-- `OutgoingUpdateContext::SentData`, the part of the stream. -/
def sentData (s : StreamFlowControl) (size : Int) : StreamFlowControl :=
  { s with remoteWindowDelta := s.remoteWindowDelta - size }

end StreamFlowControl

/-! ## What each function does to the counters -/

namespace TransportFlowControl

variable (t : TransportFlowControl)

/-- The total follows the positive parts of the deltas. -/
def withTotal (t : TransportFlowControl) (old new : Int) : TransportFlowControl :=
  { t with announcedStreamTotalOverIncomingWindow :=
      t.announcedStreamTotalOverIncomingWindow - max 0 old + max 0 new }

theorem updateAnnouncedWindowDelta_eq (delta change : Int) :
    t.updateAnnouncedWindowDelta delta change =
      (t.withTotal delta (delta + change), delta + change) := by
  unfold updateAnnouncedWindowDelta withTotal
  split
  · next h =>
    subst h
    rw [Int.add_zero, Int.sub_add_cancel]
  · simp only
    congr 2
    split <;> split <;> omega

theorem maybeSendUpdate_eq {t t' : TransportFlowControl} {writingAnyway : Bool} {n : Int}
    (h : t.maybeSendUpdate writingAnyway = (n, t')) :
    0 ≤ n ∧ t' = { t with announcedWindow := t.announcedWindow + n } := by
  unfold maybeSendUpdate at h
  simp only at h
  split at h
  · cases h
    exact ⟨clamp_nonneg (by decide), rfl⟩
  · cases h
    exact ⟨Int.le_refl 0, by rw [Int.add_zero]⟩

theorem updateInitialWindow_fst (value : Nat) (action : FlowControlAction) :
    (t.updateInitialWindow value action).1 =
      { t with targetInitialWindowSize := min value 2147483647 } := by
  unfold updateInitialWindow
  simp only
  split
  · rfl
  · next h => rw [not_not.1 h]

theorem updateMaxFrameSize_fst (value : Nat) (action : FlowControlAction) :
    (t.updateMaxFrameSize value action).1 =
      { t with targetFrameSize := max 16384 (min value 16777215) } := by
  unfold updateMaxFrameSize
  simp only
  split
  · rfl
  · next h => rw [not_not.1 h]

theorem periodicUpdate_fst (target : Nat) :
    (t.periodicUpdate target).1 =
      { t with
        targetInitialWindowSize := min target 2147483647
        targetFrameSize := max 16384 (min target 16777215) } := by
  unfold periodicUpdate
  simp only [updateMaxFrameSize_fst, updateInitialWindow_fst]

theorem setAckedInitialWindow_fst (value : Nat) :
    (t.setAckedInitialWindow value).1 = { t with ackedInitWindow := value } := by
  unfold setAckedInitialWindow
  simp only
  split <;> rfl

end TransportFlowControl

namespace StreamFlowControl

variable {t t' : TransportFlowControl} {s s' : StreamFlowControl} {n : Int}

theorem desiredAnnounceSize_nonneg (s : StreamFlowControl) : 0 ≤ s.desiredAnnounceSize :=
  clamp_nonneg (by decide)

/-- `MaybeSendUpdate` adds what it announces, after which nothing more is wanted. -/
theorem maybeSendUpdate_some (h : s.maybeSendUpdate t = some (n, t', s')) :
    0 ≤ n ∧ t' = t.withTotal s.announcedWindowDelta (s.announcedWindowDelta + n) ∧
      s' = { s with pendingSize := none, announcedWindowDelta := s.announcedWindowDelta + n } ∧
      s'.desiredAnnounceSize = 0 := by
  unfold maybeSendUpdate at h
  simp only [TransportFlowControl.updateAnnouncedWindowDelta_eq] at h
  split at h
  · next hzero =>
    cases h
    exact ⟨s.desiredAnnounceSize_nonneg, rfl, rfl, hzero⟩
  · cases h

theorem recvData_of_le (ht : n ≤ t.announcedWindow)
    (hs : n ≤ s.announcedWindowDelta + t.ackedInitWindow) :
    s.recvData t n = .ok
      ({ t.withTotal s.announcedWindowDelta (s.announcedWindowDelta - n) with
          announcedWindow := t.announcedWindow - n },
        { s with
          announcedWindowDelta := s.announcedWindowDelta - n
          minProgressSize := s.minProgressSize - min s.minProgressSize n }) := by
  unfold recvData
  rw [if_neg (Int.not_lt.2 ht)]
  simp only [TransportFlowControl.updateAnnouncedWindowDelta_eq]
  rw [if_neg (Int.not_lt.2 hs)]
  rfl

theorem recvData_error
    (h : t.announcedWindow < n ∨ s.announcedWindowDelta + t.ackedInitWindow < n) :
    ∃ e, s.recvData t n = .error e := by
  unfold recvData
  split
  · exact ⟨_, rfl⟩
  · next ht =>
    rw [if_pos (h.resolve_left ht)]
    exact ⟨_, rfl⟩

theorem recvData_ok (h : s.recvData t n = .ok (t', s')) :
    (n ≤ t.announcedWindow ∧ n ≤ s.announcedWindowDelta + t.ackedInitWindow) ∧
      t' = { t.withTotal s.announcedWindowDelta (s.announcedWindowDelta - n) with
        announcedWindow := t.announcedWindow - n } ∧
      s' = { s with
        announcedWindowDelta := s.announcedWindowDelta - n
        minProgressSize := s.minProgressSize - min s.minProgressSize n } := by
  by_cases hle : n ≤ t.announcedWindow ∧ n ≤ s.announcedWindowDelta + t.ackedInitWindow
  · rw [recvData_of_le hle.1 hle.2] at h
    cases h
    exact ⟨hle, rfl, rfl⟩
  · obtain ⟨e, he⟩ := recvData_error (t := t) (s := s) (n := n) (by omega)
    rw [he] at h
    cases h


end StreamFlowControl

end GrpcCore
