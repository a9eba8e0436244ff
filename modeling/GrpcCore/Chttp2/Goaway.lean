import GrpcCore.Chttp2.Transport

/-!
# Graceful shutdown of a server transport

`send_goaway` and `GracefulGoaway` (`chttp2_transport.cc`), the end of a write
(`write_action_end_locked`), and the acceptance of new streams (`Transport.initHeaderFrameParser`),
as steps of a server transport that may come in any order. The transport is closed by a step of its
own, which may follow any other.

A GOAWAY frame promises the client that the server handles no stream above its id. The promise is
kept in `ServerState.KeepsPromise`. New streams are refused once the state is `finalGoawaySent`, but
not yet while it is `finalGoawaySendScheduled`, between `send_goaway` and the end of the write;
`ServerState.AcceptsAfterGoaway` is that step.
-/

namespace GrpcCore

structure GoawayFrame where
  lastStreamId : Nat
  errorCode : Nat
  debugData : Bytes
  deriving DecidableEq

def GRPC_HTTP2_NO_ERROR : Nat := 0

/-- A server transport. `gracefulCallbacks` counts the callbacks that `GracefulGoaway` still
waits for, the ping ack and the timer. `finalGoaways` are the final GOAWAY frames among those
appended to `qbuf`, and `accepted` the streams that were accepted. -/
structure ServerState where
  transport : Transport := { isClient := false, nextStreamId := 2 }
  reading : Bool := true
  closedWithError : Bool := false
  destroying : Bool := false
  gracefulCallbacks : Nat := 0
  qbuf : List GoawayFrame := []
  finalGoaways : List GoawayFrame := []
  accepted : List Nat := []

inductive ServerOp where
  /-- A HEADERS frame, and whether the application accepts a new stream. -/
  | headers (frame : FrameHeader) (accepts : Bool)
  | sendGoaway (httpError : Nat) (message : Bytes) (immediateDisconnectHint : Bool)
  /-- `OnPingAckLocked` or `OnTimerLocked`. -/
  | gracefulCallback
  | writeEnd
  | removeStream (id : Nat)
  | setMaxConcurrentStreams (n : Nat)
  | closeTransport
  | destroyTransport

namespace ServerState

def setGoawayState (s : ServerState) (state : SentGoawayState) : ServerState :=
  { s with transport := { s.transport with sentGoawayState := state } }

/-- A final GOAWAY frame is appended and its state scheduled. -/
def appendFinalGoaway (s : ServerState) (errorCode : Nat) (message : Bytes) : ServerState :=
  let goaway := ⟨s.transport.lastNewStreamId, errorCode, message⟩
  { s.setGoawayState .finalGoawaySendScheduled with
    qbuf := s.qbuf ++ [goaway], finalGoaways := s.finalGoaways ++ [goaway] }

/-- `GracefulGoaway::Start`. -/
def startGraceful (s : ServerState) : ServerState :=
  { s.setGoawayState .gracefulGoaway with
    qbuf := s.qbuf ++ [⟨2 ^ 31 - 1, 0, []⟩], gracefulCallbacks := 2 }

/-- `MaybeSendFinalGoawayLocked`. -/
def maybeSendFinalGoaway (s : ServerState) : ServerState :=
  if s.transport.sentGoawayState ≠ .gracefulGoaway then s
  else if s.destroying || s.closedWithError then s
  else s.appendFinalGoaway 0 []

/-- `send_goaway` of a server. -/
def sendGoaway (s : ServerState) (httpError : Nat) (message : Bytes)
    (immediateDisconnectHint : Bool) : ServerState :=
  if httpError = GRPC_HTTP2_NO_ERROR ∧ immediateDisconnectHint = false then
    if s.transport.sentGoawayState = .noGoawaySend then s.startGraceful else s
  else if s.transport.sentGoawayState = .noGoawaySend ∨
      s.transport.sentGoawayState = .gracefulGoaway then
    s.appendFinalGoaway httpError message
  else s

/-- The frame opens a stream: the transport lets it in and the application accepts. -/
def opens (s : ServerState) (frame : FrameHeader) (accepts : Bool) : Bool :=
  s.transport.LetsIn frame.streamId && accepts

/-- A HEADERS frame; an error of the parser ends the reading. -/
def headers (s : ServerState) (frame : FrameHeader) (accepts : Bool) : ServerState :=
  let accepted := if s.opens frame accepts then s.accepted ++ [frame.streamId] else s.accepted
  match s.transport.initHeaderFrameParser frame false accepts with
  | .ok (t, _) => { s with transport := t, accepted := accepted }
  | .error _ => { s with reading := false }

/-- The beginning of `write_action_end_locked`. -/
def writeEnd (s : ServerState) : ServerState :=
  if s.transport.sentGoawayState = .finalGoawaySendScheduled then
    s.setGoawayState .finalGoawaySent
  else s

/-- One step; `none` where the step is not enabled: a closed transport does not read, and there
are no more callbacks than `GracefulGoaway` waits for. -/
def step (s : ServerState) : ServerOp → Option ServerState
  | .headers frame accepts =>
    if s.reading && !s.closedWithError then some (s.headers frame accepts) else none
  | .sendGoaway httpError message hint => some (s.sendGoaway httpError message hint)
  | .gracefulCallback =>
    if 0 < s.gracefulCallbacks then
      some { s with gracefulCallbacks := s.gracefulCallbacks - 1 }.maybeSendFinalGoaway
    else none
  | .writeEnd => some s.writeEnd
  | .removeStream id =>
    let streamMap := s.transport.streamMap.filter (·.id ≠ id)
    some { s with transport := { s.transport with streamMap := streamMap } }
  | .setMaxConcurrentStreams n =>
    some { s with transport := { s.transport with maxConcurrentStreams := n } }
  | .closeTransport => some { s with closedWithError := true }
  | .destroyTransport => some { s with destroying := true }

/-- The streams that `grpc_chttp2_add_incoming_goaway` cancels as not seen by the server, out of
those that a client has. -/
def notSeenByServer (goaway : GoawayFrame) (streams : List Nat) : List Nat :=
  streams.filter (goaway.lastStreamId < ·)

/-- There is at most one final GOAWAY, exactly when the state says so, no stream above it has been
accepted, and no client cancels a stream as not seen that has been. -/
structure KeepsPromise (s : ServerState) : Prop where
  atMostOne : s.finalGoaways.length ≤ 1
  final_iff : s.finalGoaways ≠ [] ↔ s.transport.sentGoawayState = .finalGoawaySendScheduled ∨
    s.transport.sentGoawayState = .finalGoawaySent
  le_last : ∀ goaway ∈ s.finalGoaways, ∀ id ∈ s.accepted, id ≤ goaway.lastStreamId
  seen : ∀ goaway ∈ s.finalGoaways, ∀ streams, ∀ id ∈ notSeenByServer goaway streams,
    id ∉ s.accepted

/-- The step opens a stream between the scheduling of the final GOAWAY and the end of its
write. -/
def AcceptsAfterGoaway (s : ServerState) : ServerOp → Prop
  | .headers frame accepts => s.reading = true ∧ s.closedWithError = false ∧
    s.transport.sentGoawayState = .finalGoawaySendScheduled ∧ s.opens frame accepts = true
  | _ => False

/-! ## The promise -/

/-- The invariant behind the promise: accepted streams are at most `last_new_stream_id`, and once a
final GOAWAY has been appended they are at most what it carries. -/
structure Inv (s : ServerState) : Prop where
  accepted_le : ∀ id ∈ s.accepted, id ≤ s.transport.lastNewStreamId
  none_final : s.transport.sentGoawayState = .noGoawaySend ∨
    s.transport.sentGoawayState = .gracefulGoaway → s.finalGoaways = []
  one_final : s.transport.sentGoawayState = .finalGoawaySendScheduled ∨
    s.transport.sentGoawayState = .finalGoawaySent →
    ∃ goaway, s.finalGoaways = [goaway] ∧ goaway.lastStreamId ≤ s.transport.lastNewStreamId ∧
      ∀ id ∈ s.accepted, id ≤ goaway.lastStreamId

variable {s s' : ServerState} {op : ServerOp}

theorem Inv.init : Inv {} where
  accepted_le := nofun
  none_final _ := rfl
  one_final h := by simp at h

theorem Inv.keepsPromise (h : s.Inv) : s.KeepsPromise := by
  cases hstate : s.transport.sentGoawayState with
  | noGoawaySend | gracefulGoaway =>
    have hnil := h.none_final (by simp [hstate])
    constructor <;> simp [hnil, hstate]
  | finalGoawaySendScheduled | finalGoawaySent =>
    obtain ⟨goaway, hone, -, hle⟩ := h.one_final (by simp [hstate])
    refine ⟨by simp [hone], by simp [hone, hstate], by simpa [hone] using hle, ?_⟩
    intro g hg streams id hid hacc
    rw [hone, List.mem_singleton] at hg
    subst hg
    have hlt := (List.mem_filter.1 hid).2
    have := hle id hacc
    simp only [decide_eq_true_eq] at hlt
    omega

theorem Inv.of_eq (h : s.Inv) (hlast : s'.transport.lastNewStreamId = s.transport.lastNewStreamId)
    (hstate : s'.transport.sentGoawayState = s.transport.sentGoawayState)
    (hfinal : s'.finalGoaways = s.finalGoaways) (hacc : s'.accepted = s.accepted) : s'.Inv where
  accepted_le := by rw [hlast, hacc]; exact h.accepted_le
  none_final := by rw [hstate, hfinal]; exact h.none_final
  one_final := by rw [hstate, hfinal, hlast, hacc]; exact h.one_final

/-- The first final GOAWAY carries `last_new_stream_id`, so it covers what was accepted. -/
theorem Inv.appendFinalGoaway (h : s.Inv) (hstate : s.transport.sentGoawayState = .noGoawaySend ∨
    s.transport.sentGoawayState = .gracefulGoaway) (errorCode : Nat) (message : Bytes) :
    (s.appendFinalGoaway errorCode message).Inv where
  accepted_le := h.accepted_le
  none_final hs := by simp [ServerState.appendFinalGoaway, setGoawayState] at hs
  one_final _ := by
    refine ⟨⟨s.transport.lastNewStreamId, errorCode, message⟩, ?_, Nat.le_refl _, h.accepted_le⟩
    rw [ServerState.appendFinalGoaway, h.none_final hstate, List.nil_append]

theorem Inv.maybeSendFinalGoaway (h : s.Inv) : s.maybeSendFinalGoaway.Inv := by
  unfold ServerState.maybeSendFinalGoaway
  split
  · exact h
  next hstate =>
  split
  · exact h
  · exact h.appendFinalGoaway (.inr (not_not.1 hstate)) 0 []

theorem Inv.sendGoaway (h : s.Inv) (httpError : Nat) (message : Bytes) (hint : Bool) :
    (s.sendGoaway httpError message hint).Inv := by
  unfold ServerState.sendGoaway
  split
  · split
    · next hstate =>
      exact {
        accepted_le := h.accepted_le
        none_final := fun _ => h.none_final (.inl hstate)
        one_final := fun hs => by simp [startGraceful, setGoawayState] at hs }
    · exact h
  · split
    · next hstate => exact h.appendFinalGoaway hstate httpError message
    · exact h

theorem Inv.writeEnd (h : s.Inv) : s.writeEnd.Inv := by
  unfold ServerState.writeEnd
  split
  · next hstate =>
    exact {
      accepted_le := h.accepted_le
      none_final := fun hs => by simp [setGoawayState] at hs
      one_final := fun _ => h.one_final (.inl hstate) }
  · exact h

/-- Header frames keep the invariant, unless they open a stream while the final GOAWAY is
scheduled. -/
theorem Inv.headers (h : s.Inv) {frame : FrameHeader} {accepts : Bool}
    (hopen : s.transport.sentGoawayState = .finalGoawaySendScheduled →
      s.opens frame accepts = false) : (s.headers frame accepts).Inv := by
  unfold ServerState.headers
  cases hinit : s.transport.initHeaderFrameParser frame false accepts with
  | error e => exact h.of_eq rfl rfl rfl rfl
  | ok r =>
    obtain ⟨-, hstate, hlast⟩ := Transport.initHeaderFrameParser_sameShutdown hinit
    by_cases hlet : s.transport.LetsIn frame.streamId
    · have hlt := hlet.lt
      simp only [if_pos hlet] at hlast
      have hopens : s.opens frame accepts = accepts := by simp [opens, hlet]
      rw [hopens] at hopen ⊢
      refine ⟨?_, by rw [hstate]; exact h.none_final, ?_⟩
      · intro id hid
        rw [hlast]
        cases accepts with
        | false => exact Nat.le_trans (h.accepted_le id hid) (Nat.le_of_lt hlt)
        | true =>
          rcases List.mem_append.1 hid with hid | hid
          · exact Nat.le_trans (h.accepted_le id hid) (Nat.le_of_lt hlt)
          · exact Nat.le_of_eq (List.mem_singleton.1 hid)
      · intro hfinal
        rw [hstate] at hfinal
        rcases hfinal with hsched | hsent
        · obtain ⟨goaway, hone, hle, hacc⟩ := h.one_final (.inl hsched)
          rw [hopen hsched]
          exact ⟨goaway, hone, by rw [hlast]; omega, hacc⟩
        · exact absurd hsent hlet.not_sent
    · simp only [if_neg hlet] at hlast
      have hopens : s.opens frame accepts = false := by simp [opens, hlet]
      rw [hopens]
      exact h.of_eq hlast hstate rfl rfl

theorem Inv.step (h : s.Inv) (hop : ¬ s.AcceptsAfterGoaway op) (hstep : s.step op = some s') :
    s'.Inv := by
  cases op with
  | headers frame accepts =>
    simp only [ServerState.step] at hstep
    split at hstep
    · next hread =>
      cases hstep
      refine h.headers fun hstate => ?_
      simp only [Bool.and_eq_true, Bool.not_eq_true'] at hread
      simpa [AcceptsAfterGoaway, hread, hstate] using hop
    · cases hstep
  | sendGoaway httpError message hint =>
    cases hstep
    exact h.sendGoaway httpError message hint
  | gracefulCallback =>
    simp only [ServerState.step] at hstep
    split at hstep
    · cases hstep
      exact Inv.maybeSendFinalGoaway (h.of_eq rfl rfl rfl rfl)
    · cases hstep
  | writeEnd =>
    cases hstep
    exact h.writeEnd
  | removeStream id => cases hstep; exact h.of_eq rfl rfl rfl rfl
  | setMaxConcurrentStreams n => cases hstep; exact h.of_eq rfl rfl rfl rfl
  | closeTransport => cases hstep; exact h.of_eq rfl rfl rfl rfl
  | destroyTransport => cases hstep; exact h.of_eq rfl rfl rfl rfl

/-- A stream opened while the final GOAWAY is scheduled breaks the promise. -/
theorem Inv.step_bad (h : s.Inv) (hop : s.AcceptsAfterGoaway op) :
    ∃ s', s.step op = some s' ∧ ¬ s'.KeepsPromise := by
  cases op with
  | headers frame accepts =>
    obtain ⟨hread, hclosed, hstate, hopens⟩ := hop
    have hlet : s.transport.LetsIn frame.streamId := by
      simp only [opens, Bool.and_eq_true, decide_eq_true_eq] at hopens
      exact hopens.1
    obtain ⟨t, b, hinit⟩ := Transport.initHeaderFrameParser_ok accepts hlet
    refine ⟨s.headers frame accepts, by simp [ServerState.step, hread, hclosed], fun hkeep => ?_⟩
    obtain ⟨goaway, hone, hle, -⟩ := h.one_final (.inl hstate)
    have hlast := hkeep.le_last goaway (by simp [ServerState.headers, hinit, hone])
      frame.streamId (by simp [ServerState.headers, hinit, hopens])
    have hlt := hlet.lt
    omega
  | _ => exact hop.elim

/-- In a run of a server transport every state keeps the promise of the final GOAWAY, exactly when
no stream is opened between its scheduling and the end of its write. -/
theorem run_keepsPromise_iff (ops : List ServerOp) :
    (∀ pre s, pre <+: ops → Run.run ServerState.step {} pre = some s → s.KeepsPromise) ↔
      Run.Along ServerState.step (fun s op => ¬ s.AcceptsAfterGoaway op) {} ops := by
  constructor
  · intro h
    exact Run.along_of_property h (fun _ _ _ hs hop hstep => hs.step hop hstep)
      (fun _ _ hs hop => hs.step_bad (not_not.1 hop)) Inv.init
  · intro h pre s hp hrun
    have hinv : s.Inv := Run.run_invariant (h.mono hp) hrun
      (fun _ _ _ hs hop hstep => hs.step hop hstep) Inv.init
    exact hinv.keepsPromise

/-- A request on stream 1, a graceful shutdown whose ping is acknowledged, so that the final GOAWAY
for stream 1 is scheduled, and a request on stream 3 before it is written: the server accepts it,
and the client cancels it as not seen. -/
theorem run_accepts_after_goaway :
    ∃ s goaway, Run.run ServerState.step {}
        [.headers ⟨0, 1, 4, 1⟩ true, .sendGoaway GRPC_HTTP2_NO_ERROR [] false, .gracefulCallback,
          .headers ⟨0, 1, 4, 3⟩ true] = some s ∧
      s.finalGoaways = [goaway] ∧ 3 ∈ s.accepted ∧ 3 ∈ notSeenByServer goaway [1, 3] := by
  refine ⟨_, ⟨1, 0, []⟩, rfl, ?_⟩
  decide

end ServerState

end GrpcCore
