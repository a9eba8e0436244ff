import GrpcCore.Hpack.Parser

/-!
# Header frames of a transport

The part of `grpc_chttp2_transport` and `grpc_chttp2_stream` (`internal.h`) that decides what
becomes of a HEADERS or CONTINUATION frame, and `init_header_frame_parser` with
`init_header_skip_frame_parser` (`parsing.cc`), which make that decision. They return the arguments
of `HPackParser::BeginFrame`; the parser itself is in `GrpcCore.Hpack.Parser`. Statistics, tracing
and log information are left out. Whether the application's `accept_stream_cb` creates a stream is
an argument of the model.
-/

namespace GrpcCore

/-- The fields of a frame header, as `grpc_chttp2_perform_read` stores them. -/
structure FrameHeader where
  size : Nat
  type : UInt8
  flags : UInt8
  streamId : Nat

namespace FrameHeader

/-- `GRPC_CHTTP2_DATA_FLAG_END_STREAM`. -/
def endStream (h : FrameHeader) : Bool := h.flags &&& 1 != 0

/-- `GRPC_CHTTP2_DATA_FLAG_END_HEADERS`. -/
def endHeaders (h : FrameHeader) : Bool := h.flags &&& 4 != 0

/-- `GRPC_CHTTP2_FLAG_HAS_PRIORITY`. -/
def hasPriority (h : FrameHeader) : Bool := h.flags &&& 0x20 != 0

end FrameHeader

/-- `grpc_chttp2_sent_goaway_state`. -/
inductive SentGoawayState where
  | noGoawaySend
  | gracefulGoaway
  | finalGoawaySendScheduled
  | finalGoawaySent
  deriving DecidableEq

/-- `grpc_chttp2_stream`. -/
structure Stream where
  id : Nat
  readClosed : Bool := false
  writeClosed : Bool := false
  headerFramesReceived : Nat := 0
  eosReceived : Bool := false
  parsedTrailersOnly : Bool := false

/-- The buffer of a stream that parsed headers go to. -/
inductive MetadataBuffer where
  | initial (id : Nat)
  | trailing (id : Nat)
  deriving DecidableEq

/-- The arguments of `HPackParser::BeginFrame`. -/
structure BeginFrame where
  metadataBuffer : Option MetadataBuffer
  metadataSizeLimit : Nat
  boundary : Boundary
  priority : Priority

/-- `grpc_chttp2_transport`. The two settings are those that the peer has acknowledged. -/
structure Transport where
  isClient : Bool
  nextStreamId : Nat
  lastNewStreamId : Nat := 0
  expectContinuationStreamId : Nat := 0
  headerEof : Bool := false
  incomingStream : Option Nat := none
  streamMap : List Stream := []
  maxConcurrentStreams : Nat := 4294967295
  maxHeaderListSize : Nat := 16777216
  sentGoawayState : SentGoawayState := .noGoawaySend

inductive HeaderFrameError where
  | maxStreamCountExceeded
  | trailersWithoutEndOfStream

def HeaderFrameError.message : HeaderFrameError → String
  | .maxStreamCountExceeded => "Max stream count exceeded"
  | .trailersWithoutEndOfStream => "Trailing metadata frame received without an end-o-stream"

namespace Transport

/-- `grpc_chttp2_parsing_lookup_stream`. -/
def lookupStream (t : Transport) (id : Nat) : Option Stream := t.streamMap.find? (·.id = id)

def updateStream (t : Transport) (s : Stream) : Transport :=
  { t with streamMap := t.streamMap.map fun s' => if s'.id = s.id then s else s' }

/-- `grpc_chttp2_stream_map_delete`. -/
def deleteStream (t : Transport) (id : Nat) : Transport :=
  { t with streamMap := t.streamMap.filter (·.id ≠ id) }

def hpackBoundaryType (t : Transport) (isEoh : Bool) : Boundary :=
  if isEoh then if t.headerEof then .endOfStream else .endOfHeaders else .none

/-- `init_header_skip_frame_parser`. The end of the headers is read off
`expect_continuation_stream_id`, which the caller has set for this frame. -/
def initHeaderSkipFrameParser (t : Transport) (priority : Priority) : Transport × BeginFrame :=
  let isEoh := t.expectContinuationStreamId != 0
  (t, ⟨none, t.maxHeaderListSize, t.hpackBoundaryType isEoh, priority⟩)

/-- The checks of a server before it accepts a new stream: whether the frame is skipped. -/
inductive NewStream where
  | accept
  | skip
  | tooMany
  deriving DecidableEq

/-- What a transport does with headers for a stream it does not have. -/
def newStream (t : Transport) (id : Nat) : NewStream :=
  if t.isClient then .skip
  else if id ≤ t.lastNewStreamId then .skip
  else if id % 2 = 0 then .skip
  else if t.maxConcurrentStreams ≤ t.streamMap.length then .tooMany
  else if t.sentGoawayState = .finalGoawaySent then .skip
  else .accept

/-- The buffer for the headers of a stream, by the number of header blocks it has received; none
when it has received two, and an error for trailers that do not end the stream. -/
def incomingMetadataBuffer (t : Transport) (s : Stream) :
    Except HeaderFrameError (Stream × Option MetadataBuffer) :=
  match s.headerFramesReceived with
  | 0 =>
    if t.isClient && t.headerEof then
      .ok ({ s with parsedTrailersOnly := true }, some (.trailing s.id))
    else .ok (s, some (.initial s.id))
  | 1 => if t.headerEof then .ok (s, some (.trailing s.id)) else .error .trailersWithoutEndOfStream
  | _ => .ok (s, none)

/-- The part of `init_header_frame_parser` after the stream is known. -/
def initKnownStream (t : Transport) (s : Stream) (isEoh : Bool) (priority : Priority) :
    Except HeaderFrameError (Transport × BeginFrame) :=
  if s.readClosed then
    .ok ({ t with incomingStream := none }.initHeaderSkipFrameParser priority)
  else
    let s := if t.headerEof then { s with eosReceived := true } else s
    (t.incomingMetadataBuffer s).map fun (s, buffer) =>
      let t := t.updateStream s
      match buffer with
      | some buffer =>
        (t, ⟨some buffer, t.maxHeaderListSize, t.hpackBoundaryType isEoh, priority⟩)
      | none => t.initHeaderSkipFrameParser priority

/-- The fields that `init_header_frame_parser` sets from the flags of every frame. -/
def noteHeaderFrame (t : Transport) (frame : FrameHeader) (isContinuation : Bool) : Transport :=
  { t with
    expectContinuationStreamId := if frame.endHeaders then 0 else frame.streamId
    headerEof := if isContinuation then t.headerEof else frame.endStream }

/-- `grpc_chttp2_parsing_accept_stream` of a new stream, and what follows. -/
def acceptStream (t : Transport) (id : Nat) (accepts isEoh : Bool) (priority : Priority) :
    Except HeaderFrameError (Transport × BeginFrame) :=
  let t := { t with lastNewStreamId := id }
  if accepts then
    let s : Stream := { id := id }
    { t with streamMap := t.streamMap ++ [s], incomingStream := some id }.initKnownStream
      s isEoh priority
  else .ok ({ t with incomingStream := none }.initHeaderSkipFrameParser priority)

/-- `init_header_frame_parser`. `accepts` is whether `accept_stream_cb` is set and creates a
stream. -/
def initHeaderFrameParser (t : Transport) (frame : FrameHeader) (isContinuation accepts : Bool) :
    Except HeaderFrameError (Transport × BeginFrame) :=
  let t := t.noteHeaderFrame frame isContinuation
  let priority := if !isContinuation && frame.hasPriority then Priority.included else .none
  match t.lookupStream frame.streamId with
  | some s => { t with incomingStream := some s.id }.initKnownStream s frame.endHeaders priority
  | none =>
    if isContinuation then .ok (t.initHeaderSkipFrameParser priority)
    else
      match t.newStream frame.streamId with
      | .skip => .ok (t.initHeaderSkipFrameParser priority)
      | .tooMany => .error .maxStreamCountExceeded
      | .accept => t.acceptStream frame.streamId accepts frame.endHeaders priority

@[simp] theorem noteHeaderFrame_lookupStream (t : Transport) (frame : FrameHeader) (c : Bool)
    (id : Nat) : (t.noteHeaderFrame frame c).lookupStream id = t.lookupStream id := rfl

@[simp] theorem noteHeaderFrame_newStream (t : Transport) (frame : FrameHeader) (c : Bool)
    (id : Nat) : (t.noteHeaderFrame frame c).newStream id = t.newStream id := rfl

/-! ## What a header frame leaves alone -/

/-- The fields that only the acceptance of streams and `send_goaway` write. -/
def SameShutdown (t t' : Transport) : Prop :=
  t'.isClient = t.isClient ∧ t'.sentGoawayState = t.sentGoawayState ∧
    t'.lastNewStreamId = t.lastNewStreamId

variable {t t' : Transport} {accepts isEoh : Bool} {priority : Priority} {b : BeginFrame} {id : Nat}
  {frame : FrameHeader}

theorem initKnownStream_sameShutdown {s : Stream}
    (h : t.initKnownStream s isEoh priority = .ok (t', b)) : t.SameShutdown t' := by
  unfold initKnownStream at h
  split at h
  · cases h
    exact ⟨rfl, rfl, rfl⟩
  · simp only at h
    cases hbuf : t.incomingMetadataBuffer
        (if t.headerEof then { s with eosReceived := true } else s) with
    | error e => rw [hbuf] at h; cases h
    | ok r =>
      obtain ⟨s', buffer⟩ := r
      rw [hbuf] at h
      cases buffer <;> cases h <;> exact ⟨rfl, rfl, rfl⟩

theorem acceptStream_sameShutdown (h : t.acceptStream id accepts isEoh priority = .ok (t', b)) :
    { t with lastNewStreamId := id }.SameShutdown t' := by
  unfold acceptStream at h
  cases accepts with
  | true =>
    simp only [if_true] at h
    have hsame := initKnownStream_sameShutdown h
    exact hsame
  | false =>
    cases h
    exact ⟨rfl, rfl, rfl⟩

/-- The frame is the first of a stream that the transport lets in. -/
def LetsIn (t : Transport) (id : Nat) : Prop :=
  t.lookupStream id = none ∧ t.newStream id = .accept

instance (t : Transport) (id : Nat) : Decidable (t.LetsIn id) := inferInstanceAs (Decidable (_ ∧ _))

/-- A header frame leaves the shutdown alone, and moves `last_new_stream_id` to a stream that it
lets in. -/
theorem initHeaderFrameParser_sameShutdown
    (h : t.initHeaderFrameParser frame false accepts = .ok (t', b)) :
    { t with lastNewStreamId :=
        if t.LetsIn frame.streamId then frame.streamId
        else t.lastNewStreamId }.SameShutdown t' := by
  unfold initHeaderFrameParser at h
  simp only [noteHeaderFrame_lookupStream, noteHeaderFrame_newStream] at h
  cases hs : t.lookupStream frame.streamId with
  | some s =>
    rw [hs] at h
    rw [if_neg (by simp [LetsIn, hs])]
    have hsame := initKnownStream_sameShutdown h
    exact hsame
  | none =>
    rw [hs] at h
    simp only [Bool.false_eq_true, if_false] at h
    cases hnew : t.newStream frame.streamId with
    | skip =>
      rw [hnew] at h
      rw [if_neg (by simp [LetsIn, hnew])]
      cases h
      exact ⟨rfl, rfl, rfl⟩
    | tooMany => rw [hnew] at h; cases h
    | accept =>
      rw [hnew] at h
      rw [if_pos ⟨hs, hnew⟩]
      have hsame := acceptStream_sameShutdown h
      exact hsame

theorem acceptStream_ok (t : Transport) (id : Nat) (accepts isEoh : Bool) (priority : Priority) :
    ∃ t' b, t.acceptStream id accepts isEoh priority = .ok (t', b) := by
  unfold acceptStream
  cases accepts with
  | false => exact ⟨_, _, rfl⟩
  | true =>
    simp only [if_true, initKnownStream, Bool.false_eq_true, if_false]
    have hfresh : ∀ (t : Transport) (s : Stream), s.headerFramesReceived = 0 →
        ∃ r, t.incomingMetadataBuffer s = .ok r := by
      intro t s hs
      simp only [incomingMetadataBuffer, hs]
      split <;> exact ⟨_, rfl⟩
    obtain ⟨r, hr⟩ := hfresh { t with
        lastNewStreamId := id, streamMap := t.streamMap ++ [{ id := id }],
          incomingStream := some id }
      (if t.headerEof then { id := id, eosReceived := true } else { id := id })
      (by split <;> rfl)
    rw [hr]
    exact ⟨_, _, rfl⟩

theorem initHeaderFrameParser_ok (accepts : Bool) (h : t.LetsIn frame.streamId) :
    ∃ t' b, t.initHeaderFrameParser frame false accepts = .ok (t', b) := by
  unfold initHeaderFrameParser
  simp only [noteHeaderFrame_lookupStream, noteHeaderFrame_newStream, h.1, h.2,
    Bool.false_eq_true, if_false]
  exact acceptStream_ok ..

theorem LetsIn.lt (h : t.LetsIn id) : t.lastNewStreamId < id := by
  have hnew := h.2
  unfold newStream at hnew
  by_contra hle
  rw [if_pos (Nat.not_lt.1 hle)] at hnew
  split at hnew <;> cases hnew

theorem LetsIn.not_sent (h : t.LetsIn id) :
    t.sentGoawayState ≠ .finalGoawaySent := by
  intro hsent
  have hnew := h.2
  unfold newStream at hnew
  rw [if_pos hsent] at hnew
  repeat' split at hnew
  all_goals cases hnew

end Transport

end GrpcCore
