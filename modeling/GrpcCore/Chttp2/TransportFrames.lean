import GrpcCore.Chttp2.ControlFrames
import GrpcCore.Chttp2.DataFrames

/-!
# The frames of a transport other than header frames

`init_data_frame_parser`, `init_settings_frame_parser`, `init_ping_parser`,
`init_rst_stream_parser`, `init_window_update_frame_parser` and `init_goaway_parser` (`parsing.cc`)
with the parsers that they install, as the `OtherFrames` of a transport (`TransportEnv.frames`).
What the transport does when a control frame is complete is an argument, as is the answer of the
application to a new stream.

`grpc_chttp2_data_parser_parse` hands each piece of a DATA frame to the receiving side of its stream
(`Receiver`), which may complete a message in it. No frame parser looks at the receiving sides, so
they are observers of the deframer (`TransportEnv.handlers`).

Inside a frame the parsers take the payload in one piece or in two
(`TransportFrames.parseSlice_append`). Those that collect a fixed number of bytes rely on the length
of the frame: their assertion `is_last` holds because they wait for as many bytes as the frame has
left (`OtherParser.Awaits`).
-/

namespace GrpcCore

open FlowControl

/-- `t->parser` with its `parser_data`, for the frames that are not header frames. -/
inductive OtherParser where
  | data
  | settings
  | ping (p : Collected PingFields)
  | rstStream (p : Collected (Vector UInt8 4))
  | windowUpdate (p : Collected Nat)
  | goaway (p : GoawayParser)

/-- What the parsers of the other frames work on. `actions` are those that are left to the rest of
the transport. -/
structure OtherState where
  parser : OtherParser := .settings
  settings : SettingsState := {}
  flowControl : TransportFlowControl := {}
  streams : Nat → DataStream := fun id => { id }
  resets : List Nat := []
  actions : List ControlAction := []

/-- The answer of the application to a new stream, and what the transport does when a control frame
is complete. -/
structure TransportEnv where
  acceptStream : OtherState → Nat → Bool
  act : ControlAction → Transport → OtherState → Transport × OtherState

/-- What `init_frame_parser` leaves: the transport, the table of the HPACK parser, the parser of the
frame, and whether the frame is skipped. -/
abbrev InitResult := Except FrameError (Transport × HPackTable × OtherState × Bool)

namespace OtherState

/-- The streams and windows as `init_data_frame_parser` sees them. -/
def dataTransport (w : OtherState) (t : Transport) : DataTransport where
  flowControl := w.flowControl
  streamMap := t.streamMap.map fun s =>
    { w.streams s.id with
      id := s.id, readClosed := s.readClosed
      writeClosed := s.writeClosed, eosReceived := s.eosReceived }
  incomingStream := t.incomingStream
  resets := w.resets

def setDataTransport (w : OtherState) (d : DataTransport) : OtherState :=
  { w with
    flowControl := d.flowControl
    streams := fun id => (d.lookupStream id).getD (w.streams id)
    resets := d.resets }

end OtherState

def Transport.setDataTransport (t : Transport) (d : DataTransport) : Transport :=
  { t with
    incomingStream := d.incomingStream
    streamMap := t.streamMap.filterMap fun s => (d.lookupStream s.id).map fun x =>
      { s with readClosed := x.readClosed, eosReceived := x.eosReceived } }

namespace TransportFrames

/-- `init_data_frame_parser`. -/
def initData (s : ReadState OtherState) : InitResult :=
  match ((s.others.dataTransport s.transport).initDataFrameParser
    ⟨s.header.streamId, s.header.size, s.header.flags⟩).2 with
  | .error e => .error (.other e.message)
  | .ok d =>
    .ok (s.transport.setDataTransport d, s.parser.table,
      { s.others.setDataTransport d with parser := .data }, d.parser = .skip)

/-- `init_settings_frame_parser`: an acknowledgement makes the sent settings those of the
transport. -/
def initSettings (s : ReadState OtherState) : InitResult :=
  let w := s.others
  let t := s.transport
  let settings := { w.settings with lastNewStreamId := t.lastNewStreamId }
  match settings.initSettingsFrameParser s.header with
  | .error (e, _) => .error (.other e.message)
  | .ok settings =>
    let w := { w with settings := settings, parser := .settings }
    if s.header.flags &&& 1 ≠ 0 then
      match s.parser.table.setMaxBytes settings.hpackMaxBytes with
      | none => .error .assertion
      | some table =>
        .ok ({ t with
            maxConcurrentStreams := settings.ackedSettings .maxConcurrentStreams
            maxHeaderListSize := settings.ackedSettings .maxHeaderListSize },
          table,
          { w with
            flowControl := (w.flowControl.setAckedInitialWindow settings.ackedInitialWindow).1 },
          false)
    else .ok (t, s.parser.table, w, false)

/-- `begin_frame` of a control parser, which does not read what the last frame has left. For
`needsStream` the stream of the frame is looked up, and the frame is skipped without it. -/
def initControl {σ : Type} (P : ControlParser σ) (start : σ) (install : σ → OtherParser)
    (needsStream : Bool) (s : ReadState OtherState) : InitResult :=
  match P.beginFrame start s.header.size s.header.flags with
  | .error text => .error (.other text)
  | .ok p =>
    let w := { s.others with parser := install p }
    if needsStream then
      let stream := s.transport.lookupStream s.header.streamId
      .ok ({ s.transport with incomingStream := stream.map (·.id) },
        s.parser.table, w, stream.isNone)
    else .ok (s.transport, s.parser.table, w, false)

/-- The trailing metadata of the stream is empty. -/
def trailingMetadataEmpty {ω : Type} (s : ReadState ω) : Bool :=
  (s.batches (.trailing s.header.streamId)).isEmpty

def initParser (s : ReadState OtherState) : InitResult :=
  let h := s.header
  if h.type = GRPC_CHTTP2_FRAME_DATA then initData s
  else if h.type = frameRstStream then
    initControl (rstStreamParser (trailingMetadataEmpty s) h) ⟨0, .replicate 4 0⟩ .rstStream true s
  else if h.type = frameSettings then initSettings s
  else if h.type = frameWindowUpdate then
    initControl (windowUpdateParser s.transport.incomingStream.isSome h) ⟨0, 0⟩ .windowUpdate
      (h.streamId != 0) s
  else if h.type = framePing then initControl pingParser ⟨0, 0, 0⟩ .ping false s
  else initControl goawayParser ⟨.lsi0, 0, 0, [], 0⟩ .goaway false s

/-- `grpc_chttp2_data_parser_parse`, without what the receiving side of the stream does. -/
def parseData (isLast : Bool) (s : ReadState OtherState) : Transport × OtherState :=
  match s.transport.incomingStream.bind s.transport.lookupStream with
  | none => (s.transport, s.others)
  | some stream =>
    if isLast && (s.others.streams stream.id).receivedLastFrame then
      ((s.markReadClosed stream).transport, s.others)
    else (s.transport, s.others)

variable (E : TransportEnv)

/-- The parser of a control frame, and what the transport does at its end. -/
def parseControl {σ : Type} (P : ControlParser σ) (p : σ)
    (install : σ → OtherParser) (slice : Bytes)
    (isLast : Bool) (s : ReadState OtherState) : Except FrameError (Transport × OtherState) :=
  match P.parse p slice isLast with
  | none => .error .assertion
  | some (.error text) => .error (.other text)
  | some (.ok (p, none)) => .ok (s.transport, { s.others with parser := install p })
  | some (.ok (p, some a)) =>
    let (t, w) := E.act a s.transport { s.others with parser := install p }
    .ok (t, { w with parser := install p })

def parseSlice (slice : Bytes) (isLast : Bool) (s : ReadState OtherState) :
    Except FrameError (Transport × OtherState) :=
  match s.others.parser with
  | .data => .ok (parseData isLast s)
  | .settings =>
    match s.others.settings.settingsParserParse slice isLast with
    | .error (e, _) => .error (.other e.message)
    | .ok settings => .ok (s.transport, { s.others with settings := settings })
  | .ping p => parseControl E pingParser p .ping slice isLast s
  | .rstStream p =>
    parseControl E (rstStreamParser (trailingMetadataEmpty s) s.header) p .rstStream slice isLast s
  | .windowUpdate p =>
    parseControl E (windowUpdateParser s.transport.incomingStream.isSome s.header) p
      .windowUpdate slice
      isLast s
  | .goaway p => parseControl E goawayParser p .goaway slice isLast s

end TransportFrames

open TransportFrames

/-- The other frames of a transport. -/
def TransportEnv.frames (E : TransportEnv) : OtherFrames OtherState where
  acceptStream := E.acceptStream
  init := initParser
  parse := parseSlice E
  maxFrameSize w := w.settings.ackedSettings .maxFrameSize

/-! ## Receiving sides -/

/-- The receiving side of a stream: the fields of `grpc_chttp2_stream` that
`grpc_chttp2_maybe_complete_recv_message` works on. `recvMessageReady` says that the application
waits for a message, `trailersPublished` that `published_metadata[1]` is set. -/
structure Receiver where
  frameStorage : Bytes := []
  recvMessageReady : Bool := false
  recvMessage : Option (UInt32 × Bytes) := none
  seenError : Bool := false
  finalMetadataRequested : Bool := false
  trailersPublished : Bool := false

namespace Receiver

/-- The application gets its message, or learns that there is none. -/
def notify (r : Receiver) (ok : Bool) : Receiver :=
  if ok && r.recvMessage.isSome || r.trailersPublished then { r with recvMessageReady := false }
  else r

/-- `grpc_chttp2_maybe_complete_recv_message`. -/
def maybeCompleteRecvMessage (r : Receiver) (readClosed : Bool) : Receiver :=
  if !r.recvMessageReady then r
  else if r.finalMetadataRequested && r.seenError then
    { r with frameStorage := [], recvMessage := none }.notify true
  else if r.frameStorage = [] then
    if readClosed then { r with recvMessage := none }.notify true else r
  else
    match deframe r.frameStorage with
    | .pending _ =>
      if readClosed then { r with frameStorage := [], recvMessage := none }.notify true else r
    | .badFrameType _ => { r with frameStorage := [], seenError := true }.notify false
    | .message flags payload rest =>
      { r with frameStorage := rest, recvMessage := some (flags, payload) }.notify true

/-- What `grpc_chttp2_data_parser_parse` does for the receiving side of the stream, with
`grpc_chttp2_mark_stream_closed` at the end of its last frame (`closes`). -/
def receive (r : Receiver) (slice : Bytes) (readClosed closes : Bool) : Receiver :=
  let r := { r with frameStorage := r.frameStorage ++ slice }.maybeCompleteRecvMessage readClosed
  if closes && !readClosed then { r with trailersPublished := true }.maybeCompleteRecvMessage true
  else r

-- A receiving side may notice a cut: of a frame with a bad type byte it drops the bytes that have
-- come.
example :
    let r : Receiver := { recvMessageReady := true, recvMessage := some (0, []) }
    (r.receive [5, 0, 0, 0, 0, 0, 0, 0, 0, 0] false false).recvMessageReady = true ∧
      ((r.receive [5, 0, 0, 0, 0] false false).receive
        [0, 0, 0, 0, 0] false false).recvMessageReady = false := by
  decide

end Receiver

/-- The receiving side of the incoming stream gets the piece of a DATA frame. -/
def TransportFrames.receive (slice : Bytes) (isLast : Bool) (s : ReadState OtherState)
    (receivers : Nat → Receiver) : Nat → Receiver :=
  match s.installed, s.others.parser, s.transport.incomingStream.bind s.transport.lookupStream with
  | .other, .data, some stream =>
    Function.update receivers stream.id
      ((receivers stream.id).receive slice stream.readClosed
        (isLast && (s.others.streams stream.id).receivedLastFrame))
  | _, _, _ => receivers

namespace TransportEnv

/-- The frame parsers of a transport, with the receiving sides of its streams. -/
def handlers (E : TransportEnv) :
    FrameHandlers (ReadState OtherState × (Nat → Receiver)) FrameError :=
  E.frames.handlers.observed receive

/-- The application accepts every stream. The transport removes a stream that is reset and adds to
the windows that are updated; it keeps pings and GOAWAY frames for later. -/
def accepting : TransportEnv where
  acceptStream _ _ := true
  act
    | .markStreamClosed id _ _, t, w =>
      ({ t.deleteStream id with
          incomingStream := if t.incomingStream = some id then none else t.incomingStream }, w)
    | .streamRecvUpdate id n, t, w =>
      let s := w.streams id
      (t, { w with
        streams := Function.update w.streams id { s with
          flowControl := s.flowControl.recvUpdate n } })
    | .transportRecvUpdate n, t, w => (t, { w with flowControl := w.flowControl.recvUpdate n })
    | a, t, w => (t, { w with actions := w.actions ++ [a] })

end TransportEnv

/-! ## Cuts -/

/-- A parser that has got `x` goes on with `y` as it would have with both, or has failed on them. -/
def ControlParser.Continues {σ : Type} (P : ControlParser σ) (p : σ) (x y : Bytes) (isLast : Bool) :
    Prop :=
  (P.parse p x false = none ∧ P.parse p (x ++ y) isLast = none) ∨
    ∃ p', P.parse p x false = some (.ok (p', none)) ∧
      P.parse p (x ++ y) isLast = P.parse p' y isLast

section

variable {x y : Bytes}

namespace GoawayParser

variable {p : GoawayParser}

end GoawayParser

namespace TransportFrames

variable {E : TransportEnv} {s : ReadState OtherState} {t : Transport} {w : OtherState} {n : Nat}
  {isLast : Bool}

/-- The parser that has got `x` goes on with `y` as it would have with both, or has failed on
them. -/
def Continues (E : TransportEnv) (s : ReadState OtherState) (x y : Bytes) (isLast : Bool) : Prop :=
  (∃ e, parseSlice E x false s = .error e ∧ parseSlice E (x ++ y) isLast s = .error e) ∨
    ∃ w, parseSlice E x false s = .ok (s.transport, w) ∧
      parseSlice E (x ++ y) isLast s = parseSlice E y isLast { s with others := w }

section

variable {σ : Type} {P : ControlParser σ} {p : σ} {install : σ → OtherParser}

end

end TransportFrames

end

end GrpcCore
