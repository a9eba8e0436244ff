import GrpcCore.Chttp2.Deframer

/-!
# The frame parsers of a transport

`init_frame_parser` and `grpc_chttp2_header_parser_parse` (`parsing.cc`) as the handlers of the
deframer (`OtherFrames.handlers`). HEADERS and CONTINUATION frames go to the HPACK parser of the
transport. The other frame types (DATA, RST_STREAM, SETTINGS, PING, GOAWAY, WINDOW_UPDATE) keep
their state in the rest `ω` of the transport; what they do is a parameter (`OtherFrames`), which
`GrpcCore.Chttp2.TransportFrames` supplies. What the completion of a header block means to the
application (`maybe_complete_funcs`, `published_metadata`) is left out.
-/

namespace GrpcCore

def frameHeader : UInt8 := 1
def frameSettings : UInt8 := 4
def frameContinuation : UInt8 := 9

/-- The types of the frames that `init_frame_parser` knows and that are not header frames. -/
def otherFrameTypes : List UInt8 := [0, 3, 4, 6, 7, 8]

/-- `t->parser`: `grpc_chttp2_header_parser_parse`, `skip_parser`, or the parser of another type of
frames. -/
inductive InstalledParser where
  | header
  | skip
  | other
  deriving DecidableEq

/-- The part of a transport that its frame parsers work on. `header` is the frame that the parser
was installed for, `target` is where `metadata_buffer_` of the HPACK parser points to. -/
structure ReadState (ω : Type) where
  transport : Transport
  parser : HPackParser := {}
  isFirstFrame : Bool := true
  installed : InstalledParser := .skip
  header : FrameHeader := ⟨0, 0, 0, 0⟩
  target : Option MetadataBuffer := none
  batches : MetadataBuffer → List Memento := fun _ => []
  others : ω

/-- The errors of the frame parsers. `assertion` is a failing `GPR_ASSERT`, which ends the
process. -/
inductive FrameError where
  | expectedSettings (type : UInt8)
  | expectedContinuation (type : UInt8)
  | continuationStream (expected got : Nat)
  | unexpectedContinuation
  | headerFrame (e : HeaderFrameError)
  | headers (e : ParseError)
  | tooManyTrailerFrames
  | other (text : String)
  | assertion

/-- The other frame types. `init` returns the table of the HPACK parser, whose maximum a SETTINGS
acknowledgement sets, and says whether the frame is skipped. -/
structure OtherFrames (ω : Type) where
  acceptStream : ω → Nat → Bool
  init : ReadState ω → Except FrameError (Transport × HPackTable × ω × Bool)
  parse : Bytes → Bool → ReadState ω → Except FrameError (Transport × ω)
  maxFrameSize : ω → Nat

def FrameError.message : FrameError → String
  | .expectedSettings type =>
    s!"Expected SETTINGS frame as the first frame, got frame type {type.toNat}"
  | .expectedContinuation type =>
    "Expected CONTINUATION frame, got frame type " ++ hexDigits 2 type.toNat
  | .continuationStream expected got =>
    "Expected CONTINUATION frame for grpc_chttp2_stream " ++ hexDigits 8 expected ++
      ", got grpc_chttp2_stream " ++ hexDigits 8 got
  | .unexpectedContinuation => "Unexpected CONTINUATION frame"
  | .headerFrame e => e.message
  | .headers e => e.message
  | .tooManyTrailerFrames => "Too many trailer frames"
  | .other text => text
  | .assertion => ""

namespace ReadState

variable {ω : Type}

/-- The end of `init_header_frame_parser`: `BeginFrame`. -/
def beginFrame (s : ReadState ω) (t : Transport) (b : BeginFrame) : ReadState ω :=
  { s with
    transport := t
    installed := .header
    target := b.metadataBuffer
    parser := s.parser.beginFrame (b.metadataBuffer.map s.batches) b.metadataSizeLimit b.boundary
      b.priority }

/-- `init_header_frame_parser` of the transport. -/
def initHeaderFrameParser (s : ReadState ω) (isContinuation accepts : Bool) :
    Except FrameError (ReadState ω) :=
  match s.transport.initHeaderFrameParser s.header isContinuation accepts with
  | .error e => .error (.headerFrame e)
  | .ok (t, b) => .ok (s.beginFrame t b)

/-- `grpc_chttp2_parsing_become_skip_parser`. -/
def becomeSkipParser (s : ReadState ω) : ReadState ω :=
  if s.installed = .header then { s with parser := s.parser.finishFrame }
  else { s with installed := .skip }

def removeStream (s : ReadState ω) (id : Nat) : ReadState ω :=
  let s' := { s with transport := s.transport.deleteStream id }
  if s.transport.incomingStream = some id then
    { s' with transport := { s'.transport with incomingStream := none } }.becomeSkipParser
  else s'

/-- `grpc_chttp2_mark_stream_closed` for the reading side: a stream that is closed on both sides is
removed. -/
def markReadClosed (s : ReadState ω) (stream : Stream) : ReadState ω :=
  if stream.readClosed && stream.writeClosed then s
  else
    let s := { s with transport := s.transport.updateStream { stream with readClosed := true } }
    if stream.writeClosed then s.removeStream stream.id else s

/-- The HPACK parser has worked on the batch that it points to. -/
def setParser (s : ReadState ω) (p : HPackParser) : ReadState ω :=
  { s with
    parser := p
    batches :=
      match s.target, p.metadataBuffer with
      | some b, some headers => Function.update s.batches b headers
      | _, _ => s.batches }

/-- What `grpc_chttp2_header_parser_parse` does for the stream at the end of a frame. -/
def endHeaderFrame (s : ReadState ω) (stream : Stream) : Except FrameError (ReadState ω) :=
  if s.parser.isBoundary && stream.headerFramesReceived == 2 then .error .tooManyTrailerFrames
  else
    let stream :=
      if s.parser.isBoundary then
        { stream with headerFramesReceived := stream.headerFramesReceived + 1 }
      else stream
    let s := { s with transport := s.transport.updateStream stream }
    .ok (if s.parser.isEof then s.markReadClosed stream else s)

/-- `grpc_chttp2_header_parser_parse`. -/
def headerParserParse (s : ReadState ω) (slice : Bytes) (isLast : Bool) :
    Except FrameError (ReadState ω) :=
  match s.parser.parse slice isLast with
  | (_, some e) => .error (.headers e)
  | (p, none) =>
    let s := s.setParser p
    if isLast then
      let ended : Except FrameError (ReadState ω) :=
        match s.transport.incomingStream.bind s.transport.lookupStream with
        | none => .ok s
        | some stream => s.endHeaderFrame stream
      ended.map fun s => { s with parser := s.parser.finishFrame }
    else .ok s

end ReadState

namespace OtherFrames

variable {ω : Type} (F : OtherFrames ω)

/-- The cases of `init_frame_parser` for frames that are not header frames. A type that is not known
is skipped. -/
def initOther (s : ReadState ω) : Except FrameError (ReadState ω) :=
  if s.header.type ∈ otherFrameTypes then
    match F.init s with
    | .error e => .error e
    | .ok (t, table, others, skip) =>
      .ok { s with
        transport := t
        parser := { s.parser with table := table }
        others := others
        installed := if skip then .skip else .other }
  else .ok { s with installed := .skip }

def initFrameParser (h : FrameHeader) (s : ReadState ω) : Except FrameError (ReadState ω) :=
  if s.isFirstFrame && h.type != frameSettings then .error (.expectedSettings h.type)
  else
    let s := { s with isFirstFrame := false, header := h }
    let expected := s.transport.expectContinuationStreamId
    if expected ≠ 0 then
      if h.type ≠ frameContinuation then .error (.expectedContinuation h.type)
      else if expected ≠ h.streamId then .error (.continuationStream expected h.streamId)
      else s.initHeaderFrameParser true (F.acceptStream s.others h.streamId)
    else if h.type = frameHeader then
      s.initHeaderFrameParser false (F.acceptStream s.others h.streamId)
    else if h.type = frameContinuation then .error .unexpectedContinuation
    else F.initOther s

/-- `t->parser`, and `remove_stream` of the incoming stream, which makes it `skip_parser`. -/
def parseFrameSlice (slice : Bytes) (isLast : Bool) (s : ReadState ω) :
    Except FrameError (ReadState ω) :=
  match s.installed with
  | .header => s.headerParserParse slice isLast
  | .skip => .ok s
  | .other =>
    match F.parse slice isLast s with
    | .error e => .error e
    | .ok (t, others) =>
      let removed := s.transport.incomingStream.isSome && t.incomingStream.isNone
      .ok { s with
        transport := t
        others := others
        installed := if removed then .skip else .other }

def handlers : FrameHandlers (ReadState ω) FrameError where
  initFrameParser := F.initFrameParser
  parseFrameSlice := F.parseFrameSlice
  maxFrameSize s := F.maxFrameSize s.others
  endFrame s := { s with transport := { s.transport with incomingStream := none } }

end OtherFrames

end GrpcCore
