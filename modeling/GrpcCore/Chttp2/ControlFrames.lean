import GrpcCore.Chttp2.HeaderFraming

/-!
# The codecs of control frames

`grpc_chttp2_ping_create`, `grpc_chttp2_rst_stream_create`, `grpc_chttp2_window_update_create` and
`grpc_chttp2_goaway_append`, with the parsers of the frames that they write (`frame_ping.cc`,
`frame_rst_stream.cc`, `frame_window_update.cc`, `frame_goaway.cc`). A parser is called for each
slice of the payload, the last call with `is_last`; it does one thing for the transport, or nothing
(`ControlAction`). Three of the parsers collect a fixed number of bytes (`collecting`), and the
parser of GOAWAY runs through its states until it comes to the debug data.

`Recovers` says that a parser, in whatever slices it gets the payload, acts in the call that brings
the last byte and not before, and with the fields of the frame. The length of a GOAWAY frame has to
fit into the 24 bits of the header, which `grpc_chttp2_goaway_append` does not check.

A failing assertion and an access outside of a buffer are `none`. Statistics are left out.
-/

namespace GrpcCore

open Word

/-! ## Frames -/

def framePing : UInt8 := 6
def frameRstStream : UInt8 := 3
def frameWindowUpdate : UInt8 := 8
def frameGoaway : UInt8 := 7

def field32 (n : Nat) : Bytes :=
  [byteAt n 24, byteAt n 16, byteAt n 8, byteAt n 0]

/-- `grpc_chttp2_ping_create`. -/
def pingCreate (ack : UInt8) (opaque8Bytes : Nat) : WireFrame where
  header := [0, 0, 8, framePing, if ack ≠ 0 then 1 else 0, 0, 0, 0, 0]
  payload :=
    [byteAt opaque8Bytes 56, byteAt opaque8Bytes 48, byteAt opaque8Bytes 40,
      byteAt opaque8Bytes 32, byteAt opaque8Bytes 24, byteAt opaque8Bytes 16,
      byteAt opaque8Bytes 8, byteAt opaque8Bytes 0]

/-- `grpc_chttp2_rst_stream_create`. -/
def rstStreamCreate (id code : Nat) : WireFrame where
  header := [0, 0, 4, frameRstStream, 0] ++ field32 id
  payload := field32 code

/-- `grpc_chttp2_window_update_create`. -/
def windowUpdateCreate (id windowDelta : Nat) : Option WireFrame :=
  if windowDelta ≠ 0 then
    some ⟨[0, 0, 4, frameWindowUpdate, 0] ++ field32 id, field32 windowDelta⟩
  else none

/-- `grpc_chttp2_goaway_append`. -/
def goawayAppend (lastStreamId errorCode : Nat) (debugData : Bytes) : Option WireFrame :=
  if debugData.length < 2 ^ 32 - 1 - 4 - 4 then
    let frameLength := 4 + 4 + debugData.length
    some
      ⟨[byteAt frameLength 16, byteAt frameLength 8, byteAt frameLength 0,
        frameGoaway, 0, 0, 0, 0, 0],
        field32 lastStreamId ++ field32 errorCode ++ debugData⟩
  else none

/-! ## Parsers -/

/-- The error of a stream that the peer has reset. -/
structure RstStreamError where
  grpcMessage : String
  http2Error : Nat

/-- What a parser does for the transport at the end of a frame. -/
inductive ControlAction where
  | ackPing (opaque8Bytes : Nat)
  | receivePing (opaque8Bytes : Nat)
  | markStreamClosed (streamId reason : Nat) (error : Option RstStreamError)
  | streamRecvUpdate (streamId receivedUpdate : Nat)
  | transportRecvUpdate (receivedUpdate : Nat)
  | addIncomingGoaway (errorCode lastStreamId : Nat) (debugData : Bytes)

/-- A parser: `begin_frame` with the length and the flags of the frame, and `parse` with a slice and
`is_last`. -/
structure ControlParser (σ : Type) where
  beginFrame : σ → Nat → UInt8 → Except String σ
  parse : σ → Bytes → Bool → Option (Except String (σ × Option ControlAction))

/-- The state of a parser that collects bytes: `byte`, and what it stores of them. -/
structure Collected (α : Type) where
  byte : Nat
  data : α

/-- `while (p->byte != width && cur != end)`. -/
def Collected.collect {α : Type} (width : Nat) (store : Nat → UInt8 → α → α) :
    Collected α → Bytes → Collected α
  | p, [] => p
  | p, cur :: rest =>
    if p.byte = width then p else collect width store ⟨p.byte + 1, store p.byte cur p.data⟩ rest

/-- The parsers that collect `width` bytes and then do something. -/
def collecting {α : Type} (width : Nat) (store : Nat → UInt8 → α → α)
    (finish : α → Bool → Option (Except String (Option ControlAction)))
    (p : Collected α) (slice : Bytes) (isLast : Bool) :
    Option (Except String (Collected α × Option ControlAction)) :=
  let p := p.collect width store slice
  if p.byte = width then
    match finish p.data isLast with
    | none => none
    | some (.error text) => some (.error text)
    | some (.ok action) => some (.ok (p, action))
  else some (.ok (p, none))

/-- The fields of a `grpc_chttp2_ping_parser` besides `byte`. -/
structure PingFields where
  isAck : UInt8
  opaque8Bytes : Nat

def PingFields.store (byte : Nat) (cur : UInt8) (f : PingFields) : PingFields :=
  { f with opaque8Bytes := f.opaque8Bytes ||| cur.toNat <<< (56 - 8 * byte) }

/-- `if (p->byte == 8)`. -/
def PingFields.finish (f : PingFields) (isLast : Bool) :
    Option (Except String (Option ControlAction)) :=
  if isLast then
    some (.ok (some (if f.isAck ≠ 0 then .ackPing f.opaque8Bytes else .receivePing f.opaque8Bytes)))
  else none

/-- `grpc_chttp2_ping_parser_begin_frame` and `grpc_chttp2_ping_parser_parse`. -/
def pingParser : ControlParser (Collected PingFields) where
  beginFrame _ length flags :=
    if flags &&& 0xfe ≠ 0 ∨ length ≠ 8 then
      .error (s!"invalid ping: length={length}, flags=" ++ hexDigits 2 flags.toNat)
    else .ok ⟨0, flags, 0⟩
  parse := collecting 8 PingFields.store PingFields.finish

/-- The error for a RST_STREAM: none for NO_ERROR after the trailing metadata. -/
def rstStreamError (reason : Nat) (trailingMetadataEmpty : Bool) : Option RstStreamError :=
  if reason ≠ GRPC_HTTP2_NO_ERROR ∨ trailingMetadataEmpty then
    some ⟨s!"Received RST_STREAM with error code {reason}", reason⟩
  else none

/-- `if (p->byte == 4)`, with `reason_bytes`. -/
def rstStreamFinish (trailingMetadataEmpty : Bool) (streamId : Nat) (reasonBytes : Vector UInt8 4)
    (isLast : Bool) : Option (Except String (Option ControlAction)) :=
  if isLast then
    let reason := be32 reasonBytes[0] reasonBytes[1] reasonBytes[2] reasonBytes[3]
    let error := rstStreamError reason trailingMetadataEmpty
    some (.ok (some (.markStreamClosed streamId reason error)))
  else none

/-- `grpc_chttp2_rst_stream_parser_begin_frame`, which keeps `reason_bytes`, and
`grpc_chttp2_rst_stream_parser_parse` for a stream. -/
def rstStreamParser (trailingMetadataEmpty : Bool) (h : FrameHeader) :
    ControlParser (Collected (Vector UInt8 4)) where
  beginFrame p length flags :=
    if length ≠ 4 then
      .error (s!"invalid rst_stream: length={length}, flags=" ++ hexDigits 2 flags.toNat)
    else .ok { p with byte := 0 }
  parse := collecting 4 (fun byte cur reasonBytes => reasonBytes.setIfInBounds byte cur)
    (rstStreamFinish trailingMetadataEmpty h.streamId)

/-- `if (p->byte == 4)`, with `amount`; the top bit is reserved. The stream of the frame may be
gone. -/
def windowUpdateFinish (hasStream : Bool) (streamId amount : Nat) (isLast : Bool) :
    Option (Except String (Option ControlAction)) :=
  let receivedUpdate := amount &&& 0x7fffffff
  if receivedUpdate = 0 then some (.error s!"invalid window update bytes: {amount}")
  else if isLast then
    some (.ok (
      if streamId ≠ 0 then
        if hasStream then some (.streamRecvUpdate streamId receivedUpdate) else none
      else some (.transportRecvUpdate receivedUpdate)))
  else none

/-- `grpc_chttp2_window_update_parser_begin_frame` and `grpc_chttp2_window_update_parser_parse`. -/
def windowUpdateParser (hasStream : Bool) (h : FrameHeader) : ControlParser (Collected Nat) where
  beginFrame _ length flags :=
    if flags ≠ 0 ∨ length ≠ 4 then
      .error (s!"invalid window update: length={length}, flags=" ++ hexDigits 2 flags.toNat)
    else .ok ⟨0, 0⟩
  parse := collecting 4 (fun byte cur amount => amount ||| cur.toNat <<< (8 * (3 - byte)))
    (windowUpdateFinish hasStream h.streamId)

/-- `grpc_chttp2_goaway_parse_state`. -/
inductive GoawayState where
  | lsi0
  | lsi1
  | lsi2
  | lsi3
  | err0
  | err1
  | err2
  | err3
  | debug
  deriving DecidableEq

/-- A `grpc_chttp2_goaway_parser`: of the buffer `debug_data` of `debug_length` bytes, the first
`debug_pos` are written. -/
structure GoawayParser where
  state : GoawayState
  lastStreamId : Nat
  errorCode : Nat
  debugData : Bytes
  debugLength : Nat

namespace GoawayParser

/-- A case of the switch, for a byte of the two fields. -/
def readByte (p : GoawayParser) (cur : UInt8) : GoawayParser :=
  match p.state with
  | .lsi0 => { p with lastStreamId := cur.toNat <<< 24, state := .lsi1 }
  | .lsi1 => { p with lastStreamId := p.lastStreamId ||| cur.toNat <<< 16, state := .lsi2 }
  | .lsi2 => { p with lastStreamId := p.lastStreamId ||| cur.toNat <<< 8, state := .lsi3 }
  | .lsi3 => { p with lastStreamId := p.lastStreamId ||| cur.toNat, state := .err0 }
  | .err0 => { p with errorCode := cur.toNat <<< 24, state := .err1 }
  | .err1 => { p with errorCode := p.errorCode ||| cur.toNat <<< 16, state := .err2 }
  | .err2 => { p with errorCode := p.errorCode ||| cur.toNat <<< 8, state := .err3 }
  | .err3 => { p with errorCode := p.errorCode ||| cur.toNat, state := .debug }
  | .debug => p

/-- `if (is_last)`: the whole of the buffer is passed on and freed. -/
def endFrame (p : GoawayParser) (isLast : Bool) :
    Option (Except String (GoawayParser × Option ControlAction)) :=
  if isLast then
    if p.debugData.length = p.debugLength then
      some (.ok ({ p with debugData := [] },
        some (.addIncomingGoaway p.errorCode p.lastStreamId p.debugData)))
    else none
  else some (.ok (p, none))

/-- The case `GRPC_CHTTP2_GOAWAY_DEBUG`. -/
def readDebug (p : GoawayParser) (rest : Bytes) (isLast : Bool) :
    Option (Except String (GoawayParser × Option ControlAction)) :=
  if p.debugData.length + rest.length ≤ p.debugLength ∧
      rest.length < 2 ^ 32 - 1 - p.debugData.length then
    { p with debugData := p.debugData ++ rest }.endFrame isLast
  else none

/-- `grpc_chttp2_goaway_parser_parse`. -/
def parse (p : GoawayParser) : Bytes → Bool →
    Option (Except String (GoawayParser × Option ControlAction))
  | [], isLast => if p.state = .debug then p.readDebug [] isLast else some (.ok (p, none))
  | cur :: rest, isLast =>
    if p.state = .debug then p.readDebug (cur :: rest) isLast
    else (p.readByte cur).parse rest isLast

end GoawayParser

/-- `grpc_chttp2_goaway_parser_begin_frame` and `grpc_chttp2_goaway_parser_parse`. -/
def goawayParser : ControlParser GoawayParser where
  beginFrame p length _ :=
    if length < 8 then .error s!"goaway frame too short ({length} bytes)"
    else .ok { p with state := .lsi0, debugData := [], debugLength := length - 8 }
  parse := GoawayParser.parse

/-! ## Slices -/

open List

namespace ControlParser

variable {σ : Type} (P : ControlParser σ) {p : σ} {payload : Bytes} {a : ControlAction}

/-- Slices that are not the last one, and for which the parser does nothing yet. -/
def feed : σ → List Bytes → Option σ
  | p, [] => some p
  | p, slice :: slices =>
    match P.parse p slice false with
    | some (.ok (p, none)) => feed p slices
    | _ => none

/-- In whatever slices the payload arrives, the parser acts in the call that brings its last
byte. -/
def Delivers (p : σ) (payload : Bytes) (a : ControlAction) : Prop :=
  ∀ (slices : List Bytes) (last : Bytes), last ≠ [] → slices.flatten ++ last = payload →
    ∃ p₁ p₂, P.feed p slices = some p₁ ∧ P.parse p₁ last true = some (.ok (p₂, some a))

/-- What a parser does follows from its states after the prefixes of the payload. -/
theorem delivers_of_prefixes (after : Bytes → σ) (hstart : after [] = p)
    (hinside : ∀ x y z, payload = x ++ (y ++ z) → z ≠ [] →
      P.parse (after x) y false = some (.ok (after (x ++ y), none)))
    (hlast : ∀ x y, payload = x ++ y → y ≠ [] →
      ∃ p', P.parse (after x) y true = some (.ok (p', some a))) : P.Delivers p payload a := by
  suffices h : ∀ (slices : List Bytes) (done last : Bytes), last ≠ [] →
      done ++ (slices.flatten ++ last) = payload → ∃ p₁ p₂,
        P.feed (after done) slices = some p₁ ∧ P.parse p₁ last true = some (.ok (p₂, some a)) by
    intro slices last hne heq
    rw [← hstart]
    exact h slices [] last hne heq
  intro slices
  induction slices with
  | nil =>
    intro done last hne heq
    obtain ⟨p₂, hp₂⟩ := hlast done last heq.symm hne
    exact ⟨after done, p₂, rfl, hp₂⟩
  | cons slice slices ih =>
    intro done last hne heq
    rw [flatten_cons, append_assoc] at heq
    have hrest : slices.flatten ++ last ≠ [] := append_ne_nil_of_right_ne_nil _ hne
    rw [feed, hinside done slice _ heq.symm hrest]
    exact ih (done ++ slice) last hne (by rw [append_assoc, heq])

end ControlParser

/-- The frame is read with the stream of the parser's header, and the parser recovers its fields. -/
def Recovers {σ : Type} (parser : FrameHeader → ControlParser σ) (f : WireFrame) (type : UInt8)
    (streamId : Nat) (a : ControlAction) : Prop :=
  ∃ h, f.read = some (h, f.payload) ∧ h.type = type ∧ h.streamId = streamId ∧
    ∀ p, ∃ p₀, (parser h).beginFrame p h.size h.flags = .ok p₀ ∧ (parser h).Delivers p₀ f.payload a

/-! ## Collecting bytes -/

namespace Collected

variable {α : Type} {width : Nat} {store : Nat → UInt8 → α → α} {p : Collected α} {x y : Bytes}

theorem collect_full (h : p.byte = width) (x : Bytes) : p.collect width store x = p := by
  cases x with
  | nil => rfl
  | cons cur rest => rw [collect, if_pos h]

theorem collect_append (x y : Bytes) :
    p.collect width store (x ++ y) = (p.collect width store x).collect width store y := by
  induction x generalizing p with
  | nil => rfl
  | cons cur rest ih =>
    rw [cons_append, collect, collect]
    split
    · next hfull => rw [collect_full hfull]
    · exact ih

theorem byte_collect (h : p.byte + x.length ≤ width) :
    (p.collect width store x).byte = p.byte + x.length := by
  induction x generalizing p with
  | nil => rfl
  | cons cur rest ih =>
    rw [length_cons] at h
    rw [collect, if_neg (by omega), ih (by simp only; omega), length_cons]
    simp only
    omega

theorem data_collect_four (data : α) (b₀ b₁ b₂ b₃ : UInt8) :
    (Collected.collect 4 store ⟨0, data⟩ [b₀, b₁, b₂, b₃]).data =
      store 3 b₃ (store 2 b₂ (store 1 b₁ (store 0 b₀ data))) := rfl

theorem data_collect_eight (data : α) (b₀ b₁ b₂ b₃ b₄ b₅ b₆ b₇ : UInt8) :
    (Collected.collect 8 store ⟨0, data⟩ [b₀, b₁, b₂, b₃, b₄, b₅, b₆, b₇]).data =
      store 7 b₇ (store 6 b₆ (store 5 b₅ (store 4 b₄
        (store 3 b₃ (store 2 b₂ (store 1 b₁ (store 0 b₀ data))))))) := rfl

variable {finish : α → Bool → Option (Except String (Option ControlAction))} {payload : Bytes}
  {a : ControlAction} {P : ControlParser (Collected α)}

theorem delivers_collecting (hP : P.parse = collecting width store finish) (hbyte : p.byte = 0)
    (hlen : payload.length = width)
    (hfinish : finish (p.collect width store payload).data true = some (.ok (some a))) :
    P.Delivers p payload a := by
  refine P.delivers_of_prefixes (p.collect width store) rfl ?_ ?_
  · intro x y z heq hz
    have hlt : x.length + y.length < width := by
      rw [← hlen, heq, length_append, length_append]
      have := length_pos_of_ne_nil hz
      omega
    rw [hP, collecting, ← collect_append]
    rw [if_neg]
    rw [byte_collect (by rw [length_append]; omega), length_append]
    omega
  · intro x y heq _
    rw [hP, collecting, ← collect_append, ← heq]
    refine ⟨p.collect width store payload, ?_⟩
    rw [if_pos (by rw [byte_collect (by omega)]; omega), hfinish]

end Collected

/-! ## PING, RST_STREAM and WINDOW_UPDATE -/

theorem read_field32 {length type flags : UInt8} {payload : Bytes} (id : Nat)
    (hlen : payload.length = length.toNat) :
    WireFrame.read ⟨[0, 0, length, type, flags] ++ field32 id, payload⟩ =
      some (⟨length.toNat, type, flags, id % 2 ^ 31⟩, payload) := by
  have hsize : be24 0 0 length = length.toNat := by
    rw [be24_eq]
    simp
  change (if be24 0 0 length = payload.length then
      some (FrameHeader.mk (be24 0 0 length) type flags (be32 _ _ _ _), payload)
    else none) = _
  rw [hsize, if_pos hlen.symm, HPackCompressor.be32_streamId]

variable {id opaque8Bytes : Nat} {state : GoawayState}

theorem PingFields.collect_eq (ack isAck : UInt8) (h : opaque8Bytes < 2 ^ 64) :
    (Collected.collect 8 store ⟨0, isAck, 0⟩ (pingCreate ack opaque8Bytes).payload).data =
      ⟨isAck, opaque8Bytes⟩ := by
  rw [pingCreate, Collected.data_collect_eight]
  simp only [store, Nat.zero_or, Nat.mul_zero, Nat.mul_one, Nat.sub_zero,
    Nat.reduceMul, Nat.reduceSub, Nat.shiftLeft_zero]
  rw [← be64, be64_byteAt h]

theorem pingCreate_recovers (ack : UInt8) (h : opaque8Bytes < 2 ^ 64) :
    Recovers (fun _ => pingParser) (pingCreate ack opaque8Bytes) framePing 0
      (if ack ≠ 0 then .ackPing opaque8Bytes else .receivePing opaque8Bytes) := by
  have hparse : pingParser.parse = collecting 8 PingFields.store PingFields.finish := rfl
  refine ⟨_, read_field32 0 rfl, rfl, rfl, fun p => ?_⟩
  by_cases hack : ack ≠ 0
  · rw [if_pos hack, if_pos hack]
    refine ⟨⟨0, 1, 0⟩, rfl, Collected.delivers_collecting hparse rfl rfl ?_⟩
    rw [PingFields.collect_eq ack 1 h]
    rfl
  · rw [if_neg hack, if_neg hack]
    refine ⟨⟨0, 0, 0⟩, rfl, Collected.delivers_collecting hparse rfl rfl ?_⟩
    rw [PingFields.collect_eq ack 0 h]
    rfl

theorem rstStreamCreate_recovers {code : Nat} (hid : id < 2 ^ 31) (hcode : code < 2 ^ 32)
    (trailingMetadataEmpty : Bool) :
    Recovers (rstStreamParser trailingMetadataEmpty) (rstStreamCreate id code) frameRstStream id
      (.markStreamClosed id code (rstStreamError code trailingMetadataEmpty)) := by
  have hmod : id % 2 ^ 31 = id := Nat.mod_eq_of_lt hid
  refine ⟨_, read_field32 id rfl, rfl, hmod, fun p => ?_⟩
  rw [hmod]
  have hparse (h : FrameHeader) : (rstStreamParser trailingMetadataEmpty h).parse = collecting 4
      (fun byte cur reasonBytes => reasonBytes.setIfInBounds byte cur)
      (rstStreamFinish trailingMetadataEmpty h.streamId) := rfl
  refine ⟨{ p with byte := 0 }, rfl, Collected.delivers_collecting (hparse _) rfl rfl ?_⟩
  change rstStreamFinish trailingMetadataEmpty id (Collected.collect 4 _ ⟨0, p.data⟩
    [byteAt code 24, byteAt code 16, byteAt code 8, byteAt code 0]).data
    true = _
  rw [Collected.data_collect_four, rstStreamFinish]
  simp [be32_byteAt hcode]

theorem windowUpdateCreate_recovers {windowDelta : Nat} (hid : id < 2 ^ 31) (hpos : 0 < windowDelta)
    (hdelta : windowDelta < 2 ^ 31) {hasStream : Bool} (hstream : id ≠ 0 → hasStream = true) :
    ∃ f, windowUpdateCreate id windowDelta = some f ∧
      Recovers (windowUpdateParser hasStream) f frameWindowUpdate id
        (if id ≠ 0 then .streamRecvUpdate id windowDelta
          else .transportRecvUpdate windowDelta) := by
  have hmod : id % 2 ^ 31 = id := Nat.mod_eq_of_lt hid
  have hparse (h : FrameHeader) : (windowUpdateParser hasStream h).parse = collecting 4
      (fun byte cur amount => amount ||| cur.toNat <<< (8 * (3 - byte)))
      (windowUpdateFinish hasStream h.streamId) := rfl
  refine ⟨_, if_pos (Nat.ne_of_gt hpos), _, read_field32 id rfl, rfl, hmod, fun p => ?_⟩
  rw [hmod]
  refine ⟨⟨0, 0⟩, rfl, Collected.delivers_collecting (hparse _) rfl rfl ?_⟩
  have hamount : (Collected.collect 4
      (fun byte cur amount => amount ||| cur.toNat <<< (8 * (3 - byte))) ⟨0, 0⟩
      (field32 windowDelta)).data = windowDelta := by
    rw [field32, Collected.data_collect_four]
    simp only [Nat.zero_or, Nat.sub_zero, Nat.reduceSub, Nat.reduceMul, Nat.shiftLeft_zero]
    rw [← be32, be32_byteAt (by omega)]
  have hreserved : windowDelta &&& 0x7fffffff = windowDelta := by
    rw [show windowDelta &&& 0x7fffffff = windowDelta % 2 ^ 31 from
      Nat.and_two_pow_sub_one_eq_mod _ 31, Nat.mod_eq_of_lt hdelta]
  rw [hamount, windowUpdateFinish]
  simp only [hreserved, if_neg (Nat.ne_of_gt hpos), if_true]
  by_cases hzero : id ≠ 0
  · rw [if_pos hzero, if_pos hzero, hstream hzero]
    rfl
  · rw [if_neg hzero, if_neg hzero]

/-! ## GOAWAY -/

/-- The bytes of the two fields that are missing in a state. -/
def GoawayState.missing : GoawayState → Nat
  | .lsi0 => 8
  | .lsi1 => 7
  | .lsi2 => 6
  | .lsi3 => 5
  | .err0 => 4
  | .err1 => 3
  | .err2 => 2
  | .err3 => 1
  | .debug => 0

theorem GoawayState.ne_debug (h : 0 < state.missing) : state ≠ .debug := by
  rintro rfl
  cases h

theorem GoawayState.eq_debug (h : state.missing = 0) : state = .debug := by
  cases state with
  | debug => rfl
  | _ => cases h

namespace GoawayParser

variable {p : GoawayParser} {x y : Bytes} {isLast : Bool}

theorem missing_readByte (p : GoawayParser) (cur : UInt8) :
    (p.readByte cur).state.missing = p.state.missing - 1 := by
  obtain ⟨state, _, _, _, _⟩ := p
  cases state <;> rfl

theorem missing_foldl_readByte (x : Bytes) (p : GoawayParser) :
    (x.foldl readByte p).state.missing = p.state.missing - x.length := by
  induction x generalizing p with
  | nil => rfl
  | cons cur rest ih =>
    rw [foldl_cons, ih, missing_readByte, length_cons]
    omega

theorem debug_foldl_readByte (x : Bytes) (p : GoawayParser) :
    (x.foldl readByte p).debugData = p.debugData ∧
      (x.foldl readByte p).debugLength = p.debugLength := by
  induction x generalizing p with
  | nil => exact ⟨rfl, rfl⟩
  | cons cur rest ih =>
    have hbyte : (p.readByte cur).debugData = p.debugData ∧
        (p.readByte cur).debugLength = p.debugLength := by
      obtain ⟨state, _, _, _, _⟩ := p
      cases state <;> exact ⟨rfl, rfl⟩
    obtain ⟨hdata, hlength⟩ := ih (p.readByte cur)
    exact ⟨hdata.trans hbyte.1, hlength.trans hbyte.2⟩

theorem parse_of_lt (h : x.length < p.state.missing) :
    p.parse x isLast = some (.ok (x.foldl readByte p, none)) := by
  induction x generalizing p with
  | nil => rw [parse, if_neg (GoawayState.ne_debug h), foldl_nil]
  | cons cur rest ih =>
    rw [length_cons] at h
    rw [parse, if_neg (GoawayState.ne_debug (by omega)), ih (by rw [missing_readByte]; omega),
      foldl_cons]

theorem parse_append (h : x.length = p.state.missing) (y : Bytes) :
    p.parse (x ++ y) isLast = (x.foldl readByte p).readDebug y isLast := by
  induction x generalizing p with
  | nil =>
    have hdebug := GoawayState.eq_debug h.symm
    cases y with
    | nil => exact if_pos hdebug
    | cons _ _ => exact if_pos hdebug
  | cons cur rest ih =>
    rw [length_cons] at h
    rw [cons_append, parse, if_neg (GoawayState.ne_debug (by omega)),
      ih (by rw [missing_readByte]; omega), foldl_cons]

/-- The parser after the first bytes of a payload. -/
def after (p : GoawayParser) (x : Bytes) : GoawayParser :=
  { (x.take 8).foldl readByte p with debugData := x.drop 8 }

theorem missing_after (hp : p.state = .lsi0) (x : Bytes) :
    (p.after x).state.missing = 8 - x.length := by
  change ((x.take 8).foldl readByte p).state.missing = _
  rw [missing_foldl_readByte, hp, length_take]
  change 8 - _ = _
  omega

theorem after_of_le (hp : p.debugData = []) (hx : x.length ≤ 8) :
    p.after x = x.foldl readByte p := by
  rw [after, take_of_length_le hx, drop_of_length_le hx, ← hp,
    ← (debug_foldl_readByte x p).1]

theorem after_append (hp : p.debugData = []) (h : x.length + y.length ≤ 8) :
    y.foldl readByte (p.after x) = p.after (x ++ y) := by
  rw [after_of_le hp (by omega), after_of_le hp (by rw [length_append]; omega),
    foldl_append]

theorem readDebug_after (hx : 8 ≤ x.length) (hlen : x.length + y.length ≤ 8 + p.debugLength)
    (hfits : p.debugLength < 2 ^ 24) :
    (p.after x).readDebug y isLast = (p.after (x ++ y)).endFrame isLast := by
  have hlength : (p.after x).debugLength = p.debugLength := (debug_foldl_readByte _ p).2
  have hdata : (p.after x).debugData = x.drop 8 := rfl
  have hnext : { p.after x with debugData := (p.after x).debugData ++ y } = p.after (x ++ y) := by
    rw [after, after, take_append_of_le_length hx, drop_append_of_le_length hx]
  have hbounds : (p.after x).debugData.length + y.length ≤ (p.after x).debugLength ∧
      y.length < 2 ^ 32 - 1 - (p.after x).debugData.length := by
    rw [hdata, length_drop]
    omega
  rw [readDebug, if_pos hbounds, hnext]

theorem parse_after (hp : p.state = .lsi0) (hdata : p.debugData = [])
    (hxy : 8 ≤ x.length + y.length)
    (hlen : x.length + y.length ≤ 8 + p.debugLength) (hfits : p.debugLength < 2 ^ 24) :
    (p.after x).parse y isLast = (p.after (x ++ y)).endFrame isLast := by
  -- the rest of the two fields, which is empty if the slices before had all of it
  obtain ⟨fields, debug, rfl, hfields⟩ :
      ∃ fields debug, y = fields ++ debug ∧ fields.length = 8 - x.length :=
    ⟨y.take (8 - x.length), y.drop (8 - x.length), (take_append_drop _ y).symm,
      length_take_of_le (by omega)⟩
  rw [length_append] at hlen
  have hread : fields.foldl readByte (p.after x) = p.after (x ++ fields) := by
    by_cases hx : x.length ≤ 8
    · exact after_append hdata (by omega)
    · rw [length_eq_zero_iff.1 (by omega : fields.length = 0), append_nil, foldl_nil]
  rw [parse_append (by rw [hfields, missing_after hp]), hread,
    readDebug_after (by rw [length_append]; omega) (by rw [length_append]; omega) hfits,
    append_assoc]

variable {errorCode lastStreamId : Nat}

theorem after_payload (hp : p.state = .lsi0)
    (hid : lastStreamId < 2 ^ 32) (hcode : errorCode < 2 ^ 32) (debugData : Bytes) :
    p.after (field32 lastStreamId ++ field32 errorCode ++ debugData) =
      { p with state := .debug, lastStreamId, errorCode, debugData } := by
  obtain ⟨state, _, _, _, _⟩ := p
  cases hp
  change GoawayParser.mk _ (be32 _ _ _ _) (be32 _ _ _ _) _ _ = _
  rw [be32_byteAt hid, be32_byteAt hcode]
  rfl

theorem delivers {debugData : Bytes} (hp : p.state = .lsi0)
    (hdata : p.debugData = []) (hlength : p.debugLength = debugData.length)
    (hid : lastStreamId < 2 ^ 32) (hcode : errorCode < 2 ^ 32) (hfits : debugData.length < 2 ^ 24) :
    goawayParser.Delivers p (field32 lastStreamId ++ field32 errorCode ++ debugData)
      (.addIncomingGoaway errorCode lastStreamId debugData) := by
  rw [← hlength] at hfits
  have hsize : (field32 lastStreamId ++ field32 errorCode ++ debugData).length =
      8 + p.debugLength := by
    rw [hlength, length_append]
    rfl
  refine goawayParser.delivers_of_prefixes p.after (after_of_le hdata (Nat.zero_le 8)) ?_ ?_
  · intro x y z heq hz
    rw [heq, length_append, length_append] at hsize
    by_cases hxy : x.length + y.length < 8
    · rw [← after_append hdata (by omega)]
      exact parse_of_lt (by rw [missing_after hp]; omega)
    · exact parse_after hp hdata (by omega) (by omega) hfits
  · intro x y heq _
    have hsize' := hsize
    rw [heq, length_append] at hsize'
    refine ⟨{ p with state := .debug, lastStreamId, errorCode, debugData := [] }, ?_⟩
    change (p.after x).parse y true = _
    rw [parse_after hp hdata (by omega) (by omega) hfits, ← heq,
      after_payload hp hid hcode, endFrame, if_pos rfl, if_pos hlength.symm]

end GoawayParser

theorem goawayAppend_recovers {lastStreamId errorCode : Nat} {debugData : Bytes}
    (hid : lastStreamId < 2 ^ 32) (hcode : errorCode < 2 ^ 32)
      (hlen : 8 + debugData.length < 2 ^ 24) :
    ∃ f, goawayAppend lastStreamId errorCode debugData = some f ∧
      Recovers (fun _ => goawayParser) f frameGoaway 0
        (.addIncomingGoaway errorCode lastStreamId debugData) := by
  have hsize : (field32 lastStreamId ++ field32 errorCode ++ debugData).length =
      4 + 4 + debugData.length := by
    rw [length_append]
    rfl
  have hread := HPackCompressor.read_fillHeader frameGoaway 0 0
    (field32 lastStreamId ++ field32 errorCode ++ debugData) (by omega)
  rw [hsize] at hread
  refine ⟨_, if_pos (by omega), _, hread, rfl, rfl, fun p => ?_⟩
  refine ⟨{ p with state := .lsi0, debugData := [], debugLength := debugData.length }, ?_,
    GoawayParser.delivers rfl rfl rfl hid hcode (by omega)⟩
  change (if 4 + 4 + debugData.length < 8 then _ else _) = _
  rw [if_neg (by omega), show 4 + 4 + debugData.length - 8 = debugData.length by omega]

/-! ## All control frames -/

/-- The parsers recover the fields of control frames. -/
theorem control_frames_recovered :
    (∀ (ack : UInt8) (opaque8Bytes : Nat), opaque8Bytes < 2 ^ 64 →
      Recovers (fun _ => pingParser) (pingCreate ack opaque8Bytes) framePing 0
        (if ack ≠ 0 then .ackPing opaque8Bytes else .receivePing opaque8Bytes)) ∧
    (∀ (id code : Nat) (trailingMetadataEmpty : Bool), id < 2 ^ 31 → code < 2 ^ 32 →
      Recovers (rstStreamParser trailingMetadataEmpty) (rstStreamCreate id code) frameRstStream id
        (.markStreamClosed id code (rstStreamError code trailingMetadataEmpty))) ∧
    (∀ (id windowDelta : Nat) (hasStream : Bool), id < 2 ^ 31 → 1 ≤ windowDelta →
      windowDelta ≤ 2 ^ 31 - 1 → (id ≠ 0 → hasStream = true) →
      ∃ f, windowUpdateCreate id windowDelta = some f ∧
        Recovers (windowUpdateParser hasStream) f frameWindowUpdate id
          (if id ≠ 0 then .streamRecvUpdate id windowDelta else .transportRecvUpdate windowDelta)) ∧
    (∀ (lastStreamId errorCode : Nat) (debugData : Bytes), lastStreamId < 2 ^ 32 →
      errorCode < 2 ^ 32 → 8 + debugData.length < 2 ^ 24 →
      ∃ f, goawayAppend lastStreamId errorCode debugData = some f ∧
        Recovers (fun _ => goawayParser) f frameGoaway 0
          (.addIncomingGoaway errorCode lastStreamId debugData)) :=
  ⟨fun ack _ h => pingCreate_recovers ack h,
    fun _ _ trailingMetadataEmpty hid hcode =>
      rstStreamCreate_recovers hid hcode trailingMetadataEmpty,
    fun _ _ _ hid hpos hdelta hstream => windowUpdateCreate_recovers hid hpos (by omega) hstream,
    fun _ _ _ hid hcode hlen => goawayAppend_recovers hid hcode hlen⟩

/-- One frame of each kind. -/
theorem control_frames_recovered_some :
    Recovers (fun _ => pingParser) (pingCreate 1 0x0102030405060708) framePing 0
      (.ackPing 0x0102030405060708) ∧
    Recovers (rstStreamParser false) (rstStreamCreate 5 8) frameRstStream 5
      (.markStreamClosed 5 8 (some ⟨"Received RST_STREAM with error code 8", 8⟩)) ∧
    (∃ f, windowUpdateCreate 3 65535 = some f ∧
      Recovers (windowUpdateParser true) f frameWindowUpdate 3 (.streamRecvUpdate 3 65535)) ∧
    ∃ f, goawayAppend 7 11 (ascii "too_many_pings") = some f ∧
      Recovers (fun _ => goawayParser) f frameGoaway 0
        (.addIncomingGoaway 11 7 (ascii "too_many_pings")) :=
  ⟨control_frames_recovered.1 1 0x0102030405060708 (by decide),
    control_frames_recovered.2.1 5 8 false (by decide) (by decide),
    control_frames_recovered.2.2.1 3 65535 true (by decide) (by decide) (by decide) fun _ => rfl,
    control_frames_recovered.2.2.2 7 11 (ascii "too_many_pings") (by decide)
      (by decide) (by decide)⟩

/-- The length of a GOAWAY frame with 16777208 bytes of debug data is cut to 0. -/
theorem goawayAppend_length_cut :
    ∃ f, goawayAppend 0 0 (List.replicate (2 ^ 24 - 8) 0) = some f ∧ f.payload.length = 2 ^ 24 ∧
      FrameHeader.ofBytes (f.header ++ f.payload) = some (⟨0, frameGoaway, 0, 0⟩, f.payload) ∧
      ∀ p, goawayParser.beginFrame p 0 0 = .error "goaway frame too short (0 bytes)" := by
  have hlen : (List.replicate (2 ^ 24 - 8) (0 : UInt8)).length = 2 ^ 24 - 8 := length_replicate
  refine ⟨_, if_pos (by rw [hlen]; decide), ?_, ?_, fun p => rfl⟩
  · rw [length_append, hlen]
    rfl
  · rw [hlen]
    rfl

end GrpcCore
