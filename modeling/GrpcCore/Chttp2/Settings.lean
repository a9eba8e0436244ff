import GrpcCore.Chttp2.FrameParsers
import GrpcCore.Chttp2.Goaway
import GrpcCore.Lib.Word

/-!
# SETTINGS frames

`http2_settings.cc`, `frame_settings.cc`, `queue_setting_update` (`chttp2_transport.cc`),
`WriteContext::FlushSettings` (`writing.cc`) and `init_settings_frame_parser` (`parsing.cc`). A
transport has four copies of the settings: those it wants (`GRPC_LOCAL_SETTINGS`), those it has told
the peer (`GRPC_SENT_SETTINGS`), those the peer has acknowledged (`GRPC_ACKED_SETTINGS`), and the
peer's own (`GRPC_PEER_SETTINGS`). A frame holds only what has changed since the last one. The
parser takes the payload byte by byte, in any pieces, and stores what it reads at the end of the
frame.

Tracing, logging, the notification of the first settings and the scheduling of writes are left out.
-/

namespace GrpcCore

open Word

/-- `grpc_chttp2_setting_id`. -/
inductive SettingId where
  | headerTableSize
  | enablePush
  | maxConcurrentStreams
  | initialWindowSize
  | maxFrameSize
  | maxHeaderListSize
  | grpcAllowTrueBinaryMetadata
  | grpcPreferredReceiveCryptoFrameSize
  deriving DecidableEq

/-- `grpc_chttp2_invalid_value_behavior`. -/
inductive InvalidValueBehavior where
  | clampInvalidValue
  | disconnectOnInvalidValue

/-- `grpc_chttp2_setting_parameters`. -/
structure SettingParameters where
  name : String
  defaultValue : Nat
  minValue : Nat
  maxValue : Nat
  invalidValueBehavior : InvalidValueBehavior
  errorValue : Nat

def GRPC_HTTP2_PROTOCOL_ERROR : Nat := 1

def GRPC_HTTP2_FLOW_CONTROL_ERROR : Nat := 3

namespace SettingId

/-- The settings in the order of their ids. -/
def all : List SettingId :=
  [headerTableSize, enablePush, maxConcurrentStreams, initialWindowSize, maxFrameSize,
    maxHeaderListSize, grpcAllowTrueBinaryMetadata, grpcPreferredReceiveCryptoFrameSize]

def index (id : SettingId) : Nat := all.idxOf id

/-- `grpc_setting_id_to_wire_id`. -/
def toWireId : SettingId → Nat
  | headerTableSize => 1
  | enablePush => 2
  | maxConcurrentStreams => 3
  | initialWindowSize => 4
  | maxFrameSize => 5
  | maxHeaderListSize => 6
  | grpcAllowTrueBinaryMetadata => 65027
  | grpcPreferredReceiveCryptoFrameSize => 65028

/-- `grpc_wire_id_to_setting_id`. -/
def ofWireId (wireId : Nat) : Option SettingId :=
  -- the subtraction is one of `uint32_t`
  let i := if wireId = 0 then 2 ^ 32 - 1 else wireId - 1
  let x := i % 256
  let y := i / 256
  let h := if y = 254 then x + 4 else x
  all[h]?.filter (·.toWireId = wireId)

/-- `grpc_chttp2_settings_parameters`. -/
def parameters : SettingId → SettingParameters
  | headerTableSize => ⟨"HEADER_TABLE_SIZE", 4096, 0, 4294967295, .clampInvalidValue,
      GRPC_HTTP2_PROTOCOL_ERROR⟩
  | enablePush => ⟨"ENABLE_PUSH", 1, 0, 1, .disconnectOnInvalidValue, GRPC_HTTP2_PROTOCOL_ERROR⟩
  | maxConcurrentStreams => ⟨"MAX_CONCURRENT_STREAMS", 4294967295, 0, 4294967295,
      .disconnectOnInvalidValue, GRPC_HTTP2_PROTOCOL_ERROR⟩
  | initialWindowSize => ⟨"INITIAL_WINDOW_SIZE", 65535, 0, 2147483647, .disconnectOnInvalidValue,
      GRPC_HTTP2_FLOW_CONTROL_ERROR⟩
  | maxFrameSize => ⟨"MAX_FRAME_SIZE", 16384, 16384, 16777215, .disconnectOnInvalidValue,
      GRPC_HTTP2_PROTOCOL_ERROR⟩
  | maxHeaderListSize => ⟨"MAX_HEADER_LIST_SIZE", 16777216, 0, 16777216, .clampInvalidValue,
      GRPC_HTTP2_PROTOCOL_ERROR⟩
  | grpcAllowTrueBinaryMetadata => ⟨"GRPC_ALLOW_TRUE_BINARY_METADATA", 0, 0, 1, .clampInvalidValue,
      GRPC_HTTP2_PROTOCOL_ERROR⟩
  | grpcPreferredReceiveCryptoFrameSize => ⟨"GRPC_PREFERRED_RECEIVE_CRYPTO_FRAME_SIZE", 0, 16384,
      2147483647, .clampInvalidValue, GRPC_HTTP2_PROTOCOL_ERROR⟩

/-- The value passes the check of the parser. -/
def InRange (id : SettingId) (value : Nat) : Prop :=
  id.parameters.minValue ≤ value ∧ value ≤ id.parameters.maxValue

instance (id : SettingId) (value : Nat) : Decidable (id.InRange value) :=
  inferInstanceAs (Decidable (_ ∧ _))

theorem mem_all (id : SettingId) : id ∈ all := by
  cases id <;> decide

theorem ofWireId_toWireId (id : SettingId) : ofWireId id.toWireId = some id := by
  cases id <;> rfl

theorem toWireId_lt (id : SettingId) : id.toWireId < 2 ^ 16 := by
  cases id <;> decide

variable {id : SettingId}

theorem InRange.lt {value : Nat} (h : id.InRange value) : value < 2 ^ 32 := by
  have hmax : id.parameters.maxValue < 2 ^ 32 := by cases id <;> decide
  exact Nat.lt_of_le_of_lt h.2 hmax

/-- All defaults are valid, but for the setting of which zero means that it is off. -/
theorem inRange_default (h : id ≠ grpcPreferredReceiveCryptoFrameSize) :
    id.InRange id.parameters.defaultValue := by
  cases id <;> first | decide | exact absurd rfl h

end SettingId

abbrev Settings := SettingId → Nat

/-- The settings of a new transport. -/
def Settings.default : Settings := fun id => id.parameters.defaultValue

def clamp (value minValue maxValue : Nat) : Nat :=
  if value < minValue then minValue else if maxValue < value then maxValue else value

theorem SettingId.inRange_clamp (id : SettingId) (value : Nat) :
    id.InRange (clamp value id.parameters.minValue id.parameters.maxValue) := by
  have : id.parameters.minValue ≤ id.parameters.maxValue := by cases id <;> decide
  unfold clamp InRange
  split
  · omega
  · split <;> omega

/-! ## Frames -/

def fillHeader (length : Nat) (flags : UInt8) : Bytes :=
  [byteAt length 16, byteAt length 8, byteAt length 0, frameSettings,
    flags, 0, 0, 0, 0]

/-- A frame carries the settings that have changed, and those of the mask. -/
def Settings.sends (oldSettings newSettings : Settings) (forceMask : Nat) (id : SettingId) : Bool :=
  newSettings id != oldSettings id || forceMask.testBit id.index

def settingEntry (id : SettingId) (value : Nat) : Bytes :=
  [byteAt id.toWireId 8, byteAt id.toWireId 0, byteAt value 24, byteAt value 16,
    byteAt value 8, byteAt value 0]

/-- `grpc_chttp2_settings_create`: the frame, and what becomes of `old_settings`. -/
def settingsCreate (oldSettings newSettings : Settings) (forceMask : Nat) : Bytes × Settings :=
  let ids := SettingId.all.filter (oldSettings.sends newSettings forceMask)
  (fillHeader (6 * ids.length) 0 ++ ids.flatMap fun id => settingEntry id (newSettings id),
    fun id => if oldSettings.sends newSettings forceMask id then newSettings id else oldSettings id)

/-- `grpc_chttp2_settings_ack_create`. -/
def settingsAckCreate : Bytes := fillHeader 0 1

/-- The header that the states `GRPC_DTS_FH_0` to `GRPC_DTS_FH_8` of the deframer read. -/
def FrameHeader.ofBytes : Bytes → Option (FrameHeader × Bytes)
  | l₀ :: l₁ :: l₂ :: type :: flags :: s₀ :: s₁ :: s₂ :: s₃ :: payload =>
    some (⟨be24 l₀ l₁ l₂, type, flags, be32 (s₀ &&& 0x7f) s₁ s₂ s₃⟩, payload)
  | _ => none

/-! ## The transport -/

/-- The state of a `grpc_chttp2_settings_parser`. -/
inductive SettingsParseState where
  | id0
  | id1
  | val0
  | val1
  | val2
  | val3
  deriving DecidableEq

def SettingsParseState.next : SettingsParseState → SettingsParseState
  | .id0 => .id1
  | .id1 => .val0
  | .val0 => .val1
  | .val1 => .val2
  | .val2 => .val3
  | .val3 => .id0

/-- `grpc_chttp2_settings_parser`; its `target_settings` are the peer's settings. -/
structure SettingsParser where
  state : SettingsParseState := .id0
  isAck : Bool := false
  id : Nat := 0
  value : Nat := 0
  incomingSettings : Settings := .default

/-- The frames that the settings parser adds to `qbuf`. -/
inductive QueuedFrame where
  | settingsAck
  | goaway (frame : GoawayFrame)
  deriving DecidableEq

/-- The part of a transport that is concerned with settings. `hpackMaxBytes` and
`ackedInitialWindow` are what the HPACK table and the flow control are told when settings are
acknowledged. `clamps` is for the statements only: how often the parser has changed a value. -/
structure SettingsState where
  localSettings : Settings := .default
  sentSettings : Settings := .default
  ackedSettings : Settings := .default
  peerSettings : Settings := .default
  dirtiedLocalSettings : Bool := true
  sentLocalSettings : Bool := false
  forceSendSettings : Nat := 1 <<< SettingId.initialWindowSize.index
  initialWindowUpdate : Int := 0
  parser : SettingsParser := {}
  lastNewStreamId : Nat := 0
  qbuf : List QueuedFrame := []
  numPendingInducedFrames : Nat := 0
  hpackMaxBytes : Nat := SettingId.headerTableSize.parameters.defaultValue
  ackedInitialWindow : Nat := SettingId.initialWindowSize.parameters.defaultValue
  clamps : Nat := 0

inductive SettingsError where
  | onStream
  | nonEmptyAck
  | invalidFlags
  | notMultipleOfSix
  | invalidValue (id : SettingId) (value : Nat)

def SettingsError.message : SettingsError → String
  | .onStream => "Settings frame received for grpc_chttp2_stream"
  | .nonEmptyAck => "non-empty settings ack frame received"
  | .invalidFlags => "invalid flags on settings frame"
  | .notMultipleOfSix => "settings frames must be a multiple of six bytes"
  | .invalidValue id value => s!"invalid value {value} passed for {id.parameters.name}"

/-- What a parser comes to: the transport, or an error with the transport as it leaves it. -/
abbrev SettingsResult := Except (SettingsError × SettingsState) SettingsState

namespace SettingsState

def queueSettingUpdate (t : SettingsState) (id : SettingId) (value : Nat) : SettingsState :=
  let useValue := clamp value id.parameters.minValue id.parameters.maxValue
  if useValue ≠ t.localSettings id then
    { t with
      localSettings := Function.update t.localSettings id useValue
      dirtiedLocalSettings := true }
  else t

/-- The frame that `WriteContext::FlushSettings` builds, and the `GRPC_SENT_SETTINGS` it leaves. -/
def settingsFrame (t : SettingsState) : Bytes × Settings :=
  settingsCreate t.sentSettings t.localSettings t.forceSendSettings

/-- `WriteContext::FlushSettings`, with the frame it adds to `outbuf`. -/
def flushSettings (t : SettingsState) : SettingsState × Option Bytes :=
  if t.dirtiedLocalSettings && !t.sentLocalSettings then
    ({ t with
        sentSettings := t.settingsFrame.2
        forceSendSettings := 0
        dirtiedLocalSettings := false
        sentLocalSettings := true },
      some t.settingsFrame.1)
  else (t, none)

/-- The parser at the beginning of a frame. -/
def resetParser (t : SettingsState) (isAck : Bool) : SettingsState :=
  { t with parser := { t.parser with incomingSettings := t.peerSettings, isAck, state := .id0 } }

/-- `grpc_chttp2_settings_parser_begin_frame`. -/
def parserBeginFrame (t : SettingsState) (length : Nat) (flags : UInt8) : SettingsResult :=
  if flags = 1 then
    if length ≠ 0 then .error (.nonEmptyAck, t.resetParser true) else .ok (t.resetParser true)
  else if flags ≠ 0 then .error (.invalidFlags, t.resetParser false)
  else if length % 6 ≠ 0 then .error (.notMultipleOfSix, t.resetParser false)
  else .ok (t.resetParser false)

/-- What `init_settings_frame_parser` does for an acknowledgement. -/
def settingsAcked (t : SettingsState) : SettingsState :=
  { t with
    ackedSettings := t.sentSettings
    hpackMaxBytes := t.sentSettings .headerTableSize
    ackedInitialWindow := t.sentSettings .initialWindowSize
    sentLocalSettings := false }

def initSettingsFrameParser (t : SettingsState) (h : FrameHeader) : SettingsResult :=
  if h.streamId ≠ 0 then .error (.onStream, t)
  else do
    let t ← t.parserBeginFrame h.size h.flags
    if h.flags &&& 1 ≠ 0 then .ok t.settingsAcked else .ok t

/-- A known setting with a valid value: `incoming_settings` and the window update. -/
def storeSetting (t : SettingsState) (id : SettingId) (value : Nat) : SettingsState :=
  { t with
    parser := { t.parser with
      value, incomingSettings := Function.update t.parser.incomingSettings id value }
    initialWindowUpdate :=
      if id = .initialWindowSize ∧ t.parser.incomingSettings id ≠ value then
        t.initialWindowUpdate + ((value : Int) - t.parser.incomingSettings id)
      else t.initialWindowUpdate }

/-- The end of the state `GRPC_CHTTP2_SPS_VAL3`: a setting has been read. -/
def applySetting (t : SettingsState) : SettingsResult :=
  match SettingId.ofWireId t.parser.id with
  | none => .ok t
  | some id =>
    let sp := id.parameters
    if id.InRange t.parser.value then
      .ok (t.storeSetting id t.parser.value)
    else
      match sp.invalidValueBehavior with
      | .clampInvalidValue =>
        .ok { t.storeSetting id (clamp t.parser.value sp.minValue sp.maxValue) with
          clamps := t.clamps + 1 }
      | .disconnectOnInvalidValue =>
        .error (.invalidValue id t.parser.value,
          { t with
            qbuf := t.qbuf ++
              [.goaway ⟨t.lastNewStreamId, sp.errorValue, ascii "HTTP2 settings error"⟩] })

def parseByte (t : SettingsState) (cur : UInt8) : SettingsResult :=
  let p := t.parser
  match p.state with
  | .id0 => .ok { t with parser := { p with id := cur.toNat <<< 8, state := .id1 } }
  | .id1 => .ok { t with parser := { p with id := p.id ||| cur.toNat, state := .val0 } }
  | .val0 => .ok { t with parser := { p with value := cur.toNat <<< 24, state := .val1 } }
  | .val1 =>
    .ok { t with parser := { p with value := p.value ||| cur.toNat <<< 16, state := .val2 } }
  | .val2 =>
    .ok { t with parser := { p with value := p.value ||| cur.toNat <<< 8, state := .val3 } }
  | .val3 =>
    { t with parser := { p with value := p.value ||| cur.toNat, state := .id0 } }.applySetting

/-- What the parser does in the state `GRPC_CHTTP2_SPS_ID0` at the end of a frame. -/
def applyFrame (t : SettingsState) : SettingsState :=
  { t with
    peerSettings := t.parser.incomingSettings
    numPendingInducedFrames := t.numPendingInducedFrames + 1
    qbuf := t.qbuf ++ [.settingsAck] }

/-- `grpc_chttp2_settings_parser_parse`. -/
def settingsParserParse (t : SettingsState) (slice : Bytes) (isLast : Bool) : SettingsResult :=
  if t.parser.isAck then .ok t
  else do
    let t ← slice.foldlM parseByte t
    if isLast && t.parser.state = .id0 then .ok t.applyFrame else .ok t

/-- The payload of a frame, in the pieces in which it arrives. -/
def parsePieces (t : SettingsState) : List Bytes → SettingsResult
  | [] => .ok t
  | [piece] => t.settingsParserParse piece true
  | piece :: pieces => do
    let t ← t.settingsParserParse piece false
    t.parsePieces pieces

def receiveFrame (t : SettingsState) (h : FrameHeader) (pieces : List Bytes) : SettingsResult := do
  let t ← t.initSettingsFrameParser h
  t.parsePieces pieces

end SettingsState

end GrpcCore
