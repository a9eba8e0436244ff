import GrpcCore.Chttp2.MessageFraming
import GrpcCore.Chttp2.SettingsAgreement
import GrpcCore.Hpack.Varint

/-!
# Frames that a transport writes

Three functions put HEADERS, CONTINUATION and DATA frames on the wire. `HPackCompressor::Frame`
(`hpack_encoder.cc`) cuts a header block into a HEADERS frame and CONTINUATION frames,
`DataSendContext::FlushBytes` (`writing.cc`) with `grpc_chttp2_encode_data` (`frame_data.cc`) takes
from a stream's buffer what the windows and the frame size allow, and `close_from_api`
(`chttp2_transport.cc`) writes the header block of a status by hand. A frame must not be larger than
the peer's setting MAX_FRAME_SIZE, which the settings parser keeps between 16384 and 16777215
(`SettingsState.receiveFrame_inRange`), so that its size also fits into the 24 bits of the header.

`close_from_api` does not look at the setting: `WriteOp.frames_respect_iff` says that all frames
respect it but those of `close_from_api` with too long a message. Statistics are left out, and so is
the RST_STREAM frame that follows the status.
-/

namespace GrpcCore

open List

/-- A frame as it is appended to `outbuf` or `qbuf`. -/
structure WireFrame where
  header : Bytes
  payload : Bytes
  deriving DecidableEq

/-- The payload is within the limit, and the length field of the header is its length. -/
def WireFrame.Respects (f : WireFrame) (maxFrameSize : Nat) : Prop :=
  f.payload.length ≤ maxFrameSize ∧
    ∃ h, FrameHeader.ofBytes (f.header ++ f.payload) = some (h, f.payload) ∧
      h.size = f.payload.length

def HPackCompressor.fillHeader (type : UInt8) (id len : Nat) (flags : UInt8) : Bytes :=
  [Word.byteAt len 16, Word.byteAt len 8, Word.byteAt len 0, type, flags,
    Word.byteAt id 24, Word.byteAt id 16, Word.byteAt id 8, Word.byteAt id 0]

theorem HPackCompressor.ofBytes_fillHeader (type : UInt8) (id len : Nat) (flags : UInt8)
    (payload : Bytes) (hlen : len < 2 ^ 24) :
    ∃ h, FrameHeader.ofBytes (fillHeader type id len flags ++ payload) = some (h, payload) ∧
      h.size = len := by
  refine ⟨_, rfl, ?_⟩
  exact Word.be24_byteAt hlen

theorem WireFrame.respects_of_length {type flags : UInt8} {id len : Nat} {payload : Bytes}
    {maxFrameSize : MaxFrameSize} (hlen : payload.length = len) (h : len ≤ maxFrameSize.1) :
    WireFrame.Respects ⟨HPackCompressor.fillHeader type id len flags, payload⟩ maxFrameSize.1 := by
  have hlt : len < 2 ^ 24 := Nat.lt_of_le_of_lt (Nat.le_trans h maxFrameSize.2.2) (by decide)
  subst hlen
  exact ⟨h, HPackCompressor.ofBytes_fillHeader type id payload.length flags payload hlt⟩

/-! ## Header blocks -/

structure EncodeHeaderOptions where
  streamId : Nat
  isEndOfStream : Bool
  maxFrameSize : Nat

def GRPC_CHTTP2_DATA_FLAG_END_HEADERS : UInt8 := 4

namespace HPackCompressor

/-- The loop of `Frame`, for at most `fuel` rounds. -/
def frameLoop (options : EncodeHeaderOptions) :
    Nat → UInt8 → UInt8 → Bytes → Option (List WireFrame)
  | 0, _, _, _ => none
  | fuel + 1, frameType, flags, raw =>
    if frameType = frameHeader ∨ 0 < raw.length then do
      let fits := raw.length ≤ options.maxFrameSize
      let len := if fits then raw.length else options.maxFrameSize
      let flags := if fits then flags ||| GRPC_CHTTP2_DATA_FLAG_END_HEADERS else flags
      let frames ← frameLoop options fuel frameContinuation 0 (raw.drop len)
      some (⟨fillHeader frameType options.streamId len flags, raw.take len⟩ :: frames)
    else some []

/-- `Frame`: `raw` is the header block. -/
def frame (options : EncodeHeaderOptions) (raw : Bytes) : Option (List WireFrame) :=
  let flags := if options.isEndOfStream then GRPC_CHTTP2_DATA_FLAG_END_STREAM else 0
  frameLoop options (raw.length + 2) frameHeader flags raw

theorem frameLoop_respects {streamId : Nat} {isEndOfStream : Bool} (maxFrameSize : MaxFrameSize)
    (fuel : Nat) (frameType flags : UInt8) (raw : Bytes)
    (hfuel : raw.length + (if frameType = frameHeader then 1 else 0) < fuel) :
    ∃ frames, frameLoop ⟨streamId, isEndOfStream, maxFrameSize.1⟩ fuel frameType flags raw =
        some frames ∧
      (frames.map (·.payload)).flatten = raw ∧ ∀ f ∈ frames, f.Respects maxFrameSize.1 := by
  induction fuel generalizing frameType flags raw with
  | zero => omega
  | succ fuel ih =>
    have hmax := maxFrameSize.2.1
    rw [frameLoop]
    by_cases hgo : frameType = frameHeader ∨ 0 < raw.length
    · rw [if_pos hgo]
      -- what is left is shorter, or the first frame was empty
      obtain ⟨len, hlen⟩ : ∃ len, len =
          if raw.length ≤ maxFrameSize.1 then raw.length else maxFrameSize.1 := ⟨_, rfl⟩
      have hle : len ≤ raw.length ∧ len ≤ maxFrameSize.1 ∧ (0 < raw.length → 0 < len) := by
        rw [hlen]
        split <;> omega
      have hleft : (raw.drop len).length + (if frameContinuation = frameHeader then 1 else 0) <
          fuel := by
        rw [if_neg (by decide), length_drop]
        rcases hgo with rfl | hpos
        · rw [if_pos rfl] at hfuel
          omega
        · omega
      obtain ⟨frames, hframes, hflat, hrespect⟩ := ih frameContinuation 0 _ hleft
      dsimp only
      rw [← hlen, hframes]
      refine ⟨_, rfl, ?_, ?_⟩
      · rw [map_cons, flatten_cons, hflat, take_append_drop]
      · intro f hf
        rcases mem_cons.1 hf with rfl | hf
        · exact WireFrame.respects_of_length (length_take_of_le hle.1) hle.2.1
        · exact hrespect f hf
    · rw [if_neg hgo]
      rw [not_or, Nat.not_lt, Nat.le_zero, length_eq_zero_iff] at hgo
      exact ⟨[], rfl, hgo.2.symm, nofun⟩

theorem frame_respects (streamId : Nat) (isEndOfStream : Bool) (raw : Bytes)
    (maxFrameSize : MaxFrameSize) :
    ∃ frames, frame ⟨streamId, isEndOfStream, maxFrameSize.1⟩ raw = some frames ∧
      (frames.map (·.payload)).flatten = raw ∧ ∀ f ∈ frames, f.Respects maxFrameSize.1 :=
  frameLoop_respects maxFrameSize (raw.length + 2) frameHeader
    (if isEndOfStream then GRPC_CHTTP2_DATA_FLAG_END_STREAM else 0) raw (by rw [if_pos rfl]; omega)

end HPackCompressor

/-! ## DATA frames -/

/-- `static_cast<uint32_t>` of an `int64_t`. -/
def u32OfInt (n : Int) : Nat := (n % 2 ^ 32).toNat

/-- What `DataSendContext` reads: the stream's window and buffer, and the windows of the transport.
`trailersEmpty` is whether trailing metadata are to be sent and are empty. -/
structure DataSendContext where
  streamId : Nat
  remoteWindowDelta : Int
  flowControlledBuffer : Bytes
  trailersEmpty : Bool
  initialWindowSize : Nat
  remoteWindow : Int

namespace DataSendContext

def streamRemoteWindow (d : DataSendContext) : Nat :=
  u32OfInt (max 0 (d.remoteWindowDelta + d.initialWindowSize))

def maxOutgoing (d : DataSendContext) (maxFrameSize : Nat) : Nat :=
  min maxFrameSize (u32OfInt (min (d.streamRemoteWindow : Int) d.remoteWindow))

/-- `FlushBytes`: the frame that is appended to `outbuf`. -/
def flushBytes (d : DataSendContext) (maxFrameSize : Nat) : Option (List WireFrame) := do
  let sendBytes := u32 (min (d.maxOutgoing maxFrameSize) d.flowControlledBuffer.length)
  let isLastFrame := sendBytes == d.flowControlledBuffer.length && d.trailersEmpty
  let (_, outbuf) ← encodeData d.streamId d.flowControlledBuffer sendBytes isLastFrame []
  some [⟨outbuf.take 9, outbuf.drop 9⟩]

theorem flushBytes_respects (d : DataSendContext) (maxFrameSize : MaxFrameSize) :
    ∃ frames, d.flushBytes maxFrameSize.1 = some frames ∧
      ∀ f ∈ frames, f.Respects maxFrameSize.1 := by
  have hmax := maxFrameSize.2.2
  obtain ⟨sendBytes, hsend⟩ : ∃ n, n =
      u32 (min (d.maxOutgoing maxFrameSize.1) d.flowControlledBuffer.length) := ⟨_, rfl⟩
  have hle : sendBytes ≤ maxFrameSize.1 ∧ sendBytes ≤ d.flowControlledBuffer.length := by
    have hmod := Nat.mod_le (min (d.maxOutgoing maxFrameSize.1) d.flowControlledBuffer.length)
      (2 ^ 32)
    rw [← u32, ← hsend, maxOutgoing] at hmod
    omega
  unfold flushBytes
  dsimp only
  rw [← hsend]
  have hencode : ∀ isEof, encodeData d.streamId d.flowControlledBuffer sendBytes isEof [] =
      some (d.flowControlledBuffer.drop sendBytes,
        dataFrame d.streamId isEof (d.flowControlledBuffer.take sendBytes)) :=
    fun _ => if_pos (by omega)
  rw [hencode]
  refine ⟨_, rfl, fun f hf => ?_⟩
  rw [mem_singleton.1 hf]
  have htake := length_take_of_le hle.2
  exact WireFrame.respects_of_length rfl (by rw [htake]; exact hle.1)

end DataSendContext

/-! ## `close_from_api` -/

/-- What `close_from_api` reads: the stream, and the status and message of the error. -/
structure CloseFromApi where
  streamId : Nat
  sentInitialMetadata : Bool
  grpcStatus : Nat
  message : Bytes

namespace CloseFromApi

def httpStatusHdr : Bytes := [0x00, 7] ++ ascii ":status" ++ [3] ++ ascii "200"

def contentTypeHdr : Bytes := [0x00, 12] ++ ascii "content-type" ++ [16] ++ ascii "application/grpc"

def statusDigits (grpcStatus : Nat) : Bytes :=
  if grpcStatus < 10 then [1, UInt8.ofNat (48 + grpcStatus)]
  else [2, UInt8.ofNat (48 + grpcStatus / 10), UInt8.ofNat (48 + grpcStatus % 10)]

def statusHdr (grpcStatus : Nat) : Bytes :=
  [0x00, 11] ++ ascii "grpc-status" ++ statusDigits grpcStatus

def messagePfx (msgLen : Nat) : Bytes :=
  [0x00, 12] ++ ascii "grpc-message" ++ VarintWriter.write 1 msgLen 0

/-- The header block, in the slices that are added to `qbuf`. -/
def block (c : CloseFromApi) : Bytes :=
  (if c.sentInitialMetadata then [] else httpStatusHdr ++ contentTypeHdr) ++
    statusHdr c.grpcStatus ++ messagePfx c.message.length ++ c.message

def Asserts (c : CloseFromApi) : Prop := c.grpcStatus < 100 ∧ c.message.length ≤ 0xffffffff

instance (c : CloseFromApi) : Decidable c.Asserts := inferInstanceAs (Decidable (_ ∧ _))

/-- `close_from_api`: the frame that is appended to `qbuf`. The length of the slices is summed up in
32 bits. -/
def closeFromApi (c : CloseFromApi) : Option (List WireFrame) :=
  if c.Asserts then
    some [⟨HPackCompressor.fillHeader frameHeader c.streamId (u32 c.block.length)
      (GRPC_CHTTP2_DATA_FLAG_END_STREAM ||| GRPC_CHTTP2_DATA_FLAG_END_HEADERS), c.block⟩]
  else none

theorem closeFromApi_eq {c : CloseFromApi} (h : c.Asserts) :
    c.closeFromApi =
      some [⟨HPackCompressor.fillHeader frameHeader c.streamId (u32 c.block.length)
        (GRPC_CHTTP2_DATA_FLAG_END_STREAM ||| GRPC_CHTTP2_DATA_FLAG_END_HEADERS), c.block⟩] :=
  if_pos h

/-- The size of the header block, by the length of the message. -/
def blockLength (c : CloseFromApi) : Nat :=
  (if c.sentInitialMetadata then 0 else 44) + (if c.grpcStatus < 10 then 15 else 16) + 14 +
    VarintWriter.length 1 c.message.length + c.message.length

theorem length_block (c : CloseFromApi) : c.block.length = c.blockLength := by
  have hinitial : (if c.sentInitialMetadata then [] else httpStatusHdr ++ contentTypeHdr).length =
      if c.sentInitialMetadata then 0 else 44 := by
    split <;> rfl
  have hstatus : (statusHdr c.grpcStatus).length = if c.grpcStatus < 10 then 15 else 16 := by
    unfold statusHdr statusDigits
    split <;> rfl
  have hmessage : (messagePfx c.message.length).length =
      14 + VarintWriter.length 1 c.message.length := by
    rw [messagePfx, length_append, VarintWriter.length_write]
    rfl
  simp only [block, blockLength, length_append, hinitial, hstatus, hmessage]
  omega

end CloseFromApi

/-! ## All frames -/

/-- A call of one of the three functions. The header block that `EncodeHeaders` hands to `Frame` is
an argument. -/
inductive WriteOp where
  | encodeHeaders (streamId : Nat) (isEndOfStream : Bool) (raw : Bytes)
  | flushBytes (d : DataSendContext)
  | closeFromApi (c : CloseFromApi)

namespace WriteOp

/-- The frames that a call appends, with the peer's setting MAX_FRAME_SIZE. -/
def frames (maxFrameSize : Nat) : WriteOp → Option (List WireFrame)
  | .encodeHeaders streamId isEndOfStream raw =>
    HPackCompressor.frame ⟨streamId, isEndOfStream, maxFrameSize⟩ raw
  | .flushBytes d => d.flushBytes maxFrameSize
  | .closeFromApi c => c.closeFromApi

def Asserts : WriteOp → Prop
  | .encodeHeaders _ _ _ | .flushBytes _ => True
  | .closeFromApi c => c.Asserts

/-- The header block of a status fits into one frame. -/
def Fits (maxFrameSize : Nat) : WriteOp → Prop
  | .encodeHeaders _ _ _ | .flushBytes _ => True
  | .closeFromApi c => c.Asserts → c.blockLength ≤ maxFrameSize

theorem respects_of_some {op : WriteOp} {maxFrameSize : Nat} {frames : List WireFrame}
    (hframes : op.frames maxFrameSize = some frames) (hassert : op.Asserts)
    (hrespect : ∀ f ∈ frames, f.Respects maxFrameSize) (hfits : op.Fits maxFrameSize) :
    (op.frames maxFrameSize = none ↔ ¬ op.Asserts) ∧
      ((∀ f ∈ (op.frames maxFrameSize).getD [], f.Respects maxFrameSize) ↔
        op.Fits maxFrameSize) := by
  rw [hframes]
  exact ⟨⟨nofun, fun h => absurd hassert h⟩, fun _ => hfits, fun _ => hrespect⟩

/-- For every value that the peer's setting can have and every call: it ends with frames, unless an
assertion of `close_from_api` fails, and they all respect the setting if and only if the header
block of a status fits into one frame. -/
theorem frames_respect_iff (maxFrameSize : MaxFrameSize) (op : WriteOp) :
    (op.frames maxFrameSize.1 = none ↔ ¬ op.Asserts) ∧
      ((∀ f ∈ (op.frames maxFrameSize.1).getD [], f.Respects maxFrameSize.1) ↔
        op.Fits maxFrameSize.1) := by
  cases op with
  | encodeHeaders streamId isEndOfStream raw =>
    obtain ⟨frames, hframes, -, hrespect⟩ :=
      HPackCompressor.frame_respects streamId isEndOfStream raw maxFrameSize
    exact respects_of_some hframes trivial hrespect trivial
  | flushBytes d =>
    obtain ⟨frames, hframes, hrespect⟩ := d.flushBytes_respects maxFrameSize
    exact respects_of_some hframes trivial hrespect trivial
  | closeFromApi c =>
    show (c.closeFromApi = none ↔ ¬ c.Asserts) ∧
      ((∀ f ∈ c.closeFromApi.getD [], f.Respects maxFrameSize.1) ↔
        (c.Asserts → c.blockLength ≤ maxFrameSize.1))
    by_cases hassert : c.Asserts
    · rw [CloseFromApi.closeFromApi_eq hassert]
      refine ⟨by simp [hassert], fun h _ => ?_, fun hfits f hf => ?_⟩
      · have := (h _ (.head _)).1
        rwa [← c.length_block]
      · rw [mem_singleton.1 hf]
        have hle := hfits hassert
        rw [← c.length_block] at hle
        have hmax := maxFrameSize.2.2
        rw [u32_of_lt (by omega)]
        exact WireFrame.respects_of_length rfl hle
    · rw [CloseFromApi.closeFromApi, if_neg hassert]
      exact ⟨by simp [hassert], fun _ h => absurd h hassert, fun _ => nofun⟩

/-- A message of 16383 bytes: the header block is 75 bytes over the smallest value of the
setting. -/
def longMessage : CloseFromApi where
  streamId := 1
  sentInitialMetadata := false
  grpcStatus := 2
  message := List.replicate 16383 0x61

theorem closeFromApi_longMessage :
    ∃ f, (WriteOp.closeFromApi longMessage).frames 16384 = some [f] ∧
      f.payload.length = 16459 ∧ ¬ f.Respects 16384 := by
  have hlength : longMessage.block.length = 16459 := by
    rw [CloseFromApi.length_block]
    simp only [CloseFromApi.blockLength, longMessage, length_replicate]
    rfl
  have hassert : longMessage.Asserts := by
    simp only [CloseFromApi.Asserts, longMessage, length_replicate]
    decide
  refine ⟨_, CloseFromApi.closeFromApi_eq hassert, hlength, fun h => ?_⟩
  have := h.1
  rw [hlength] at this
  omega

end WriteOp

end GrpcCore
