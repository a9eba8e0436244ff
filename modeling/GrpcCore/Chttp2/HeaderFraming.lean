import GrpcCore.Chttp2.FrameWriters

/-!
# The frames of a header block

What the peer reads of the frames that `HPackCompressor::Frame` appends: a HEADERS frame and
CONTINUATION frames of one stream that carry the block, with END_HEADERS on the last of them and
END_STREAM on the first (`IsHeaderBlock`). One round of the loop writes one frame
(`frameLoop_round`), and the rounds together a block (`frameLoop_isBlock`).

The length field has 24 bits. The setting that bounds a frame is not larger than that, and the loop
relies on it: `frame_length_cut` is a frame that is too long for its length field.
-/

namespace GrpcCore

open List Word

/-- What the peer reads of a frame: its header, and the payload if the header has its length. -/
def WireFrame.read (f : WireFrame) : Option (FrameHeader × Bytes) :=
  match FrameHeader.ofBytes (f.header ++ f.payload) with
  | some (h, payload) => if h.size = payload.length then some (h, payload) else none
  | none => none

structure IsHeaderBlock (streamId : Nat) (isEndOfStream : Bool) (raw : Bytes)
    (frames : List (FrameHeader × Bytes)) : Prop where
  types : frames.map (·.1.type) =
    frameHeader :: List.replicate (frames.length - 1) frameContinuation
  streams : ∀ f ∈ frames, f.1.streamId = streamId
  payload : (frames.map (·.2)).flatten = raw
  endHeaders : frames.map (·.1.endHeaders) = List.replicate (frames.length - 1) false ++ [true]
  endStream : frames.map (·.1.endStream) = isEndOfStream :: List.replicate (frames.length - 1) false

namespace HPackCompressor

theorem be32_streamId (id : Nat) :
    be32 (byteAt id 24 &&& 0x7f) (byteAt id 16) (byteAt id 8)
      (byteAt id 0) = id % 2 ^ 31 := by
  have hhigh : (byteAt id 24 &&& 0x7f).toNat = id / 2 ^ 24 % 2 ^ 7 := by
    rw [UInt8.toNat_and, toNat_byteAt]
    change _ &&& (2 ^ 7 - 1) = _
    rw [Nat.and_two_pow_sub_one_eq_mod]
    omega
  rw [be32_eq, toNat_byteAt, toNat_byteAt, toNat_byteAt]
  omega

theorem read_fillHeader (type flags : UInt8) (id : Nat) (payload : Bytes)
    (hlen : payload.length < 2 ^ 24) :
    WireFrame.read ⟨fillHeader type id payload.length flags, payload⟩ =
      some (⟨payload.length, type, flags, id % 2 ^ 31⟩, payload) := by
  change (if be24 _ _ _ = payload.length then
      some (FrameHeader.mk _ _ _ (be32 _ _ _ _), _)
    else none) = _
  rw [be24_byteAt hlen, if_pos rfl, be32_streamId]
  rfl

section
variable {options : EncodeHeaderOptions} {fuel : Nat} {frameType flags : UInt8} {raw : Bytes}

theorem frameLoop_last (hgo : frameType = frameHeader ∨ 0 < raw.length)
    (hfits : raw.length ≤ options.maxFrameSize) :
    frameLoop options (fuel + 2) frameType flags raw =
      some [⟨fillHeader frameType options.streamId raw.length
        (flags ||| GRPC_CHTTP2_DATA_FLAG_END_HEADERS), raw⟩] := by
  have hdone : frameLoop options (fuel + 1) frameContinuation 0 [] = some [] := by
    rw [frameLoop, if_neg (by decide)]
  rw [frameLoop, if_pos hgo]
  simp only [if_pos hfits, drop_length, take_length, hdone]
  rfl

/-- A round that leaves bytes for the next one. -/
theorem frameLoop_round (hmore : options.maxFrameSize < raw.length)
    (hmax : options.maxFrameSize ≤ 16777215) {frames : List WireFrame}
    {parsed : List (FrameHeader × Bytes)}
    (hframes : frameLoop options fuel frameContinuation 0 (raw.drop options.maxFrameSize) =
      some frames) (hread : frames.map WireFrame.read = parsed.map some) :
    ∃ frames', frameLoop options (fuel + 1) frameType flags raw = some frames' ∧
      frames'.map WireFrame.read = ((⟨(raw.take options.maxFrameSize).length, frameType, flags,
        options.streamId % 2 ^ 31⟩, raw.take options.maxFrameSize) :: parsed).map some := by
  have htake : (raw.take options.maxFrameSize).length = options.maxFrameSize :=
    length_take_of_le (Nat.le_of_lt hmore)
  have hfirst := read_fillHeader frameType flags options.streamId (raw.take options.maxFrameSize)
    (by omega)
  refine ⟨⟨fillHeader frameType options.streamId options.maxFrameSize flags,
    raw.take options.maxFrameSize⟩ :: frames, ?_, ?_⟩
  · rw [frameLoop, if_pos (.inr (by omega))]
    simp only [if_neg (Nat.not_le.2 hmore), hframes]
    rfl
  · rw [htake] at hfirst
    rw [map_cons, map_cons, hread, hfirst, htake]

end

/-- `IsHeaderBlock` with another type of the first frame: a CONTINUATION frame begins the rest of a
block. -/
structure IsBlock (type : UInt8) (streamId : Nat) (isEndOfStream : Bool) (raw : Bytes)
    (frames : List (FrameHeader × Bytes)) : Prop where
  types : frames.map (·.1.type) = type :: List.replicate (frames.length - 1) frameContinuation
  streams : ∀ f ∈ frames, f.1.streamId = streamId
  payload : (frames.map (·.2)).flatten = raw
  endHeaders : frames.map (·.1.endHeaders) = List.replicate (frames.length - 1) false ++ [true]
  endStream : frames.map (·.1.endStream) = isEndOfStream :: List.replicate (frames.length - 1) false

/-- The flags that the loop starts with. -/
def firstFlags (isEndOfStream : Bool) : UInt8 :=
  if isEndOfStream then GRPC_CHTTP2_DATA_FLAG_END_STREAM else 0

/-- END_HEADERS and END_STREAM in the flags that the loop starts with, and in those of the last
frame. -/
theorem flags_bits (isEndOfStream : Bool) :
    let flags := firstFlags isEndOfStream
    (flags &&& 4 != 0) = false ∧ (flags &&& 1 != 0) = isEndOfStream ∧
      ((flags ||| GRPC_CHTTP2_DATA_FLAG_END_HEADERS) &&& 4 != 0) = true ∧
      ((flags ||| GRPC_CHTTP2_DATA_FLAG_END_HEADERS) &&& 1 != 0) = isEndOfStream := by
  cases isEndOfStream <;> decide

/-- A frame before CONTINUATION frames. -/
theorem IsBlock.cons {streamId : Nat} {raw : Bytes} {rest : List (FrameHeader × Bytes)}
    (h : IsBlock frameContinuation streamId false raw rest) (type : UInt8) (isEndOfStream : Bool)
    (piece : Bytes) :
    IsBlock type streamId isEndOfStream (piece ++ raw)
      ((⟨piece.length, type, firstFlags isEndOfStream, streamId⟩, piece) :: rest) := by
  have hbits := flags_bits isEndOfStream
  obtain ⟨n, hn⟩ : ∃ n, rest.length = n + 1 := by
    cases rest with
    | nil => exact absurd h.endHeaders (by decide)
    | cons f rest => exact ⟨_, rfl⟩
  refine ⟨?_, forall_mem_cons.2 ⟨rfl, h.streams⟩, by rw [map_cons, flatten_cons, h.payload], ?_, ?_⟩
  · rw [map_cons, h.types, length_cons, hn]
    rfl
  · rw [map_cons, h.endHeaders, length_cons, hn]
    exact congrArg (· :: _) hbits.1
  · rw [map_cons, h.endStream, length_cons, hn]
    exact congrArg (· :: _) hbits.2.1

/-- The loop ends, and appends the frames of a block, by induction on the rounds. -/
theorem frameLoop_isBlock {options : EncodeHeaderOptions} (hpos : 0 < options.maxFrameSize)
    (hmax : options.maxFrameSize ≤ 16777215) (fuel : Nat) (type : UInt8) (isEndOfStream : Bool)
    (raw : Bytes) (hgo : type = frameHeader ∨ 0 < raw.length) (hfuel : raw.length < fuel) :
    ∃ frames parsed, frameLoop options (fuel + 1) type (firstFlags isEndOfStream) raw =
        some frames ∧ frames.map WireFrame.read = parsed.map some ∧
      IsBlock type (options.streamId % 2 ^ 31) isEndOfStream raw parsed := by
  induction fuel generalizing type isEndOfStream raw with
  | zero => omega
  | succ fuel ih =>
    by_cases hfits : raw.length ≤ options.maxFrameSize
    · refine ⟨_, [(⟨raw.length, type, firstFlags isEndOfStream |||
        GRPC_CHTTP2_DATA_FLAG_END_HEADERS, options.streamId % 2 ^ 31⟩, raw)],
        frameLoop_last hgo hfits, ?_, ?_⟩
      · rw [map_singleton, read_fillHeader _ _ _ _ (by omega)]
        rfl
      · exact ⟨rfl, forall_mem_singleton.2 rfl, append_nil raw,
          congrArg (fun b => [b]) (flags_bits isEndOfStream).2.2.1,
          congrArg (fun b => [b]) (flags_bits isEndOfStream).2.2.2⟩
    · have hdrop := length_drop (i := options.maxFrameSize) (l := raw)
      obtain ⟨frames, parsed, hframes, hread, hrest⟩ :=
        ih frameContinuation false (raw.drop options.maxFrameSize) (.inr (by omega)) (by omega)
      obtain ⟨frames', hframes', hread'⟩ :=
        frameLoop_round (Nat.not_le.1 hfits) hmax hframes hread
      have hcons := hrest.cons type isEndOfStream (raw.take options.maxFrameSize)
      rw [take_append_drop] at hcons
      exact ⟨frames', _, hframes', hread', hcons⟩

/-- `Frame` ends, and appends the frames of the block. -/
theorem frame_isHeaderBlock (options : EncodeHeaderOptions) (raw : Bytes)
    (hpos : 0 < options.maxFrameSize) (hmax : options.maxFrameSize ≤ 16777215) :
    ∃ frames parsed, frame options raw = some frames ∧ frames.map WireFrame.read = parsed.map some ∧
      IsHeaderBlock (options.streamId % 2 ^ 31) options.isEndOfStream raw parsed := by
  obtain ⟨frames, parsed, hframes, hread, hblock⟩ := frameLoop_isBlock hpos hmax (raw.length + 1)
    frameHeader options.isEndOfStream raw (.inl rfl) (Nat.lt_succ_self _)
  exact ⟨frames, parsed, hframes, hread, hblock.types, hblock.streams, hblock.payload,
    hblock.endHeaders, hblock.endStream⟩

/-- A block of two frames and a half. -/
theorem frame_five_bytes : ∃ frames parsed, frame ⟨1, true, 2⟩ [1, 2, 3, 4, 5] = some frames ∧
      frames.map WireFrame.read = parsed.map some ∧ IsHeaderBlock 1 true [1, 2, 3, 4, 5] parsed ∧
      parsed.length = 3 := by
  obtain ⟨frames, parsed, hframes, hread, hblock⟩ :=
    frame_isHeaderBlock ⟨1, true, 2⟩ [1, 2, 3, 4, 5] (by decide) (by decide)
  have hlen : (frame ⟨1, true, 2⟩ [1, 2, 3, 4, 5]).map List.length = some 3 := by decide
  rw [hframes] at hlen
  refine ⟨frames, parsed, hframes, hread, hblock, ?_⟩
  rw [← length_map some, ← hread, length_map]
  exact Option.some.inj hlen

/-- With a frame size of 2^24 the length field of a full frame is zero. -/
theorem frame_length_cut : ∃ f, frame ⟨1, false, 2 ^ 24⟩ (List.replicate (2 ^ 24) 0) = some [f] ∧
    f.read = none := by
  have hlen := length_replicate (n := 2 ^ 24) (a := (0 : UInt8))
  generalize List.replicate (2 ^ 24) (0 : UInt8) = raw at hlen
  have hfits : raw.length ≤ (⟨1, false, 2 ^ 24⟩ : EncodeHeaderOptions).maxFrameSize := hlen.le
  refine ⟨_, frameLoop_last (.inl rfl) hfits, ?_⟩
  rw [hlen]
  change (if 0 = raw.length then _ else none) = none
  rw [if_neg (by rw [hlen]; decide)]

end HPackCompressor

end GrpcCore
