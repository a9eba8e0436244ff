import GrpcCore.Hpack.Basic
import GrpcCore.Lib.Run
import GrpcCore.Lib.Word

/-!
# gRPC messages over DATA frames

The path of a message from `perform_stream_op_locked` (`chttp2_transport.cc`), which writes it with
a prefix of five bytes into `flow_controlled_buffer`, through `FlushBytes` (`writing.cc`) and
`grpc_chttp2_encode_data`, which cut the buffer into DATA frames, to `frame_storage` of the receiver
and `grpc_deframe_unprocessed_incoming_frames` (`frame_data.cc`). Slice buffers are the bytes they
hold. Callbacks and byte counters are left out.

`Link` is the stream with its two ends and the bytes between them. `Link.Carries` says that what has
been received, stored, sent and buffered is, end to end, the encoding of the messages that were
sent, and every step of either end keeps it.
-/

namespace GrpcCore

open List Word

def GRPC_WRITE_INTERNAL_COMPRESS : UInt32 := 0x80000000

/-- A message and the flags of its `send_message` operation. -/
structure Message where
  flags : UInt32
  payload : Bytes
  length_lt : payload.length < 2 ^ 32

namespace Message

def compressed (m : Message) : Bool := m.flags &&& GRPC_WRITE_INTERNAL_COMPRESS != 0

/-- The bytes that `perform_stream_op_locked` appends for a message: the compressed flag, the
length and the payload. -/
def framed (m : Message) : Bytes :=
  let len := m.payload.length
  m.compressed.toUInt8 :: byteAt len 24 :: byteAt len 16 :: byteAt len 8 ::
    byteAt len 0 :: m.payload

/-- The flags and the payload that a reader should see. -/
def content (m : Message) : UInt32 × Bytes :=
  (if m.compressed then GRPC_WRITE_INTERNAL_COMPRESS else 0, m.payload)

end Message

/-! ## DATA frames -/

def GRPC_CHTTP2_DATA_FLAG_END_STREAM : UInt8 := 1

def GRPC_CHTTP2_FRAME_DATA : UInt8 := 0

/-- The bytes of a DATA frame. -/
def dataFrame (id : Nat) (isEof : Bool) (data : Bytes) : Bytes :=
  [byteAt data.length 16, byteAt data.length 8, byteAt data.length 0,
    GRPC_CHTTP2_FRAME_DATA, if isEof then GRPC_CHTTP2_DATA_FLAG_END_STREAM else 0,
    byteAt id 24, byteAt id 16, byteAt id 8, byteAt id 0] ++ data

/-- `grpc_chttp2_encode_data`: what is left of `inbuf`, and `outbuf` with the frame. -/
def encodeData (id : Nat) (inbuf : Bytes) (writeBytes : Nat) (isEof : Bool) (outbuf : Bytes) :
    Option (Bytes × Bytes) :=
  if writeBytes < 2 ^ 24 then
    some (inbuf.drop writeBytes, outbuf ++ dataFrame id isEof (inbuf.take writeBytes))
  else none

/-- A value of the peer's MAX_FRAME_SIZE setting: the settings parser disconnects on others. -/
def MaxFrameSize := { n : Nat // 16384 ≤ n ∧ n ≤ 16777215 }

/-! ## Deframing -/

/-- The outcome of `grpc_deframe_unprocessed_incoming_frames`: `Pending` with the number of bytes
that are missing, the error for a frame type other than 0 and 1, or a message and the bytes that
remain in `frame_storage`. -/
inductive Deframed where
  | pending (minProgressSize : Nat)
  | badFrameType (type : UInt8)
  | message (flags : UInt32) (payload rest : Bytes)

/-- `grpc_deframe_unprocessed_incoming_frames`, called with a buffer for the message. -/
def deframe (slices : Bytes) : Deframed :=
  match slices with
  | type :: a :: b :: c :: d :: rest =>
    let length := be32 a b c d
    if type = 0 ∨ type = 1 then
      if slices.length < length + 5 then .pending (length + 5 - slices.length)
      else
        .message (if type = 0 then 0 else GRPC_WRITE_INTERNAL_COMPRESS)
          (rest.take length) (rest.drop length)
    else .badFrameType type
  | _ => .pending (5 - slices.length)

variable {slices : Bytes}

theorem deframe_short (h : slices.length < 5) :
    deframe slices = .pending (5 - slices.length) := by
  match slices, h with
  | [], _ | [_], _ | [_, _], _ | [_, _, _], _ | [_, _, _, _], _ => rfl

theorem deframe_framed (m : Message) (more : Bytes) :
    deframe (m.framed ++ more) = .message m.content.1 m.content.2 more := by
  simp only [Message.framed, cons_append, deframe, be32_byteAt m.length_lt]
  have htype : m.compressed.toUInt8 = 0 ∨ m.compressed.toUInt8 = 1 := by
    cases m.compressed <;> decide
  have hflags : (if m.compressed.toUInt8 = 0 then 0 else GRPC_WRITE_INTERNAL_COMPRESS) =
      m.content.1 := by
    rw [Message.content]
    cases m.compressed <;> rfl
  rw [if_pos htype, if_neg (by simp only [length_cons, length_append]; omega), hflags,
    take_left, drop_left]
  rfl

theorem exists_eq_header (h : 5 ≤ slices.length) :
    ∃ type a b c d rest, slices = type :: a :: b :: c :: d :: rest := by
  match slices, h with
  | type :: a :: b :: c :: d :: rest, _ => exact ⟨type, a, b, c, d, rest, rfl⟩

theorem deframe_pending {m : Message} {missing : Bytes} (h : slices ++ missing = m.framed)
    (hne : missing ≠ []) : ∃ n, deframe slices = .pending n := by
  by_cases hlt : slices.length < 5
  · exact ⟨_, deframe_short hlt⟩
  obtain ⟨type, a, b, c, d, rest, rfl⟩ := exists_eq_header (Nat.not_lt.1 hlt)
  have hpos : 0 < missing.length := length_pos_of_ne_nil hne
  have htype : m.compressed.toUInt8 = 0 ∨ m.compressed.toUInt8 = 1 := by
    cases m.compressed <;> decide
  simp only [Message.framed, cons_append, cons.injEq] at h
  obtain ⟨rfl, rfl, rfl, rfl, rfl, hrest⟩ := h
  have hlen := congrArg List.length hrest
  rw [length_append] at hlen
  simp only [deframe, be32_byteAt m.length_lt]
  rw [if_pos htype, if_pos (by simp only [length_cons]; omega)]
  exact ⟨_, rfl⟩

/-- `min_progress_size` is what is missing: with fewer bytes the storage stays pending for the
rest, and once the prefix is complete that many bytes complete the message. -/
theorem deframe_append_of_pending {n : Nat} (h : deframe slices = .pending n) :
    0 < n ∧ (∀ more : Bytes, more.length < n →
        deframe (slices ++ more) = .pending (n - more.length)) ∧
      (5 ≤ slices.length → ∀ more : Bytes, n ≤ more.length →
        ∃ flags payload rest, deframe (slices ++ more) = .message flags payload rest) := by
  by_cases hlt : slices.length < 5
  · cases (deframe_short hlt).symm.trans h
    refine ⟨by omega, fun more hmore => ?_, fun hge => by omega⟩
    rw [deframe_short (by rw [length_append]; omega), length_append, Nat.sub_add_eq]
  obtain ⟨type, a, b, c, d, rest, rfl⟩ := exists_eq_header (Nat.not_lt.1 hlt)
  by_cases htype : type = 0 ∨ type = 1
  · by_cases hpend : (type :: a :: b :: c :: d :: rest).length < be32 a b c d + 5
    · simp only [deframe, if_pos htype, if_pos hpend, Deframed.pending.injEq] at h
      subst h
      refine ⟨by omega, fun more hmore => ?_, fun _ more hmore => ?_⟩
      · simp only [cons_append, deframe, if_pos htype]
        simp only [length_cons] at hpend hmore
        rw [if_pos (by simp only [length_cons, length_append]; omega)]
        simp only [length_cons, length_append, Nat.sub_add_eq]
        congr 1
        omega
      · simp only [cons_append, deframe, if_pos htype]
        simp only [length_cons] at hpend hmore
        rw [if_neg (by simp only [length_cons, length_append]; omega)]
        exact ⟨_, _, _, rfl⟩
    · simp only [deframe, if_pos htype, if_neg hpend, reduceCtorEq] at h
  · simp only [deframe, if_neg htype, reduceCtorEq] at h

/-! ## A stream and its two ends -/

/-- A stream: the sender's buffer, the bytes of its DATA frames that the receiver has not read,
what is left of the frame the receiver is in, and its storage. `sent` and `received` record the
messages at both ends. -/
structure Link where
  flowControlledBuffer : Bytes := []
  outbuf : Bytes := []
  incomingFrameSize : Nat := 0
  frameStorage : Bytes := []
  sent : List Message := []
  received : List (UInt32 × Bytes) := []

/-- The steps of the two ends. `flushBytes` comes with the peer's MAX_FRAME_SIZE, the smaller of
the two remote windows, and whether empty trailing metadata is waiting. `receiveSlice` is a slice
of `n` bytes that reaches the receiver inside a frame. -/
inductive LinkOp where
  | sendMessage (m : Message)
  | flushBytes (id : Nat) (maxFrameSize : MaxFrameSize) (window : Nat) (trailersEmpty : Bool)
  | receiveFrameHeader
  | receiveSlice (n : Nat)
  | deframe

/-- The message that an operation sends. -/
def LinkOp.message? : LinkOp → Option Message
  | .sendMessage m => some m
  | _ => none

namespace Link

/-- `perform_stream_op_locked` with a message. -/
def sendMessage (s : Link) (m : Message) : Link :=
  { s with
    flowControlledBuffer := s.flowControlledBuffer ++ m.framed
    sent := s.sent ++ [m] }

def flushBytes (s : Link) (id maxFrameSize window : Nat) (trailersEmpty : Bool) : Option Link :=
  let maxOutgoing := min maxFrameSize window
  let sendBytes := min maxOutgoing s.flowControlledBuffer.length
  let isLastFrame := sendBytes == s.flowControlledBuffer.length && trailersEmpty
  (encodeData id s.flowControlledBuffer sendBytes isLastFrame s.outbuf).map
    fun (inbuf, outbuf) => { s with flowControlledBuffer := inbuf, outbuf := outbuf }

/-- The nine bytes of a frame header, of which the first three are the length. -/
def receiveFrameHeader (s : Link) : Link :=
  match s.incomingFrameSize, s.outbuf with
  | 0, a :: b :: c :: _ :: _ :: _ :: _ :: _ :: _ :: rest =>
    { s with incomingFrameSize := be24 a b c, outbuf := rest }
  | _, _ => s

/-- A slice of the payload of the frame, as `grpc_chttp2_data_parser_parse` stores it. -/
def receiveSlice (s : Link) (n : Nat) : Link :=
  let slice := s.outbuf.take (min n s.incomingFrameSize)
  { s with
    outbuf := s.outbuf.drop slice.length
    incomingFrameSize := s.incomingFrameSize - slice.length
    frameStorage := s.frameStorage ++ slice }

/-- One step; `none` is a failing assertion or an error of the deframer. -/
def step (s : Link) : LinkOp → Option Link
  | .sendMessage m => some (s.sendMessage m)
  | .flushBytes id maxFrameSize window trailersEmpty =>
    s.flushBytes id maxFrameSize.1 window trailersEmpty
  | .receiveFrameHeader => some s.receiveFrameHeader
  | .receiveSlice n => some (s.receiveSlice n)
  | .deframe =>
    match GrpcCore.deframe s.frameStorage with
    | .pending _ => some s
    | .badFrameType _ => none
    | .message flags payload rest =>
      some { s with frameStorage := rest, received := s.received ++ [(flags, payload)] }

def framedAll (ms : List Message) : Bytes := (ms.map Message.framed).flatten

/-- A frame on its way: the stream, the end-of-stream flag and the payload. -/
abbrev Frame := Nat × Bool × Bytes

def Frame.bytes (f : Frame) : Bytes := dataFrame f.1 f.2.1 f.2.2

/-- The bytes that are neither delivered nor lost: `rest` are the messages that the receiver has
not seen, and their encoding is the storage, what is to come of the current frame, the payloads of
the frames behind it and the sender's buffer. -/
structure Carries (s : Link) (rest : List Message) (current : Bytes) (frames : List Frame) :
    Prop where
  sent : s.received ++ rest.map Message.content = s.sent.map Message.content
  outbuf : s.outbuf = current ++ (frames.map Frame.bytes).flatten
  size : s.incomingFrameSize = current.length
  frames_lt : ∀ f ∈ frames, f.2.2.length < 2 ^ 24
  bytes : s.frameStorage ++ (current ++ ((frames.map fun f => f.2.2).flatten ++
    s.flowControlledBuffer)) = framedAll rest

variable {s s' : Link} {rest : List Message} {current : Bytes} {frames : List Frame}

theorem Carries.init : Carries {} [] [] [] where
  sent := rfl
  outbuf := rfl
  size := rfl
  frames_lt := nofun
  bytes := rfl

theorem Carries.sendMessage (h : s.Carries rest current frames) (m : Message) :
    (s.sendMessage m).Carries (rest ++ [m]) current frames where
  sent := by simp [Link.sendMessage, ← h.sent]
  outbuf := h.outbuf
  size := h.size
  frames_lt := h.frames_lt
  bytes := by
    have hbytes := h.bytes
    simp only [framedAll] at hbytes
    simp [Link.sendMessage, framedAll, ← hbytes]

/-- `FlushBytes` moves bytes from the buffer into a frame; its frames are always short enough. -/
theorem Carries.flushBytes (h : s.Carries rest current frames) (id : Nat) (size : MaxFrameSize)
    (window : Nat) (trailersEmpty : Bool) :
    ∃ s' f, s.flushBytes id size.1 window trailersEmpty = some s' ∧ s'.sent = s.sent ∧
      s'.Carries rest current (frames ++ [f]) := by
  have hsize := size.2.2
  set n := min (min size.1 window) s.flowControlledBuffer.length with hn
  have hlt : n < 2 ^ 24 := by omega
  set isLastFrame := n == s.flowControlledBuffer.length && trailersEmpty
  refine ⟨{ s with
    flowControlledBuffer := s.flowControlledBuffer.drop n
    outbuf := s.outbuf ++ dataFrame id isLastFrame (s.flowControlledBuffer.take n) },
    (id, isLastFrame, s.flowControlledBuffer.take n),
    by rw [Link.flushBytes, encodeData, if_pos hlt, Option.map_some], rfl, ?_⟩
  exact {
    sent := h.sent
    outbuf := by simp [h.outbuf, Frame.bytes]
    size := h.size
    frames_lt := by
      intro f hf
      rcases mem_append.1 hf with hf | hf
      · exact h.frames_lt f hf
      · obtain rfl := mem_singleton.1 hf
        exact Nat.lt_of_le_of_lt (length_take_le ..) hlt
    bytes := by simp [← h.bytes] }

theorem Carries.receiveFrameHeader (h : s.Carries rest current frames) :
    ∃ current' frames', s.receiveFrameHeader.Carries rest current' frames' := by
  have hsize := h.size
  have houtbuf := h.outbuf
  cases current with
  | cons b current =>
    -- inside a frame no header is read
    refine ⟨b :: current, frames, ?_⟩
    rw [Link.receiveFrameHeader, hsize]
    exact h
  | nil =>
    cases frames with
    | nil =>
      refine ⟨[], [], ?_⟩
      rw [Link.receiveFrameHeader, hsize, houtbuf]
      exact h
    | cons f frames =>
      have hf := h.frames_lt f (mem_cons_self ..)
      refine ⟨f.2.2, frames, ?_⟩
      have hstep : s.receiveFrameHeader = { s with
          incomingFrameSize := f.2.2.length
          outbuf := f.2.2 ++ (frames.map Frame.bytes).flatten } := by
        rw [Link.receiveFrameHeader, hsize, houtbuf]
        simp only [map_cons, flatten_cons, Frame.bytes, dataFrame, nil_append,
          cons_append, length_nil, be24_byteAt hf]
      rw [hstep]
      exact {
        sent := h.sent
        outbuf := rfl
        size := rfl
        frames_lt := fun g hg => h.frames_lt g (mem_cons_of_mem f hg)
        bytes := by simpa using h.bytes }

theorem Carries.receiveSlice (h : s.Carries rest current frames) (n : Nat) :
    (s.receiveSlice n).Carries rest (current.drop n) frames := by
  have htake : s.outbuf.take (min n s.incomingFrameSize) = current.take n := by
    rw [h.outbuf, h.size, take_append_of_le_length (Nat.min_le_right ..),
      ← take_eq_take_min]
  have hdrop : s.outbuf.drop (current.take n).length =
      current.drop n ++ (frames.map Frame.bytes).flatten := by
    rw [h.outbuf, drop_append_of_le_length (length_take_le' ..), length_take,
      ← drop_eq_drop_min]
  exact {
    sent := h.sent
    outbuf := by rw [Link.receiveSlice, htake, hdrop]
    size := by
      rw [Link.receiveSlice, htake, h.size, length_take, length_drop]
      simp only
      omega
    frames_lt := h.frames_lt
    bytes := by
      rw [Link.receiveSlice, htake, ← h.bytes, append_assoc, ← append_assoc (current.take n),
        take_append_drop] }

theorem Carries.deframe_message {m : Message} (h : s.Carries (m :: rest) current frames)
    {more : Bytes} (hm : s.frameStorage = m.framed ++ more) :
    s.step .deframe =
        some { s with frameStorage := more, received := s.received ++ [m.content] } ∧
      Carries { s with frameStorage := more, received := s.received ++ [m.content] }
        rest current frames := by
  refine ⟨by simp only [step, hm, deframe_framed], ?_⟩
  have hbytes := h.bytes
  rw [hm, framedAll, map_cons, flatten_cons, append_assoc,
    append_cancel_left_eq] at hbytes
  exact {
    sent := by rw [← h.sent, map_cons, append_assoc, singleton_append]
    outbuf := h.outbuf
    size := h.size
    frames_lt := h.frames_lt
    bytes := hbytes }

theorem Carries.deframe (h : s.Carries rest current frames) :
    ∃ s' rest', s.step .deframe = some s' ∧ s'.sent = s.sent ∧ s'.Carries rest' current frames := by
  have hbytes := h.bytes
  have hwait : (∃ n, GrpcCore.deframe s.frameStorage = .pending n) → s.step .deframe = some s := by
    rintro ⟨n, hn⟩
    simp only [step, hn]
  cases rest with
  | nil =>
    have hnil : s.frameStorage = [] := (append_eq_nil_iff.1 hbytes).1
    exact ⟨s, [], hwait ⟨5, by rw [hnil]; rfl⟩, rfl, h⟩
  | cons m rest =>
    -- either the message is not complete, or the storage begins with it
    obtain ⟨missing, hne, hm⟩ | ⟨more, hm⟩ : (∃ missing, missing ≠ [] ∧
        s.frameStorage ++ missing = m.framed) ∨ ∃ more, s.frameStorage = m.framed ++ more := by
      rcases append_eq_append_iff.1 hbytes with ⟨missing, hm, -⟩ | ⟨more, hm, -⟩
      · by_cases hne : missing = []
        · exact .inr ⟨[], by rw [hm, hne, append_nil, append_nil]⟩
        · exact .inl ⟨missing, hne, hm.symm⟩
      · exact .inr ⟨more, hm⟩
    · exact ⟨s, m :: rest, hwait (deframe_pending hm hne), rfl, h⟩
    · obtain ⟨hstep, hcarries⟩ := h.deframe_message hm
      exact ⟨_, rest, hstep, rfl, hcarries⟩

theorem Carries.step (h : s.Carries rest current frames) (op : LinkOp) :
    ∃ s' rest' current' frames', s.step op = some s' ∧ s'.sent = s.sent ++ op.message?.toList ∧
      s'.Carries rest' current' frames' := by
  cases op with
  | sendMessage m => exact ⟨_, _, _, _, rfl, rfl, h.sendMessage m⟩
  | flushBytes id size window trailersEmpty =>
    obtain ⟨s', f, hstep, hsent, hcarries⟩ := h.flushBytes id size window trailersEmpty
    exact ⟨s', _, _, _, hstep, by rw [hsent]; exact (append_nil _).symm, hcarries⟩
  | receiveFrameHeader =>
    obtain ⟨current', frames', hcarries⟩ := h.receiveFrameHeader
    refine ⟨_, _, _, _, rfl, ?_, hcarries⟩
    rw [Link.receiveFrameHeader]
    split <;> exact (append_nil _).symm
  | receiveSlice n => exact ⟨_, _, _, _, rfl, (append_nil _).symm, h.receiveSlice n⟩
  | deframe =>
    obtain ⟨s', rest', hstep, hsent, hcarries⟩ := h.deframe
    exact ⟨s', _, _, _, hstep, by rw [hsent]; exact (append_nil _).symm, hcarries⟩

theorem Carries.run (h : s.Carries rest current frames) (ops : List LinkOp) :
    ∃ s' rest' current' frames', Run.run Link.step s ops = some s' ∧
      s'.sent = s.sent ++ ops.filterMap LinkOp.message? ∧ s'.Carries rest' current' frames' := by
  induction ops generalizing s rest current frames with
  | nil => exact ⟨s, rest, current, frames, rfl, (append_nil _).symm, h⟩
  | cons op ops ih =>
    obtain ⟨s₁, rest₁, current₁, frames₁, hstep, hsent₁, h₁⟩ := h.step op
    obtain ⟨s₂, rest₂, current₂, frames₂, hrun, hsent₂, h₂⟩ := ih h₁
    refine ⟨s₂, rest₂, current₂, frames₂, by rw [Run.run_cons, hstep]; exact hrun, ?_, h₂⟩
    rw [hsent₂, hsent₁, append_assoc, filterMap_cons]
    cases op.message? <;> rfl

theorem Carries.drain (h : s.Carries rest [] []) (hbuf : s.flowControlledBuffer = []) :
    ∃ s', Run.run Link.step s (List.replicate rest.length .deframe) = some s' ∧
      s'.received = s.sent.map Message.content ∧ s'.frameStorage = [] := by
  have hbytes : s.frameStorage = framedAll rest := by simpa [hbuf] using h.bytes
  induction rest generalizing s with
  | nil => exact ⟨s, rfl, by rw [← h.sent, map_nil, append_nil], hbytes⟩
  | cons m rest ih =>
    obtain ⟨hstep, hcarries⟩ := h.deframe_message hbytes
    obtain ⟨s', hrun, hreceived, hstorage⟩ := ih hcarries hbuf rfl
    refine ⟨s', ?_, hreceived, hstorage⟩
    rw [length_cons, replicate_succ, Run.run_cons, hstep]
    exact hrun

theorem Carries.of_outbuf_nil (h : s.Carries rest current frames) (hout : s.outbuf = []) :
    s.Carries rest [] [] := by
  have houtbuf := h.outbuf.symm.trans hout
  obtain ⟨rfl, hframes⟩ := append_eq_nil_iff.1 houtbuf
  cases frames with
  | nil => exact h
  | cons f frames => simp [Frame.bytes, dataFrame] at hframes

/-- In every run of the two ends no assertion fails and the deframer returns no error. The
messages it has yielded are the first of those sent, with their flags. Once every byte has reached
the storage, one more call for each of the others yields exactly them. A pending result is pending
for as many bytes as it says, and once the prefix of the message is complete not for more. -/
theorem run_received (ops : List LinkOp) :
    ∃ s, Run.run Link.step {} ops = some s ∧ s.sent = ops.filterMap LinkOp.message? ∧
      s.received <+: s.sent.map Message.content ∧
      (s.flowControlledBuffer = [] → s.outbuf = [] →
        ∃ s', Run.run Link.step s
            (List.replicate (s.sent.length - s.received.length) .deframe) = some s' ∧
          s'.received = s.sent.map Message.content ∧ s'.frameStorage = []) ∧
      ∀ n, GrpcCore.deframe s.frameStorage = .pending n → 0 < n ∧
        (∀ more : Bytes, more.length < n →
          GrpcCore.deframe (s.frameStorage ++ more) = .pending (n - more.length)) ∧
        (5 ≤ s.frameStorage.length → ∀ more : Bytes, n ≤ more.length →
          ∃ flags payload rest,
            GrpcCore.deframe (s.frameStorage ++ more) = .message flags payload rest) := by
  obtain ⟨s, rest, current, frames, hrun, hsent, h⟩ := Carries.init.run ops
  refine ⟨s, hrun, hsent, ⟨_, h.sent⟩, fun hbuf hout => ?_, fun n => deframe_append_of_pending⟩
  have hlen := congrArg List.length h.sent
  rw [length_append, length_map, length_map] at hlen
  rw [show s.sent.length - s.received.length = rest.length by omega]
  exact (h.of_outbuf_nil hout).drain hbuf

-- A window of three bytes cuts the prefix of the first message. When both buffers are empty the
-- second message is in the storage, and one more call yields it.
example :
    let ops : List LinkOp :=
      [.sendMessage ⟨0, [1, 2], by decide⟩,
        .sendMessage ⟨GRPC_WRITE_INTERNAL_COMPRESS, [3], by decide⟩,
        .flushBytes 1 ⟨16384, by decide⟩ 3 false, .flushBytes 1 ⟨16384, by decide⟩ 65535 true,
        .receiveFrameHeader, .receiveSlice 3, .deframe, .receiveFrameHeader, .receiveSlice 4,
        .receiveSlice 6, .deframe]
    ((Run.run Link.step {} ops).map fun s =>
        (s.flowControlledBuffer, s.outbuf, s.received, s.frameStorage)) =
      some ([], [], [(0, [1, 2])], [1, 0, 0, 0, 1, 3]) ∧
    ((Run.run Link.step {} (ops ++ [.deframe])).map fun s => (s.received, s.frameStorage)) =
      some ([(0, [1, 2]), (GRPC_WRITE_INTERNAL_COMPRESS, [3])], []) := ⟨rfl, rfl⟩

end Link

end GrpcCore
