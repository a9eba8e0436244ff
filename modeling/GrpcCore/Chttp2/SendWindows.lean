import GrpcCore.Chttp2.FlowControl
import GrpcCore.Chttp2.FrameWriters
import GrpcCore.Gprpp.Time

/-!
# The windows of a sender

What a transport may send: `remote_window_` of the transport and `remote_window_delta_` of each
stream (`OutgoingUpdateContext` in `flow_control.h`), the peer's setting INITIAL_WINDOW_SIZE, and
the lists of streams that are writable or stalled. `grpc_chttp2_begin_write` (`writing.cc`) is the
event `startWrite` followed by events `nextStream`, one for each stream that `NextStream` returns;
the other events are what happens between writes. A call of `FlushData` that finds data leaves a
record (`Flush`).

The window of a stream is an `int64_t`, and `stream_remote_window` casts it to 32 bits. Nothing
bounds the window from above, for a WINDOW_UPDATE that takes it beyond `2 ^ 31 - 1` is accepted: a
stream with a window of `2 ^ 32` bytes is stalled, as if it had none. `send_windows_safe_iff` says
that this, and an overflow of the counters, is all that can go wrong. Left out are trailing metadata
and the end of a stream, but for the event `removeStream`.
-/

namespace GrpcCore

open Option FlowControl List

/-! ## Streams -/

/-- The increment of a WINDOW_UPDATE frame that the parser accepts. -/
def WindowIncrement := { n : Nat // 1 ≤ n ∧ n ≤ 2 ^ 31 - 1 }

/-- A value of INITIAL_WINDOW_SIZE that the settings parser accepts. -/
def InitialWindowSize := { n : Nat // n ≤ 2 ^ 31 - 1 }

/-- The fields of a stream that the writer reads. `trailersEmpty` is whether trailing metadata are
to be sent and are empty. -/
structure SendStream where
  id : Nat
  remoteWindowDelta : Int := 0
  flowControlledBuffer : Bytes := []
  sendInitialMetadata : Bool := false
  sentInitialMetadata : Bool := false
  trailersEmpty : Bool := false

/-- The lists for a stream that cannot send. -/
inductive StalledBy where
  | transport
  | stream
  deriving DecidableEq

/-- A DATA frame, with the windows just before it. -/
structure SentData where
  frame : WireFrame
  remoteWindow : Int
  streamWindow : Int
  deriving DecidableEq

/-- A call of `FlushData` for a stream with data: the windows that it finds, the frames that it
writes and the list that it puts the stream on. -/
structure Flush where
  streamId : Nat
  remoteWindow : Int
  streamWindow : Int
  frames : List SentData
  stalled : Option StalledBy
  deriving DecidableEq

/-- What the writer should have done: no frame is longer than the windows allow, and the stream is
put on a list exactly if it cannot send, and on one whose condition holds. -/
structure Flush.Right (f : Flush) : Prop where
  frames : ∀ x ∈ f.frames, (x.frame.payload.length : Int) ≤ min x.remoteWindow x.streamWindow
  byTransport : f.stalled = some .transport → f.remoteWindow ≤ 0
  byStream : f.stalled = some .stream → f.streamWindow = 0
  stalled : f.stalled = none ↔ 0 < f.remoteWindow ∧ 0 < f.streamWindow

namespace SendStream

/-- The window of a stream, without a cast. -/
def window (s : SendStream) (initialWindowSize : Nat) : Int :=
  max 0 (s.remoteWindowDelta + initialWindowSize)

def context (s : SendStream) (initialWindowSize : Nat) (remoteWindow : Int) : DataSendContext where
  streamId := s.id
  remoteWindowDelta := s.remoteWindowDelta
  flowControlledBuffer := s.flowControlledBuffer
  trailersEmpty := s.trailersEmpty
  initialWindowSize := initialWindowSize
  remoteWindow := remoteWindow

def flushInitialMetadata (s : SendStream) : SendStream :=
  if s.sendInitialMetadata && !s.sentInitialMetadata then
    { s with sendInitialMetadata := false, sentInitialMetadata := true }
  else s

end SendStream

def DataSendContext.sendBytes (d : DataSendContext) (maxFrameSize : Nat) : Nat :=
  u32 (min (d.maxOutgoing maxFrameSize) d.flowControlledBuffer.length)

/-- The loop of `FlushData`: the window of the transport, the stream, and the frames. -/
def flushDataLoop (maxFrameSize : MaxFrameSize) (initialWindowSize : Nat) :
    Nat → Int → SendStream → Option (Int × SendStream × List SentData)
  | 0, remoteWindow, s => some (remoteWindow, s, [])
  | fuel + 1, remoteWindow, s =>
    let d := s.context initialWindowSize remoteWindow
    if 0 < s.flowControlledBuffer.length ∧ 0 < d.maxOutgoing maxFrameSize.1 then
      match d.flushBytes maxFrameSize.1 with
      | none => none
      | some frames =>
        let sent := d.sendBytes maxFrameSize.1
        (flushDataLoop maxFrameSize initialWindowSize fuel (remoteWindow - sent)
            { s with
              remoteWindowDelta := s.remoteWindowDelta - sent
              flowControlledBuffer := s.flowControlledBuffer.drop sent }).map
          fun r => (r.1, r.2.1,
            frames.map (⟨·, remoteWindow, s.window initialWindowSize⟩) ++ r.2.2)
    else some (remoteWindow, s, [])

/-! ## The transport -/

/-- The fields of a transport that the writer reads. -/
structure SendTransport where
  remoteWindow : Int := kDefaultWindow
  initialWindowSize : InitialWindowSize := ⟨kDefaultWindow, by decide⟩
  maxFrameSize : MaxFrameSize := ⟨kDefaultFrameSize, by decide⟩
  initialWindowUpdate : Int := 0
  streams : Nat → Option SendStream := fun _ => none
  writable : List Nat := []
  stalledByTransport : List Nat := []
  stalledByStream : List Nat := []
  flushes : List Flush := []
  overflow : Bool := false

inductive SendEvent where
  | createStream (id : Nat)
  | removeStream (id : Nat)
  | sendInitialMetadata (id : Nat)
  | sendMessage (id : Nat) (framed : Bytes)
  | sendTrailingMetadata (id : Nat) (empty : Bool)
  | markStreamWritable (id : Nat)
  | windowUpdate (id : Nat) (receivedUpdate : WindowIncrement)
  | initialWindowSize (value : InitialWindowSize)
  | maxFrameSize (value : MaxFrameSize)
  | endRead
  | startWrite
  | nextStream

namespace SendTransport

/-- `stream_list_add`. -/
def listAdd (list : List Nat) (id : Nat) : List Nat := if id ∈ list then list else list ++ [id]

/-- `grpc_chttp2_mark_stream_writable`. -/
def markStreamWritable (t : SendTransport) (id : Nat) : SendTransport :=
  { t with writable := listAdd t.writable id }

def setStream (t : SendTransport) (s : SendStream) : SendTransport :=
  { t with streams := Function.update t.streams s.id (some s) }

/-- The record of a call of `FlushData`. -/
def flushed (t : SendTransport) (s : SendStream) (frames : List SentData)
    (stalled : Option StalledBy) : Flush :=
  ⟨s.id, t.remoteWindow, s.window t.initialWindowSize.1, frames, stalled⟩

def flushData (t : SendTransport) (s : SendStream) : Option SendTransport :=
  if ¬ s.sentInitialMetadata then some t
  else if s.flowControlledBuffer.length = 0 then some t
  else if int64Max < s.remoteWindowDelta + t.initialWindowSize.1 then
    some { t with overflow := true }
  else
    let d := s.context t.initialWindowSize.1 t.remoteWindow
    if d.maxOutgoing t.maxFrameSize.1 = 0 then
      if t.remoteWindow ≤ 0 then
        some { t with
          stalledByTransport := listAdd t.stalledByTransport s.id
          flushes := t.flushes ++ [t.flushed s [] (some .transport)] }
      else if d.streamRemoteWindow ≤ 0 then
        some { t with
          stalledByStream := listAdd t.stalledByStream s.id
          flushes := t.flushes ++ [t.flushed s [] (some .stream)] }
      else some { t with flushes := t.flushes ++ [t.flushed s [] none] }
    else
      (flushDataLoop t.maxFrameSize t.initialWindowSize.1 s.flowControlledBuffer.length
          t.remoteWindow s).map
        fun (remoteWindow, s', frames) =>
          let t' := { t.setStream s' with
            remoteWindow := remoteWindow
            flushes := t.flushes ++ [t.flushed s frames none] }
          if 0 < s'.flowControlledBuffer.length then
            { t' with writable := listAdd t'.writable s'.id }
          else t'

/-- The part of `grpc_chttp2_begin_write` for one stream. -/
def writeStream (t : SendTransport) (s : SendStream) : Option SendTransport :=
  (t.setStream s.flushInitialMetadata).flushData s.flushInitialMetadata

/-- `grpc_chttp2_window_update_parser_parse` with the whole increment. -/
def windowUpdate (t : SendTransport) (id receivedUpdate : Nat) : SendTransport :=
  if id ≠ 0 then
    match t.streams id with
    | none => t
    | some s =>
      if int64Max < s.remoteWindowDelta + receivedUpdate then { t with overflow := true }
      else
        let t := t.setStream { s with remoteWindowDelta := s.remoteWindowDelta + receivedUpdate }
        if id ∈ t.stalledByStream then
          { t with stalledByStream := t.stalledByStream.erase id }.markStreamWritable id
        else t
  else if int64Max < t.remoteWindow + receivedUpdate then { t with overflow := true }
  else { t with remoteWindow := t.remoteWindow + receivedUpdate }

/-- A step; `none` if there is no such stream. -/
def step (t : SendTransport) : SendEvent → Option SendTransport
  | .createStream id =>
    if id = 0 ∨ (t.streams id).isSome then none else some (t.setStream { id := id })
  | .removeStream id =>
    (t.streams id).map fun _ =>
      { t with
        streams := Function.update t.streams id none
        writable := t.writable.erase id
        stalledByStream := t.stalledByStream.erase id
        stalledByTransport := t.stalledByTransport.erase id }
  | .sendInitialMetadata id =>
    (t.streams id).map fun s => t.setStream { s with sendInitialMetadata := true }
  | .sendMessage id framed =>
    (t.streams id).map fun s =>
      t.setStream { s with flowControlledBuffer := s.flowControlledBuffer ++ framed }
  | .sendTrailingMetadata id empty =>
    (t.streams id).map fun s => t.setStream { s with trailersEmpty := empty }
  | .markStreamWritable id => (t.streams id).map fun _ => t.markStreamWritable id
  | .windowUpdate id receivedUpdate => some (t.windowUpdate id receivedUpdate.1)
  | .initialWindowSize value =>
    some { t with
      initialWindowUpdate := t.initialWindowUpdate + (value.1 - t.initialWindowSize.1)
      initialWindowSize := value }
  | .maxFrameSize value => some { t with maxFrameSize := value }
  | .endRead =>
    if 0 < t.initialWindowUpdate then
      some { t with
        writable := t.stalledByStream.foldl listAdd t.writable
        stalledByStream := []
        initialWindowUpdate := 0 }
    else some { t with initialWindowUpdate := 0 }
  | .startWrite =>
    if 0 < t.remoteWindow then
      some { t with
        writable := t.stalledByTransport.foldl listAdd t.writable
        stalledByTransport := [] }
    else some t
  | .nextStream =>
    match t.writable with
    | [] => none
    | id :: writable => (t.streams id).bind { t with writable := writable }.writeStream

/-! ## Safety -/

/-- The window of the transport is not negative, every call of `FlushData` did what it should, and
no counter has overflowed. -/
structure Safe (t : SendTransport) : Prop where
  remoteWindow : 0 ≤ t.remoteWindow
  flushes : ∀ f ∈ t.flushes, f.Right
  overflow : t.overflow = false

/-- The cast of the window of a stream to 32 bits leaves a window that is open if this one is. -/
def CastKeeps (remoteWindow window : Int) : Prop :=
  window ≤ int64Max ∧ (0 < remoteWindow → 0 < window → window % 2 ^ 32 ≠ 0)

/-- The events that keep the windows: no counter overflows, and a stream with data that is written
while the window of the transport is open has no window that is a positive multiple of `2 ^ 32`. -/
def Allowed (t : SendTransport) : SendEvent → Prop
  | .windowUpdate id receivedUpdate =>
    if id = 0 then t.remoteWindow + receivedUpdate.1 ≤ int64Max
    else ∀ s ∈ t.streams id, s.remoteWindowDelta + receivedUpdate.1 ≤ int64Max
  | .nextStream => ∀ id ∈ t.writable.head?, ∀ s ∈ t.streams id,
    s.flushInitialMetadata.sentInitialMetadata = true → s.flowControlledBuffer ≠ [] →
      CastKeeps t.remoteWindow (s.remoteWindowDelta + t.initialWindowSize.1)
  | _ => True

end SendTransport

/-! ## What is sent -/

namespace DataSendContext

variable {d : DataSendContext} {maxFrameSize : MaxFrameSize}

theorem streamRemoteWindow_eq (d : DataSendContext) : (d.streamRemoteWindow : Int) =
    max 0 (d.remoteWindowDelta + d.initialWindowSize) % 2 ^ 32 := by
  rw [streamRemoteWindow, u32OfInt, Int.toNat_of_nonneg (Int.emod_nonneg _ (by decide))]

theorem maxOutgoing_eq (h : 0 ≤ d.remoteWindow) (maxFrameSize : Nat) :
    (d.maxOutgoing maxFrameSize : Int) =
      min (maxFrameSize : Int) (min (d.streamRemoteWindow : Int) d.remoteWindow) := by
  have hlt := Int.emod_lt_of_pos (max 0 (d.remoteWindowDelta + d.initialWindowSize))
    (show (0 : Int) < 2 ^ 32 by decide)
  rw [← streamRemoteWindow_eq] at hlt
  rw [maxOutgoing, u32OfInt]
  omega

theorem maxOutgoing_le (h : 0 ≤ d.remoteWindow) (maxFrameSize : Nat) :
    (d.maxOutgoing maxFrameSize : Int) ≤
      min d.remoteWindow (max 0 (d.remoteWindowDelta + d.initialWindowSize)) := by
  have hle : (d.streamRemoteWindow : Int) ≤ max 0 (d.remoteWindowDelta + d.initialWindowSize) := by
    rw [streamRemoteWindow_eq]
    omega
  rw [maxOutgoing_eq h]
  omega

theorem maxOutgoing_eq_zero_iff (h : 0 ≤ d.remoteWindow) (maxFrameSize : MaxFrameSize) :
    d.maxOutgoing maxFrameSize.1 = 0 ↔ d.remoteWindow = 0 ∨ d.streamRemoteWindow = 0 := by
  have hframe := maxFrameSize.2.1
  have hmax := maxOutgoing_eq h maxFrameSize.1
  omega

theorem sendBytes_eq (d : DataSendContext) (maxFrameSize : MaxFrameSize) :
    d.sendBytes maxFrameSize.1 =
      min (d.maxOutgoing maxFrameSize.1) d.flowControlledBuffer.length := by
  have hframe := maxFrameSize.2.2
  have hle : d.maxOutgoing maxFrameSize.1 ≤ maxFrameSize.1 := Nat.min_le_left _ _
  exact Nat.mod_eq_of_lt (by omega)

theorem flushBytes_eq (d : DataSendContext) (maxFrameSize : MaxFrameSize) :
    ∃ frame, d.flushBytes maxFrameSize.1 = some [frame] ∧
      frame.payload.length = d.sendBytes maxFrameSize.1 := by
  have hframe := maxFrameSize.2.2
  have hle : d.maxOutgoing maxFrameSize.1 ≤ maxFrameSize.1 := Nat.min_le_left _ _
  have hsend := sendBytes_eq d maxFrameSize
  have hencode (isEof : Bool) : encodeData d.streamId d.flowControlledBuffer
      (d.sendBytes maxFrameSize.1) isEof [] = some (_, _) := if_pos (by omega)
  unfold flushBytes
  rw [← sendBytes]
  dsimp only
  rw [hencode]
  refine ⟨_, rfl, ?_⟩
  change (d.flowControlledBuffer.take (d.sendBytes maxFrameSize.1)).length = _
  rw [length_take]
  omega

end DataSendContext

/-- The loop keeps the window of the transport open or closed, and its frames are within the
windows. -/
theorem flushDataLoop_spec (maxFrameSize : MaxFrameSize) (initialWindowSize fuel : Nat)
    {remoteWindow : Int}
    (hwindow : 0 ≤ remoteWindow) (s : SendStream) :
    ∃ remoteWindow' s' frames,
      flushDataLoop maxFrameSize initialWindowSize fuel remoteWindow s =
        some (remoteWindow', s', frames) ∧ 0 ≤ remoteWindow' ∧
      ∀ x ∈ frames, (x.frame.payload.length : Int) ≤ min x.remoteWindow x.streamWindow := by
  induction fuel generalizing remoteWindow s with
  | zero => exact ⟨remoteWindow, s, [], rfl, hwindow, nofun⟩
  | succ fuel ih =>
    obtain ⟨d, hd⟩ : ∃ d, d = s.context initialWindowSize remoteWindow := ⟨_, rfl⟩
    have hopen : 0 ≤ d.remoteWindow := by rwa [hd]
    obtain ⟨frame, hflush, hlen⟩ := d.flushBytes_eq maxFrameSize
    have hsend := d.sendBytes_eq maxFrameSize
    have hle := DataSendContext.maxOutgoing_le hopen maxFrameSize.1
    have hfits : (frame.payload.length : Int) ≤ min remoteWindow (s.window initialWindowSize) := by
      rw [hd] at hle hlen hsend
      change _ ≤ min remoteWindow (s.window initialWindowSize) at hle
      omega
    rw [flushDataLoop]
    dsimp only
    rw [← hd, hflush]
    split
    · have hopen' : 0 ≤ remoteWindow - d.sendBytes maxFrameSize.1 := by omega
      obtain ⟨remoteWindow', s', frames, hloop, hwindow', hframes⟩ :=
        ih hopen'
          { s with
            remoteWindowDelta := s.remoteWindowDelta - d.sendBytes maxFrameSize.1
            flowControlledBuffer := s.flowControlledBuffer.drop (d.sendBytes maxFrameSize.1) }
      refine ⟨remoteWindow', s', ⟨frame, remoteWindow, s.window initialWindowSize⟩ :: frames, ?_,
        hwindow', ?_⟩
      · rw [hloop]
        rfl
      · exact forall_mem_cons.2 ⟨hfits, hframes⟩
    · exact ⟨remoteWindow, s, [], rfl, hwindow, nofun⟩

/-! ## Runs -/

namespace SendTransport

variable {t t' : SendTransport} {s : SendStream}

theorem safe_init : Safe {} := ⟨by decide, nofun, rfl⟩

theorem Safe.of_eq (h : t.Safe) (hwindow : t'.remoteWindow = t.remoteWindow)
    (hflushes : t'.flushes = t.flushes) (hoverflow : t'.overflow = t.overflow) : t'.Safe where
  remoteWindow := hwindow ▸ h.remoteWindow
  flushes := hflushes ▸ h.flushes
  overflow := hoverflow.trans h.overflow

/-- The list that `FlushData` puts a stream on. -/
def stalledBy (t : SendTransport) (s : SendStream) : Option StalledBy :=
  if t.remoteWindow = 0 then some .transport
  else if s.window t.initialWindowSize.1 % 2 ^ 32 = 0 then some .stream
  else none

theorem exists_flushData (hwindow : 0 ≤ t.remoteWindow) (hsent : s.sentInitialMetadata = true)
    (hbuffer : s.flowControlledBuffer ≠ [])
    (hfits : s.remoteWindowDelta + t.initialWindowSize.1 ≤ int64Max) :
    ∃ t' frames, t.flushData s = some t' ∧ 0 ≤ t'.remoteWindow ∧
      t'.flushes = t.flushes ++ [t.flushed s frames (t.stalledBy s)] ∧ t'.overflow = t.overflow ∧
      ∀ x ∈ frames, (x.frame.payload.length : Int) ≤ min x.remoteWindow x.streamWindow := by
  obtain ⟨d, hd⟩ : ∃ d, d = s.context t.initialWindowSize.1 t.remoteWindow := ⟨_, rfl⟩
  have hstream : (d.streamRemoteWindow : Int) = s.window t.initialWindowSize.1 % 2 ^ 32 := by
    rw [d.streamRemoteWindow_eq, hd]
    rfl
  have hzero := DataSendContext.maxOutgoing_eq_zero_iff (d := d) (by rwa [hd]) t.maxFrameSize
  rw [show d.remoteWindow = t.remoteWindow by rw [hd]; rfl] at hzero
  unfold flushData
  rw [if_neg (not_not.2 hsent), if_neg (mt length_eq_zero_iff.1 hbuffer),
    if_neg (Int.not_lt.2 hfits)]
  dsimp only
  rw [← hd]
  by_cases hclosed : t.remoteWindow = 0
  · rw [if_pos (hzero.2 (.inl hclosed)), if_pos (by omega), stalledBy, if_pos hclosed]
    exact ⟨_, [], rfl, hwindow, rfl, rfl, nofun⟩
  by_cases hnone : d.streamRemoteWindow = 0
  · rw [if_pos (hzero.2 (.inr hnone)), if_neg (by omega), if_pos (Nat.le_of_eq hnone), stalledBy,
      if_neg hclosed, if_pos (by omega)]
    exact ⟨_, [], rfl, hwindow, rfl, rfl, nofun⟩
  · obtain ⟨remoteWindow', s', frames, hloop, hwindow', hframes⟩ :=
      flushDataLoop_spec t.maxFrameSize
      t.initialWindowSize.1 s.flowControlledBuffer.length hwindow s
    rw [if_neg (mt hzero.1 (by simp [hclosed, hnone])), hloop, stalledBy, if_neg hclosed,
      if_neg (by omega), map_some]
    refine ⟨_, frames, rfl, ?_⟩
    split <;> exact ⟨hwindow', rfl, rfl, hframes⟩

theorem right_flushed_iff (hwindow : 0 ≤ t.remoteWindow) {frames : List SentData}
    (hframes : ∀ x ∈ frames, (x.frame.payload.length : Int) ≤ min x.remoteWindow x.streamWindow) :
    (t.flushed s frames (t.stalledBy s)).Right ↔
      (0 < t.remoteWindow → 0 < s.window t.initialWindowSize.1 →
        s.window t.initialWindowSize.1 % 2 ^ 32 ≠ 0) := by
  have hnonneg : 0 ≤ s.window t.initialWindowSize.1 := le_max_left 0 _
  by_cases hclosed : t.remoteWindow = 0
  · rw [stalledBy, if_pos hclosed]
    refine ⟨fun _ hopen => absurd hclosed (Int.ne_of_gt hopen), fun _ => ⟨hframes, ?_, nofun, ?_⟩⟩
    · exact fun _ => Int.le_of_eq hclosed
    · exact ⟨nofun, fun hopen => absurd hclosed (Int.ne_of_gt hopen.1)⟩
  by_cases hcast : s.window t.initialWindowSize.1 % 2 ^ 32 = 0
  · rw [stalledBy, if_neg hclosed, if_pos hcast]
    constructor
    · intro h _ hpos _
      exact Int.ne_of_gt hpos (h.byStream rfl)
    · intro h
      have hzero : s.window t.initialWindowSize.1 = 0 := by
        omega
      refine ⟨hframes, nofun, fun _ => hzero, nofun, fun hopen => ?_⟩
      exact absurd hzero (Int.ne_of_gt hopen.2)
  · rw [stalledBy, if_neg hclosed, if_neg hcast]
    refine ⟨fun _ _ _ => hcast, fun _ => ⟨hframes, nofun, nofun, fun _ => ⟨?_, ?_⟩, fun _ => rfl⟩⟩
    · change 0 < t.remoteWindow
      omega
    · change 0 < s.window t.initialWindowSize.1
      omega

theorem Safe.flushData_iff (h : t.Safe) (hsent : s.sentInitialMetadata = true)
    (hbuffer : s.flowControlledBuffer ≠ []) :
    ∃ t', t.flushData s = some t' ∧
      (t'.Safe ↔ CastKeeps t.remoteWindow (s.remoteWindowDelta + t.initialWindowSize.1)) := by
  by_cases hfits : s.remoteWindowDelta + t.initialWindowSize.1 ≤ int64Max
  · obtain ⟨t', frames, hflush, hwindow, hflushes, hoverflow, hframes⟩ :=
      exists_flushData h.remoteWindow hsent hbuffer hfits
    have hright := right_flushed_iff (s := s) h.remoteWindow hframes
    refine ⟨t', hflush, fun h' => ⟨hfits, ?_⟩, fun hkeeps =>
      ⟨hwindow, ?_, hoverflow.trans h.overflow⟩⟩
    · intro hopen hpos
      have hmem : t.flushed s frames (t.stalledBy s) ∈ t'.flushes := by
        rw [hflushes]
        exact mem_append_right _ (mem_singleton_self _)
      have hcast := hright.1 (h'.flushes _ hmem) hopen
      rw [SendStream.window, max_eq_right (Int.le_of_lt hpos)] at hcast
      exact hcast hpos
    · rw [hflushes]
      refine forall_mem_append.2 ⟨h.flushes, forall_mem_singleton.2 (hright.2 ?_)⟩
      intro hopen hpos
      rw [SendStream.window] at hpos ⊢
      have hpos' : 0 < s.remoteWindowDelta + (t.initialWindowSize.1 : Int) := by omega
      rw [max_eq_right (Int.le_of_lt hpos')]
      exact hkeeps.2 hopen hpos'
  · refine ⟨{ t with overflow := true }, ?_, fun h' => ?_, fun hkeeps => absurd hkeeps.1 hfits⟩
    · rw [flushData, if_neg (not_not.2 hsent), if_neg (mt length_eq_zero_iff.1 hbuffer),
        if_pos (Int.not_le.1 hfits)]
    · cases h'.overflow

theorem flushData_of_idle (h : ¬ (s.sentInitialMetadata = true ∧ s.flowControlledBuffer ≠ [])) :
    t.flushData s = some t := by
  unfold flushData
  split
  · rfl
  · next hsent =>
    refine if_pos (length_eq_zero_iff.2 ?_)
    by_contra hbuffer
    exact h ⟨not_not.1 hsent, hbuffer⟩

theorem flushInitialMetadata_eq (s : SendStream) :
    s.flushInitialMetadata.remoteWindowDelta = s.remoteWindowDelta ∧
      s.flushInitialMetadata.flowControlledBuffer = s.flowControlledBuffer := by
  unfold SendStream.flushInitialMetadata
  split <;> exact ⟨rfl, rfl⟩

theorem Safe.writeStream (h : t.Safe) (s : SendStream) :
    ∃ t', t.writeStream s = some t' ∧
      (t'.Safe ↔ (s.flushInitialMetadata.sentInitialMetadata = true → s.flowControlledBuffer ≠ [] →
        CastKeeps t.remoteWindow (s.remoteWindowDelta + t.initialWindowSize.1))) := by
  obtain ⟨hdelta, hbuffer⟩ := flushInitialMetadata_eq s
  have hset : (t.setStream s.flushInitialMetadata).Safe := h.of_eq rfl rfl rfl
  by_cases hdata : s.flushInitialMetadata.sentInitialMetadata = true ∧ s.flowControlledBuffer ≠ []
  · obtain ⟨t', hflush, hiff⟩ := hset.flushData_iff hdata.1 (hbuffer ▸ hdata.2)
    rw [hdelta] at hiff
    exact ⟨t', hflush, hiff.trans ⟨fun hkeeps _ _ => hkeeps, fun hkeeps => hkeeps hdata.1 hdata.2⟩⟩
  · refine ⟨_, flushData_of_idle (by rwa [hbuffer]), fun _ hsent hne => ?_, fun _ => hset⟩
    exact absurd ⟨hsent, hne⟩ hdata

theorem not_safe_overflow (t : SendTransport) : ¬ Safe { t with overflow := true } :=
  fun h => Bool.noConfusion h.overflow

theorem Safe.transportUpdate (h : t.Safe) (receivedUpdate : WindowIncrement) :
    (t.windowUpdate 0 receivedUpdate.1).Safe ↔ t.Allowed (.windowUpdate 0 receivedUpdate) := by
  rw [windowUpdate, if_neg (not_not.2 rfl)]
  split
  · next hover =>
    exact ⟨fun h' => absurd h' (not_safe_overflow t),
      fun hfits => absurd hover (Int.not_lt.2 hfits)⟩
  · next hfits =>
    refine ⟨fun _ => Int.not_lt.1 hfits, fun _ => ⟨?_, h.flushes, h.overflow⟩⟩
    have hwindow := h.remoteWindow
    change 0 ≤ t.remoteWindow + (receivedUpdate.1 : Int)
    omega

variable {id : Nat} {e : SendEvent}

theorem Safe.streamUpdate (h : t.Safe) (hid : id ≠ 0) (receivedUpdate : WindowIncrement) :
    (t.windowUpdate id receivedUpdate.1).Safe ↔ t.Allowed (.windowUpdate id receivedUpdate) := by
  rw [windowUpdate, if_pos hid, Allowed, if_neg hid]
  cases t.streams id with
  | none => exact iff_of_true h nofun
  | some s =>
    simp only [Option.mem_def, some.injEq, forall_eq']
    split
    · next hover =>
      exact ⟨fun h' => absurd h' (not_safe_overflow t),
        fun hfits => absurd hover (Int.not_lt.2 hfits)⟩
    · next hfits =>
      refine ⟨fun _ => Int.not_lt.1 hfits, fun _ => ?_⟩
      split <;> exact h.of_eq rfl rfl rfl

theorem Safe.nextStream (h : t.Safe) {writable : List Nat}
    (hwritable : t.writable = id :: writable) (hs : t.streams id = some s) :
    ∃ t', t.step .nextStream = some t' ∧ (t'.Safe ↔ t.Allowed .nextStream) := by
  have hpop : Safe { t with writable := writable } := h.of_eq rfl rfl rfl
  obtain ⟨t', hstep, hiff⟩ := hpop.writeStream s
  refine ⟨t', ?_, hiff.trans ?_⟩
  · simp only [step, hwritable, hs, bind_some]
    exact hstep
  · rw [Allowed, hwritable, head?_cons]
    simp [hs]

theorem Safe.step_iff (h : t.Safe) (hstep : t.step e = some t') :
    t'.Safe ↔ t.Allowed e := by
  cases e with
  | windowUpdate id receivedUpdate =>
    cases hstep
    by_cases hid : id = 0
    · subst hid
      exact h.transportUpdate receivedUpdate
    · exact h.streamUpdate hid receivedUpdate
  | nextStream =>
    have hstep₀ := hstep
    rw [step] at hstep₀
    split at hstep₀
    · cases hstep₀
    · next id writable hwritable =>
      obtain ⟨s, hs, -⟩ := bind_eq_some_iff.1 hstep₀
      obtain ⟨t'', hstep', hiff⟩ := h.nextStream hwritable hs
      rwa [← some.inj (hstep'.symm.trans hstep)]
  | createStream id =>
    rw [step] at hstep
    split at hstep
    · cases hstep
    · cases hstep
      exact iff_of_true (h.of_eq rfl rfl rfl) trivial
  | removeStream id | sendInitialMetadata id | sendMessage id framed | sendTrailingMetadata id empty
  | markStreamWritable id =>
    obtain ⟨s, -, rfl⟩ := map_eq_some_iff.1 hstep
    exact iff_of_true (h.of_eq rfl rfl rfl) trivial
  | initialWindowSize value | maxFrameSize value =>
    cases hstep
    exact iff_of_true (h.of_eq rfl rfl rfl) trivial
  | endRead | startWrite =>
    rw [step] at hstep
    split at hstep <;> cases hstep <;> exact iff_of_true (h.of_eq rfl rfl rfl) trivial

theorem Safe.exists_step (h : t.Safe) (hbad : ¬ t.Allowed e) :
    ∃ t', t.step e = some t' := by
  cases e with
  | windowUpdate id receivedUpdate => exact ⟨_, rfl⟩
  | nextStream =>
    rw [Allowed] at hbad
    push Not at hbad
    obtain ⟨id, hid, s, hs, -⟩ := hbad
    obtain ⟨writable, hwritable⟩ := head?_eq_some_iff.1 hid
    obtain ⟨t', hstep, -⟩ := h.nextStream hwritable hs
    exact ⟨t', hstep⟩
  | _ => exact absurd trivial hbad

/-- A sender keeps to the windows of its peer, exactly as long as no counter overflows and no stream
with data is written while its window is a positive multiple of `2 ^ 32`. -/
theorem send_windows_safe_iff (events : List SendEvent) :
    (∀ pre t, pre <+: events → Run.run step {} pre = some t → t.Safe) ↔
      Run.Along step Allowed {} events := by
  constructor
  · intro h
    refine Run.along_of_property h (fun t e t' ht hallowed hstep => (ht.step_iff hstep).2 hallowed)
      (fun t e ht hbad => ?_) safe_init
    obtain ⟨t', hstep⟩ := ht.exists_step hbad
    exact ⟨t', hstep, mt (ht.step_iff hstep).1 hbad⟩
  · intro h pre t hpre hrun
    exact Run.run_invariant (h.mono hpre) hrun
      (fun t e t' ht hallowed hstep => (ht.step_iff hstep).2 hallowed) safe_init

/-- A stream gets two increments that add up to a window of `2 ^ 32` bytes, and a message: it is
stalled by its window. -/
theorem run_stalls_open_stream :
    ∃ t, Run.run step {}
        [.createStream 1, .sendInitialMetadata 1, .windowUpdate 1 ⟨2147483647, by decide⟩,
          .windowUpdate 1 ⟨2147418114, by decide⟩, .sendMessage 1 [0, 0, 0, 0, 1, 7],
          .markStreamWritable 1, .startWrite, .nextStream] = some t ∧
      t.stalledByStream = [1] ∧ t.remoteWindow = 65535 ∧
      (t.streams 1).map (·.window t.initialWindowSize.1) = some (2 ^ 32) ∧
      t.flushes = [⟨1, 65535, 2 ^ 32, [], some .stream⟩] :=
  ⟨_, rfl, by decide⟩

end SendTransport

end GrpcCore
