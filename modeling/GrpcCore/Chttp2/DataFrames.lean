import GrpcCore.Chttp2.FlowControlTotals
import GrpcCore.Chttp2.FrameParsers

/-!
# DATA frames and the window of the connection

`init_data_frame_parser` (`parsing.cc`) and `grpc_chttp2_data_parser_begin_frame` (`frame_data.cc`).
A DATA frame is charged to the window of the transport and to that of its stream. When the transport
knows the stream, every error is made an error of the stream: the stream is reset, the payload is
skipped, and the connection goes on.

`RecvData` charges the transport only after the check of the stream. A frame that overflows the
window of its stream (or that of the transport, when the stream is known) is therefore skipped
without being charged to the connection (`DataTransport.Charges`), while the peer has taken it off
its own window: from then on the two ends disagree (`Connection.Balanced`).

The bandwidth estimator, statistics of the transport and pings are left out. What the action of the
flow control makes the transport write is not modelled; the action is returned.
-/

namespace GrpcCore

open List FlowControl

/-- A DATA frame, of which the header matters here. -/
structure DataFrame where
  streamId : Nat
  size : Nat
  flags : UInt8 := 0
  deriving DecidableEq

/-- The fields of `grpc_chttp2_stream` that the start of a DATA frame touches. -/
structure DataStream where
  id : Nat
  flowControl : StreamFlowControl := {}
  readClosed : Bool := false
  writeClosed : Bool := false
  readClosedError : Option String := none
  receivedBytes : Nat := 0
  framingBytes : Nat := 0
  receivedLastFrame : Bool := false
  eosReceived : Bool := false

/-- The parser for the payload of the frame. -/
inductive PayloadParser where
  | skip
  | data
  deriving DecidableEq

/-- The fields of `grpc_chttp2_transport` that the start of a DATA frame touches. `resets` are the
streams whose RST_STREAM frames were added to the next write. -/
structure DataTransport where
  flowControl : TransportFlowControl := {}
  streamMap : List DataStream := []
  incomingStream : Option Nat := none
  parser : PayloadParser := .skip
  resets : List Nat := []

/-- `grpc_chttp2_data_parser_begin_frame`. -/
def DataStream.beginFrame (s : DataStream) (flags : UInt8) : Except String DataStream :=
  if flags &&& ~~~1 ≠ 0 then
    .error ("unsupported data flags: 0x" ++ hexDigits 2 flags.toNat ++ " stream: " ++ toString s.id)
  else if flags &&& 1 ≠ 0 then .ok { s with receivedLastFrame := true, eosReceived := true }
  else .ok { s with receivedLastFrame := false }

namespace DataTransport

/-- `grpc_chttp2_parsing_lookup_stream`. -/
def lookupStream (t : DataTransport) (id : Nat) : Option DataStream :=
  t.streamMap.find? (·.id = id)

def updateStream (t : DataTransport) (s : DataStream) : DataTransport :=
  { t with streamMap := t.streamMap.map fun s' => if s'.id = s.id then s else s' }

def removeStream (t : DataTransport) (id : Nat) : DataTransport :=
  { t with
    streamMap := t.streamMap.filter (·.id ≠ id)
    incomingStream := if t.incomingStream = some id then none else t.incomingStream }

/-- `grpc_chttp2_mark_stream_closed` for the reading side. -/
def markReadClosed (t : DataTransport) (s : DataStream) (error : String) : DataTransport :=
  if s.readClosed ∧ s.writeClosed then t
  else
    let t :=
      if s.readClosed then t
      else t.updateStream { s with readClosed := true, readClosedError := some error }
    if s.writeClosed then t.removeStream s.id else t

/-- The error of a stream: it is closed for reading and reset, and the payload is skipped. -/
def streamError (t : DataTransport) (s : DataStream) (error : String) : DataTransport :=
  let t := t.markReadClosed s error
  { t with resets := t.resets ++ [s.id], parser := .skip }

/-- The part of `init_data_frame_parser` for a known stream. -/
def initKnownDataFrame (t : DataTransport) (s : DataStream) (f : DataFrame) :
    FlowControlAction × DataTransport :=
  match s.flowControl.recvData t.flowControl f.size with
  | .error e => (s.flowControl.makeAction t.flowControl, t.streamError s e.message)
  | .ok (fc, sfc) =>
    let s := { s with
      flowControl := sfc
      receivedBytes := s.receivedBytes + f.size
      framingBytes := s.framingBytes + 9 }
    let t := { t with flowControl := fc }.updateStream s
    (sfc.makeAction fc,
      if s.readClosed then { t with parser := .skip }
      else
        match s.beginFrame f.flags with
        | .error e => t.streamError s e
        | .ok s => { t.updateStream s with incomingStream := some s.id, parser := .data })

/-- `init_data_frame_parser`. An error is an error of the connection. -/
def initDataFrameParser (t : DataTransport) (f : DataFrame) :
    FlowControlAction × Except WindowOverflow DataTransport :=
  match t.lookupStream f.streamId with
  | none =>
    match t.flowControl.recvData f.size with
    | .error e => (t.flowControl.updateAction {}, .error e)
    | .ok fc => (fc.updateAction {}, .ok { t with flowControl := fc, parser := .skip })
  | some s =>
    let r := t.initKnownDataFrame s f
    (r.1, .ok r.2)

/-! ## What a frame is charged -/

/-- A frame is charged when it is empty, when its stream is not known, or when it fits the windows
of the transport and of the stream. -/
def Charges (t : DataTransport) (f : DataFrame) : Prop :=
  f.size = 0 ∨ ∀ s, t.lookupStream f.streamId = some s →
    (f.size : Int) ≤ t.flowControl.announcedWindow ∧
      (f.size : Int) ≤ s.flowControl.announcedWindowDelta + t.flowControl.ackedInitWindow

variable {t t' : DataTransport} {s : DataStream} {f : DataFrame} {a : FlowControlAction}

theorem flowControl_markReadClosed (e : String) :
    (t.markReadClosed s e).flowControl = t.flowControl := by
  unfold markReadClosed updateStream removeStream
  split_ifs <;> rfl

theorem flowControl_streamError (e : String) : (t.streamError s e).flowControl = t.flowControl :=
  flowControl_markReadClosed e

theorem initKnownDataFrame_of_le (ht : (f.size : Int) ≤ t.flowControl.announcedWindow)
    (hs : (f.size : Int) ≤ s.flowControl.announcedWindowDelta + t.flowControl.ackedInitWindow) :
    (t.initKnownDataFrame s f).2.flowControl.announcedWindow =
      t.flowControl.announcedWindow - f.size := by
  unfold initKnownDataFrame
  rw [StreamFlowControl.recvData_of_le ht hs]
  simp only
  split
  · rfl
  · split
    · rw [flowControl_streamError]
      rfl
    · rfl

theorem initKnownDataFrame_of_lt (h : t.flowControl.announcedWindow < f.size ∨
    s.flowControl.announcedWindowDelta + t.flowControl.ackedInitWindow < f.size) :
    (t.initKnownDataFrame s f).2.flowControl = t.flowControl := by
  unfold initKnownDataFrame
  obtain ⟨e, he⟩ := StreamFlowControl.recvData_error h
  rw [he]
  exact flowControl_streamError e.message

theorem announcedWindow_eq_iff (h : t.initDataFrameParser f = (a, .ok t')) :
    t'.flowControl.announcedWindow = t.flowControl.announcedWindow - f.size ↔ t.Charges f := by
  unfold initDataFrameParser at h
  unfold Charges
  cases hs : t.lookupStream f.streamId with
  | none =>
    rw [hs] at h
    simp only [TransportFlowControl.recvData] at h
    split_ifs at h
    · cases h
    · cases h
      exact iff_of_true rfl (.inr fun s hs => nomatch hs)
  | some s =>
    rw [hs] at h
    cases h
    simp only [Option.some.injEq, forall_eq']
    by_cases hle : (f.size : Int) ≤ t.flowControl.announcedWindow ∧
        (f.size : Int) ≤ s.flowControl.announcedWindowDelta + t.flowControl.ackedInitWindow
    · exact iff_of_true (initKnownDataFrame_of_le hle.1 hle.2) (.inr hle)
    · rw [initKnownDataFrame_of_lt (by omega), or_iff_left hle]
      omega

/-- Only a known stream's frame goes uncharged, and it does not close the connection. -/
theorem exists_of_not_charges (h : ¬ t.Charges f) :
    ∃ a t', t.initDataFrameParser f = (a, .ok t') := by
  unfold initDataFrameParser
  cases hs : t.lookupStream f.streamId with
  | none => exact absurd (.inr fun s h => nomatch hs.symm.trans h) h
  | some s => exact ⟨_, _, rfl⟩

end DataTransport

/-! ## Both ends of the connection -/

/-- A transport, the window that its peer may still use, and what is on its way: DATA frames to the
transport, and WINDOW_UPDATE frames to the peer. -/
structure Connection where
  transport : DataTransport := {}
  peerWindow : Int := kDefaultWindow
  data : List DataFrame := []
  updates : List Int := []

/-- `other` is any change of the transport that leaves its own window: streams that are opened and
closed, their updates, new settings. -/
inductive ConnectionStep where
  | send (f : DataFrame)
  | receive
  | announce (writingAnyway : Bool)
  | update
  | other (t : DataTransport)

namespace Connection

/-- One step. It is `none` when it cannot be taken, or the transport closes the connection. -/
def step (c : Connection) : ConnectionStep → Option Connection
  | .send f =>
    if (f.size : Int) ≤ c.peerWindow then
      some { c with peerWindow := c.peerWindow - f.size, data := c.data ++ [f] }
    else none
  | .receive =>
    match c.data with
    | [] => none
    | f :: data =>
      match (c.transport.initDataFrameParser f).2 with
      | .error _ => none
      | .ok t => some { c with transport := t, data }
  | .announce writingAnyway =>
    let r := c.transport.flowControl.maybeSendUpdate writingAnyway
    some { c with
      transport := { c.transport with flowControl := r.2 }
      updates := c.updates ++ [r.1] }
  | .update =>
    match c.updates with
    | [] => none
    | n :: updates => some { c with peerWindow := c.peerWindow + n, updates }
  | .other t =>
    if t.flowControl.announcedWindow = c.transport.flowControl.announcedWindow then
      some { c with transport := t }
    else none

/-- The window that the transport has announced is the peer's window and what is on its way. -/
def Balanced (c : Connection) : Prop :=
  c.transport.flowControl.announcedWindow =
    c.peerWindow + (c.data.map fun f => (f.size : Int)).sum + c.updates.sum

def Charged (c : Connection) : ConnectionStep → Prop
  | .receive => ∀ f data, c.data = f :: data → c.transport.Charges f
  | _ => True

variable {c c' : Connection} {a : ConnectionStep}

theorem step_receive (h : c.step .receive = some c') :
    ∃ f data a t, c.data = f :: data ∧ c.transport.initDataFrameParser f = (a, .ok t) ∧
      c' = { c with transport := t, data } := by
  unfold step at h
  simp only at h
  split at h
  · cases h
  · next f data hdata =>
    split at h
    · cases h
    · next t ht =>
      cases h
      exact ⟨f, data, _, t, hdata, Prod.ext rfl ht, rfl⟩

theorem Balanced.step (h : c.Balanced) (hG : c.Charged a) (hs : c.step a = some c') :
    c'.Balanced := by
  unfold Balanced at h ⊢
  cases a with
  | send f =>
    unfold Connection.step at hs
    simp only at hs
    split_ifs at hs
    cases hs
    simp only [map_append, sum_append, map_cons, map_nil, sum_singleton]
    omega
  | receive =>
    obtain ⟨f, data, a, t, hdata, ht, rfl⟩ := step_receive hs
    have hcharged := (DataTransport.announcedWindow_eq_iff ht).2 (hG f data hdata)
    rw [hdata, map_cons, sum_cons] at h
    simp only
    omega
  | announce writingAnyway =>
    cases hs
    obtain ⟨-, heq⟩ := TransportFlowControl.maybeSendUpdate_eq
      (Prod.eta (c.transport.flowControl.maybeSendUpdate writingAnyway)).symm
    simp only [sum_append, sum_singleton]
    rw [heq]
    simp only
    omega
  | update =>
    unfold Connection.step at hs
    simp only at hs
    split at hs
    · cases hs
    · next n updates hupdates =>
      cases hs
      rw [hupdates, sum_cons] at h
      simp only
      omega
  | other t =>
    unfold Connection.step at hs
    simp only at hs
    split_ifs at hs with heq
    cases hs
    simp only [heq]
    exact h

theorem Balanced.not_step (h : c.Balanced) (hG : ¬ c.Charged a) :
    ∃ c', c.step a = some c' ∧ ¬ c'.Balanced := by
  cases a with
  | receive =>
    simp only [Charged, not_forall] at hG
    obtain ⟨f, data, hdata, hf⟩ := hG
    obtain ⟨a, t, ht⟩ := DataTransport.exists_of_not_charges hf
    refine ⟨{ c with transport := t, data }, ?_, fun h' => ?_⟩
    · simp only [Connection.step, hdata, ht]
    · have hne := mt (DataTransport.announcedWindow_eq_iff ht).1 hf
      unfold Balanced at h h'
      rw [hdata, map_cons, sum_cons] at h
      simp only at h'
      omega
  | send | announce | update | other => exact absurd trivial hG

/-- A DATA frame that does not cause a connection error is taken off the window of the connection
exactly when it is charged, and the window stays the peer's window and what is on its way exactly in
the runs whose frames are all charged. -/
theorem window_accounting_iff (steps : List ConnectionStep) :
    (∀ t f a t', DataTransport.initDataFrameParser t f = (a, .ok t') →
      (t'.flowControl.announcedWindow = t.flowControl.announcedWindow - f.size ↔ t.Charges f)) ∧
    ((∀ pre c, pre <+: steps → Run.run step {} pre = some c → c.Balanced) ↔
      Run.Along step Charged {} steps) := by
  have hinit : Balanced {} := rfl
  refine ⟨fun t f a t' h => DataTransport.announcedWindow_eq_iff h, fun h => ?_, ?_⟩
  · exact Run.along_of_property h (fun _ _ _ hb hG hs => hb.step hG hs)
      (fun _ _ hb hG => hb.not_step hG) hinit
  · intro h pre c hpre hrun
    exact Run.run_invariant (h.mono hpre) hrun (fun _ _ _ hb hG hs => hb.step hG hs) hinit

/-- The peer sends 60000 bytes to a stream, gets the window of the connection back, and sends 10000
bytes that the stream has no window for. The stream is reset and the frame is skipped. Nothing is on
its way, and the transport has announced 10000 bytes more than the peer knows of. -/
theorem overflowing_frame_not_charged :
    (Run.run step {}
      [.other { streamMap := [{ id := 1 }] }, .send ⟨1, 60000, 0⟩, .receive,
        .announce true, .update, .send ⟨1, 10000, 0⟩, .receive]).map
      (fun c => (c.transport.resets, c.data, c.updates, c.transport.flowControl.announcedWindow,
        c.peerWindow)) = some ([1], [], [], 65535, 55535) := by
  decide +kernel

end Connection

end GrpcCore
