import GrpcCore.Chttp2.FlowControl
import GrpcCore.Lib.Run
import Mathlib.Algebra.BigOperators.Group.List.Basic
import Mathlib.Algebra.Ring.Int.Defs

/-!
# Flow control between two endpoints

A receiver and a sender of DATA frames with the two FIFO channels between them. The receiver reads
its streams, announces windows and changes the initial window one SETTINGS frame at a time; the
sender keeps within the windows it knows of (`DataSendContext::max_outgoing`, `writing.cc`).

`Pair.Balanced` is the account of what is on its way: windows are conserved between the sender's
counters, the frames in flight and the receiver's counters, and every DATA frame in flight fits the
window that the receiver will have acknowledged by the time it arrives. The one frame that is
refused all the same is an empty one on a stream whose window a smaller initial window has made
negative (`Pair.RefusesEmpty`).
-/

namespace GrpcCore

open List Option FlowControl

/-- Frames from the receiver of data to its sender. -/
inductive ToSender where
  | windowUpdate (size : Int)
  | streamWindowUpdate (id : Nat) (size : Int)
  | settings (initialWindowSize : Nat)

/-- Frames from the sender of data to its receiver. -/
inductive ToReceiver where
  | data (id : Nat) (size : Nat)
  | settingsAck
  deriving DecidableEq

/-- The flow control of an endpoint, and the initial window of its peer's settings. -/
structure Endpoint where
  tfc : TransportFlowControl := {}
  sfc : Nat → StreamFlowControl := fun _ => {}
  peerInitialWindow : Nat := kDefaultWindow

/-- The two endpoints. `unacked` is the initial window of the SETTINGS frame that has not been
acknowledged, and `errors` are those that `RecvData` has returned. -/
structure Pair where
  receiver : Endpoint := {}
  sender : Endpoint := {}
  unacked : Option Nat := none
  toSender : List ToSender := []
  toReceiver : List ToReceiver := []
  errors : List WindowOverflow := []

inductive PairStep where
  | setMinProgressSize (id : Nat) (size : Int)
  | setPendingSize (id : Nat) (size : Int)
  | periodicUpdate (target : Nat)
  | maybeSendUpdate (writingAnyway : Bool)
  | maybeSendStreamUpdate (id : Nat)
  | sendSettings (initialWindowSize : Nat)
  | sendData (id size : Nat)
  | senderReceives
  | receiverReceives

namespace Endpoint

def setStream (e : Endpoint) (id : Nat) (s : StreamFlowControl) : Endpoint :=
  { e with sfc := Function.update e.sfc id s }

@[simp] theorem setStream_tfc (e : Endpoint) (id : Nat) (s : StreamFlowControl) :
    (e.setStream id s).tfc = e.tfc := rfl

@[simp] theorem setStream_sfc (e : Endpoint) (id i : Nat) (s : StreamFlowControl) :
    (e.setStream id s).sfc i = if i = id then s else e.sfc i :=
  Function.update_apply e.sfc id s i

@[simp] theorem setStream_self (e : Endpoint) (id : Nat) : e.setStream id (e.sfc id) = e := by
  simp [setStream]

/-- The smaller of the two windows that `max_outgoing` takes, which are not negative there. -/
def maxOutgoing (e : Endpoint) (id : Nat) : Int :=
  min (max 0 ((e.sfc id).remoteWindowDelta + e.peerInitialWindow)) e.tfc.remoteWindow

end Endpoint

namespace Pair

def senderReceives (p : Pair) : Option Pair :=
  match p.toSender with
  | [] => none
  | .windowUpdate n :: q =>
    some { p with
      toSender := q, sender := { p.sender with tfc := p.sender.tfc.recvUpdate n } }
  | .streamWindowUpdate id n :: q =>
    some { p with
      toSender := q, sender := p.sender.setStream id ((p.sender.sfc id).recvUpdate n) }
  | .settings w :: q =>
    some { p with
      toSender := q
      sender := { p.sender with peerInitialWindow := w }
      toReceiver := p.toReceiver ++ [.settingsAck] }

def receiverReceives (p : Pair) : Option Pair :=
  match p.toReceiver with
  | [] => none
  | .data id n :: q =>
    match (p.receiver.sfc id).recvData p.receiver.tfc n with
    | .ok (tfc, sfc) =>
      some { p with
        toReceiver := q, receiver := { p.receiver.setStream id sfc with tfc := tfc } }
    | .error e => some { p with toReceiver := q, errors := p.errors ++ [e] }
  | .settingsAck :: q =>
    p.unacked.map fun w =>
      { p with
        toReceiver := q
        unacked := none
        receiver := { p.receiver with tfc := (p.receiver.tfc.setAckedInitialWindow w).1 } }

/-- One step; `none` where it is not enabled or fails an assertion. -/
def step (p : Pair) : PairStep → Option Pair
  | .setMinProgressSize id size =>
    let sfc := (p.receiver.sfc id).setMinProgressSize size
    some { p with receiver := p.receiver.setStream id sfc }
  | .setPendingSize id size =>
    ((p.receiver.sfc id).setPendingSize size).map fun sfc =>
      { p with receiver := p.receiver.setStream id sfc }
  | .periodicUpdate target =>
    some { p with receiver := { p.receiver with tfc := (p.receiver.tfc.periodicUpdate target).1 } }
  | .maybeSendUpdate writingAnyway =>
    let (n, tfc) := p.receiver.tfc.maybeSendUpdate writingAnyway
    some { p with
      receiver := { p.receiver with tfc := tfc }
      toSender := p.toSender ++ if n = 0 then [] else [.windowUpdate n] }
  | .maybeSendStreamUpdate id =>
    ((p.receiver.sfc id).maybeSendUpdate p.receiver.tfc).map fun (n, tfc, sfc) =>
      { p with
        receiver := { p.receiver.setStream id sfc with tfc := tfc }
        toSender := p.toSender ++ if n = 0 then [] else [.streamWindowUpdate id n] }
  | .sendSettings w =>
    if p.unacked = none then
      some { p with unacked := some w, toSender := p.toSender ++ [.settings w] }
    else none
  | .sendData id n =>
    if n ≤ p.sender.maxOutgoing id then
      let sfc := (p.sender.sfc id).sentData n
      let tfc := p.sender.tfc.streamSentData n
      some { p with
        sender := { p.sender.setStream id sfc with tfc := tfc }
        toReceiver := p.toReceiver ++ [.data id n] }
    else none
  | .senderReceives => p.senderReceives
  | .receiverReceives => p.receiverReceives

end Pair

/-! ## What is on its way -/

/-- What the frames of a channel add up to. -/
def inFlight {α : Type*} (size : α → Int) (q : List α) : Int := (q.map size).sum

section
variable {α : Type*} (size : α → Int)

@[simp] theorem inFlight_nil : inFlight size [] = 0 := rfl

@[simp] theorem inFlight_cons (a : α) (q : List α) :
    inFlight size (a :: q) = size a + inFlight size q := rfl

@[simp] theorem inFlight_append (q r : List α) :
    inFlight size (q ++ r) = inFlight size q + inFlight size r := by
  simp [inFlight]

theorem inFlight_nonneg {q : List α} (h : ∀ a ∈ q, 0 ≤ size a) : 0 ≤ inFlight size q := by
  induction q with
  | nil => exact Int.le_refl 0
  | cons a q ih =>
    rw [forall_mem_cons] at h
    exact Int.add_nonneg h.1 (ih h.2)

end

@[simp] def ToReceiver.bytes : ToReceiver → Int
  | .data _ n => n
  | .settingsAck => 0

/-- The bytes of a DATA frame of the stream `id`. -/
@[simp] def ToReceiver.bytesOf (id : Nat) : ToReceiver → Int
  | .data i n => if i = id then n else 0
  | .settingsAck => 0

@[simp] def ToSender.bytes : ToSender → Int
  | .windowUpdate n => n
  | _ => 0

/-- The bytes of a WINDOW_UPDATE frame of the stream `id`. -/
@[simp] def ToSender.bytesOf (id : Nat) : ToSender → Int
  | .streamWindowUpdate i n => if i = id then n else 0
  | _ => 0

/-- The initial window of a SETTINGS frame. -/
@[simp] def ToSender.initialWindow? : ToSender → Option Nat
  | .settings w => some w
  | _ => none

namespace Pair

/-- Windows are conserved, on the transport and on every stream. -/
structure Conserves (p : Pair) : Prop where
  transport : p.sender.tfc.remoteWindow + inFlight ToReceiver.bytes p.toReceiver +
    inFlight ToSender.bytes p.toSender = p.receiver.tfc.announcedWindow
  stream : ∀ id, (p.sender.sfc id).remoteWindowDelta +
    inFlight (ToReceiver.bytesOf id) p.toReceiver + inFlight (ToSender.bytesOf id) p.toSender =
      (p.receiver.sfc id).announcedWindowDelta

/-- The step delivers an empty DATA frame on a stream whose window is negative. -/
def RefusesEmpty (p : Pair) (step : PairStep) : Prop :=
  step = .receiverReceives ∧ ∃ id q, p.toReceiver = .data id 0 :: q ∧
    (p.receiver.sfc id).announcedWindowDelta + p.receiver.tfc.ackedInitWindow < 0

/-- The initial window that the receiver goes by once it has received `q`. -/
def ackedAfter (p : Pair) (q : List ToReceiver) : Nat :=
  if .settingsAck ∈ q then p.unacked.getD 0 else p.receiver.tfc.ackedInitWindow

/-- Where the one SETTINGS frame is: nowhere, on its way, or on its way back as an
acknowledgement. -/
inductive Handshake (p : Pair) : Prop where
  | idle (h : p.unacked = none) (hs : p.toSender.filterMap ToSender.initialWindow? = [])
      (ha : p.toReceiver.count .settingsAck = 0)
      (hw : p.sender.peerInitialWindow = p.receiver.tfc.ackedInitWindow)
  | sent (w : Nat) (h : p.unacked = some w)
      (hs : p.toSender.filterMap ToSender.initialWindow? = [w])
      (ha : p.toReceiver.count .settingsAck = 0)
      (hw : p.sender.peerInitialWindow = p.receiver.tfc.ackedInitWindow)
  | acked (w : Nat) (h : p.unacked = some w)
      (hs : p.toSender.filterMap ToSender.initialWindow? = [])
      (ha : p.toReceiver.count .settingsAck = 1) (hw : p.sender.peerInitialWindow = w)

/-- Every DATA frame in flight that is not empty fits the window that its stream will have left
when it arrives. -/
def Fits (p : Pair) : Prop :=
  ∀ before id (n : Nat) after, p.toReceiver = before ++ .data id n :: after → 0 < n →
    n + inFlight (ToReceiver.bytesOf id) before ≤
      (p.receiver.sfc id).announcedWindowDelta + p.ackedAfter before

structure Balanced (p : Pair) : Prop extends p.Conserves where
  remote_nonneg : 0 ≤ p.sender.tfc.remoteWindow
  updates_nonneg : ∀ f ∈ p.toSender, 0 ≤ f.bytes ∧ ∀ id, 0 ≤ f.bytesOf id
  handshake : p.Handshake
  fits : p.Fits

/-! ## The steps keep the account -/

variable {p p' : Pair}

theorem Handshake.of_eq (h : p.Handshake) (hu : p'.unacked = p.unacked)
    (hs : p'.toSender.filterMap ToSender.initialWindow? =
      p.toSender.filterMap ToSender.initialWindow?)
    (ha : p'.toReceiver.count .settingsAck = p.toReceiver.count .settingsAck)
    (hp : p'.sender.peerInitialWindow = p.sender.peerInitialWindow)
    (hr : p'.receiver.tfc.ackedInitWindow = p.receiver.tfc.ackedInitWindow) : p'.Handshake := by
  cases h with
  | idle h hs' ha' hw =>
    exact .idle (hu.trans h) (hs.trans hs') (ha.trans ha') (by rw [hp, hr, hw])
  | sent w h hs' ha' hw =>
    exact .sent w (hu.trans h) (hs.trans hs') (ha.trans ha') (by rw [hp, hr, hw])
  | acked w h hs' ha' hw =>
    exact .acked w (hu.trans h) (hs.trans hs') (ha.trans ha') (hp.trans hw)

theorem Fits.mono (h : p.Fits) (hq : p'.toReceiver = p.toReceiver) (hu : p'.unacked = p.unacked)
    (hr : p'.receiver.tfc.ackedInitWindow = p.receiver.tfc.ackedInitWindow)
    (hd : ∀ id, (p.receiver.sfc id).announcedWindowDelta ≤
      (p'.receiver.sfc id).announcedWindowDelta) : p'.Fits := by
  intro before id n after heq hn
  have hfit := h before id n after (hq ▸ heq) hn
  have hid := hd id
  unfold ackedAfter at hfit ⊢
  rw [hu, hr]
  omega

theorem Fits.concat (h : p.Fits) {f : ToReceiver} (hq : p'.toReceiver = p.toReceiver ++ [f])
    (hu : p'.unacked = p.unacked) (hr : p'.receiver = p.receiver)
    (hf : ∀ id n, f = .data id n → 0 < n → n + inFlight (ToReceiver.bytesOf id) p.toReceiver ≤
      (p.receiver.sfc id).announcedWindowDelta + p.ackedAfter p.toReceiver) : p'.Fits := by
  intro before id n after heq hn
  unfold ackedAfter at hf ⊢
  rw [hu, hr]
  rw [hq] at heq
  rcases eq_nil_or_concat after with rfl | ⟨rest, last, rfl⟩
  · obtain ⟨rfl, hlast⟩ := append_inj' heq rfl
    exact hf id n (List.cons.inj hlast).1 hn
  · rw [concat_eq_append, ← cons_append, ← append_assoc] at heq
    exact h before id n rest (append_inj' heq rfl).1 hn

theorem Balanced.announce (h : p.Balanced) {fs : List ToSender} (hsnd : p'.sender = p.sender)
    (hq : p'.toReceiver = p.toReceiver) (hu : p'.unacked = p.unacked)
    (hr : p'.receiver.tfc.ackedInitWindow = p.receiver.tfc.ackedInitWindow)
    (hs : p'.toSender = p.toSender ++ fs)
    (hfs : ∀ f ∈ fs, (0 ≤ f.bytes ∧ ∀ id, 0 ≤ f.bytesOf id) ∧ f.initialWindow? = none)
    (ht : p'.receiver.tfc.announcedWindow =
      p.receiver.tfc.announcedWindow + inFlight ToSender.bytes fs)
    (hd : ∀ id, (p'.receiver.sfc id).announcedWindowDelta =
      (p.receiver.sfc id).announcedWindowDelta + inFlight (ToSender.bytesOf id) fs) :
    p'.Balanced where
  transport := by
    rw [hsnd, hq, hs, ht, ← h.transport, inFlight_append]
    omega
  stream id := by
    rw [hsnd, hq, hs, hd, ← h.stream id, inFlight_append]
    omega
  remote_nonneg := by
    rw [hsnd]
    exact h.remote_nonneg
  updates_nonneg := by
    rw [hs]
    exact forall_mem_append.2 ⟨h.updates_nonneg, fun f hf => (hfs f hf).1⟩
  handshake := by
    refine h.handshake.of_eq hu ?_ (by rw [hq]) (by rw [hsnd]) hr
    rw [hs, filterMap_append, filterMap_eq_nil_iff.2 fun f hf => (hfs f hf).2,
      append_nil]
  fits := by
    refine h.fits.mono hq hu hr fun id => ?_
    have := inFlight_nonneg (ToSender.bytesOf id) fun f hf => (hfs f hf).1.2 id
    rw [hd]
    omega

theorem Balanced.setReceiver (h : p.Balanced) {r : Endpoint}
    (hr : r.tfc.ackedInitWindow = p.receiver.tfc.ackedInitWindow)
    (ht : r.tfc.announcedWindow = p.receiver.tfc.announcedWindow)
    (hd : ∀ id, (r.sfc id).announcedWindowDelta = (p.receiver.sfc id).announcedWindowDelta) :
    Balanced { p with receiver := r } :=
  h.announce rfl rfl rfl hr (append_nil _).symm (by simp) (by simpa using ht)
    (by simpa using hd)

variable {id n w : Nat} {s : PairStep} {q : List ToReceiver}

theorem Balanced.setStream (h : p.Balanced) {s : StreamFlowControl}
    (hs : s.announcedWindowDelta = (p.receiver.sfc id).announcedWindowDelta) :
    Balanced { p with receiver := p.receiver.setStream id s } := by
  refine h.setReceiver rfl rfl fun i => ?_
  rw [Endpoint.setStream_sfc]
  split
  · next heq => rw [hs, heq]
  · rfl

theorem Balanced.maybeSendUpdate (h : p.Balanced) {writingAnyway : Bool}
    (hstep : p.step (.maybeSendUpdate writingAnyway) = some p') : p'.Balanced := by
  rcases hsend : p.receiver.tfc.maybeSendUpdate writingAnyway with ⟨n, tfc⟩
  obtain ⟨hn, rfl⟩ := TransportFlowControl.maybeSendUpdate_eq hsend
  simp only [step, hsend] at hstep
  cases hstep
  refine h.announce rfl rfl rfl rfl rfl (fun f hf => ?_) ?_ fun id => ?_
  · split at hf
    · cases hf
    · obtain rfl := mem_singleton.1 hf
      exact ⟨⟨hn, fun _ => Int.le_refl 0⟩, rfl⟩
  · split
    · next h0 => simp [h0]
    · simp
  · split <;> simp

theorem Balanced.maybeSendStreamUpdate (h : p.Balanced)
    (hstep : p.step (.maybeSendStreamUpdate id) = some p') : p'.Balanced := by
  obtain ⟨⟨n, tfc, sfc⟩, hsend, hstep⟩ := map_eq_some_iff.1 hstep
  obtain ⟨hn, rfl, rfl, -⟩ := StreamFlowControl.maybeSendUpdate_some hsend
  clear hsend
  subst hstep
  refine h.announce rfl rfl rfl rfl rfl (fun f hf => ?_) ?_ fun i => ?_
  · split at hf
    · cases hf
    · obtain rfl := mem_singleton.1 hf
      refine ⟨⟨Int.le_refl 0, fun i => ?_⟩, rfl⟩
      simp only [ToSender.bytesOf]
      split
      · exact hn
      · exact Int.le_refl 0
  · simp only [TransportFlowControl.withTotal]
    split <;> simp
  · simp only [Endpoint.setStream_sfc]
    rcases eq_or_ne i id with rfl | hne
    · rw [if_pos rfl]
      split
      · next h0 => simp [h0]
      · simp
    · rw [if_neg hne]
      split <;> simp [hne.symm]

theorem Balanced.sendSettings (h : p.Balanced)
    (hstep : p.step (.sendSettings w) = some p') : p'.Balanced := by
  simp only [step] at hstep
  split at hstep
  · next hidle =>
    cases hstep
    refine ⟨⟨?_, fun id => ?_⟩, h.remote_nonneg, ?_, ?_, ?_⟩
    · simpa using h.transport
    · simpa using h.stream id
    · refine forall_mem_append.2 ⟨h.updates_nonneg, ?_⟩
      simp
    · cases h.handshake with
      | idle _ hs ha hw => exact .sent w rfl (by simp [hs]) ha hw
      | sent w h => simp [hidle] at h
      | acked w h => simp [hidle] at h
    · -- no acknowledgement is in flight, so the value it would bring is not used
      intro before id n after heq hn
      have hfit := h.fits before id n after heq hn
      have hno : .settingsAck ∉ before := fun hmem => by
        have hcount : p.toReceiver.count .settingsAck = 0 := by
          cases h.handshake with
          | idle _ _ ha _ => exact ha
          | sent _ _ _ ha _ => exact ha
          | acked w h => simp [hidle] at h
        exact count_eq_zero.1 hcount (heq ▸ mem_append_left _ hmem)
      unfold ackedAfter at hfit ⊢
      rw [if_neg hno] at hfit ⊢
      exact hfit
  · cases hstep

/-- Once the receiver has received everything in flight it goes by the initial window that the
sender knows. -/
theorem Handshake.ackedAfter_toReceiver (h : p.Handshake) :
    p.ackedAfter p.toReceiver = p.sender.peerInitialWindow := by
  unfold ackedAfter
  cases h with
  | idle _ _ ha hw => rw [if_neg (count_eq_zero.1 ha), hw]
  | sent _ _ _ ha hw => rw [if_neg (count_eq_zero.1 ha), hw]
  | acked w h _ ha hw =>
    rw [if_pos (count_pos_iff.1 (by omega)), h, hw]
    rfl

theorem Balanced.sendData (h : p.Balanced)
    (hstep : p.step (.sendData id n) = some p') : p'.Balanced := by
  simp only [step] at hstep
  split at hstep
  · next hmax =>
    cases hstep
    unfold Endpoint.maxOutgoing at hmax
    refine ⟨⟨?_, fun i => ?_⟩, ?_, h.updates_nonneg, ?_, ?_⟩
    · rw [← h.transport]
      simp only [TransportFlowControl.streamSentData, inFlight_append, inFlight_cons,
        ToReceiver.bytes, inFlight_nil]
      omega
    · rw [← h.stream i]
      simp only [Endpoint.setStream_sfc, inFlight_append, inFlight_cons, ToReceiver.bytesOf,
        inFlight_nil]
      rcases eq_or_ne i id with rfl | hne
      · rw [if_pos rfl, if_pos rfl]
        simp only [StreamFlowControl.sentData]
        omega
      · rw [if_neg hne, if_neg hne.symm]
        omega
    · simp only [TransportFlowControl.streamSentData]
      omega
    · exact h.handshake.of_eq rfl rfl (by simp) rfl rfl
    · refine h.fits.concat rfl rfl rfl ?_
      rintro _ _ ⟨⟩ hpos
      have hs := h.stream id
      have hup := inFlight_nonneg (ToSender.bytesOf id) fun f hf => (h.updates_nonneg f hf).2 id
      rw [h.handshake.ackedAfter_toReceiver]
      omega
  · cases hstep

theorem Balanced.senderReceives (h : p.Balanced)
    (hstep : p.step .senderReceives = some p') : p'.Balanced := by
  simp only [step, Pair.senderReceives] at hstep
  have hup := h.updates_nonneg
  have ht := h.transport
  have hs := h.stream
  split at hstep
  · cases hstep
  · next n q hq =>
    cases hstep
    rw [hq] at hup ht hs
    rw [forall_mem_cons] at hup
    refine ⟨⟨?_, fun id => ?_⟩, Int.add_nonneg h.remote_nonneg hup.1.1, hup.2, ?_, ?_⟩
    · rw [← ht]
      simp only [TransportFlowControl.recvUpdate, inFlight_cons, ToSender.bytes]
      omega
    · simpa using hs id
    · exact h.handshake.of_eq rfl (by rw [hq]; rfl) rfl rfl rfl
    · exact h.fits.mono rfl rfl rfl fun _ => Int.le_refl _
  · next id n q hq =>
    cases hstep
    rw [hq] at hup ht hs
    rw [forall_mem_cons] at hup
    refine ⟨⟨?_, fun i => ?_⟩, h.remote_nonneg, hup.2, ?_, ?_⟩
    · simpa using ht
    · rw [← hs i]
      simp only [Endpoint.setStream_sfc, inFlight_cons, ToSender.bytesOf]
      rcases eq_or_ne i id with rfl | hne
      · rw [if_pos rfl, if_pos rfl]
        simp only [StreamFlowControl.recvUpdate]
        omega
      · rw [if_neg hne, if_neg hne.symm]
        omega
    · exact h.handshake.of_eq rfl (by rw [hq]; rfl) rfl rfl rfl
    · exact h.fits.mono rfl rfl rfl fun _ => Int.le_refl _
  · next w q hq =>
    cases hstep
    rw [hq] at hup ht hs
    rw [forall_mem_cons] at hup
    refine ⟨⟨?_, fun i => ?_⟩, h.remote_nonneg, hup.2, ?_, ?_⟩
    · simpa using ht
    · simpa using hs i
    · cases h.handshake with
      | idle _ hs' => simp [hq] at hs'
      | acked _ _ hs' => simp [hq] at hs'
      | sent w' hu hs' ha _ =>
        simp only [hq, filterMap_cons, ToSender.initialWindow?, List.cons.injEq] at hs'
        exact .acked w (hs'.1 ▸ hu) hs'.2 (by simp [ha]) rfl
    · refine h.fits.concat rfl rfl rfl ?_
      rintro _ _ ⟨⟩

/-- A DATA frame that arrives fits both windows, unless it is empty and its stream's window is
negative. -/
theorem Balanced.data_le (h : p.Balanced) (hq : p.toReceiver = .data id n :: q) :
    n ≤ p.receiver.tfc.announcedWindow ∧
      (0 < n → n ≤ (p.receiver.sfc id).announcedWindowDelta + p.receiver.tfc.ackedInitWindow) := by
  have ht := h.transport
  have hup := inFlight_nonneg ToSender.bytes fun f hf => (h.updates_nonneg f hf).1
  have hdata : 0 ≤ inFlight ToReceiver.bytes q := by
    refine inFlight_nonneg _ fun f _ => ?_
    cases f with
    | data _ n => exact Int.natCast_nonneg n
    | settingsAck => exact Int.le_refl 0
  have hr := h.remote_nonneg
  rw [hq, inFlight_cons, ToReceiver.bytes] at ht
  refine ⟨by omega, fun hn => ?_⟩
  simpa [ackedAfter] using h.fits [] id n q hq hn

theorem Balanced.receive_data (h : p.Balanced)
    (hq : p.toReceiver = .data id n :: q) {tfc : TransportFlowControl} {sfc : StreamFlowControl}
    (ht : tfc.announcedWindow = p.receiver.tfc.announcedWindow - n)
    (ha : tfc.ackedInitWindow = p.receiver.tfc.ackedInitWindow)
    (hs : sfc.announcedWindowDelta = (p.receiver.sfc id).announcedWindowDelta - n) :
    Balanced { p with
      toReceiver := q, receiver := { p.receiver.setStream id sfc with tfc := tfc } } := by
  refine ⟨⟨?_, fun i => ?_⟩, h.remote_nonneg, h.updates_nonneg, ?_, ?_⟩
  · have htransport := h.transport
    rw [hq, inFlight_cons, ToReceiver.bytes] at htransport
    simp only
    omega
  · have hstream := h.stream i
    simp only [hq, inFlight_cons, ToReceiver.bytesOf] at hstream
    simp only [Endpoint.setStream_sfc]
    rcases eq_or_ne i id with rfl | hne
    · rw [if_pos rfl] at hstream ⊢
      omega
    · rw [if_neg hne]
      omega
  · exact h.handshake.of_eq rfl rfl (by rw [hq]; rfl) rfl ha
  · intro before i m after heq hm
    have hfit := h.fits (.data id n :: before) i m after (hq.trans (congrArg _ heq)) hm
    simp only [inFlight_cons, ToReceiver.bytesOf, ackedAfter, mem_cons, reduceCtorEq,
      false_or] at hfit
    simp only [Endpoint.setStream_sfc, ackedAfter, ha]
    rcases eq_or_ne i id with rfl | hne
    · rw [if_pos rfl] at hfit ⊢
      omega
    · rw [if_neg hne]
      omega

theorem Balanced.setErrors (h : p.Balanced) (errors : List WindowOverflow) :
    Balanced { p with errors := errors } :=
  ⟨⟨h.transport, h.stream⟩, h.remote_nonneg, h.updates_nonneg,
    h.handshake.of_eq rfl rfl rfl rfl rfl, h.fits.mono rfl rfl rfl fun _ => Int.le_refl _⟩

theorem Balanced.receive_ack (h : p.Balanced)
    (hq : p.toReceiver = .settingsAck :: q) (hu : p.unacked = some w) :
    Balanced { p with
      toReceiver := q
      unacked := none
      receiver := { p.receiver with tfc := (p.receiver.tfc.setAckedInitialWindow w).1 } } := by
  rw [TransportFlowControl.setAckedInitialWindow_fst]
  -- the acknowledgement was the only one, and it is for the frame that is remembered
  have ⟨hcount, hsent, hpeer⟩ : q.count .settingsAck = 0 ∧
      p.toSender.filterMap ToSender.initialWindow? = [] ∧ p.sender.peerInitialWindow = w := by
    cases h.handshake with
    | idle h => simp [hu] at h
    | sent _ _ _ ha => simp [hq] at ha
    | acked w' hu' hs ha hw =>
      rw [hq, count_cons_self] at ha
      rw [hu, some.injEq] at hu'
      exact ⟨by omega, hs, by rw [hw, hu']⟩
  refine ⟨⟨?_, fun i => ?_⟩, h.remote_nonneg, h.updates_nonneg, .idle rfl hsent hcount hpeer, ?_⟩
  · simpa [hq] using h.transport
  · simpa [hq] using h.stream i
  · intro before id n after (heq : q = _) hn
    have hfit := h.fits (.settingsAck :: before) id n after (hq.trans (congrArg _ heq)) hn
    have hno : .settingsAck ∉ before := fun hmem =>
      count_eq_zero.1 hcount (heq ▸ mem_append_left _ hmem)
    simpa [ackedAfter, hno, hu] using hfit

/-- A frame that the receiver takes keeps the account, and is accepted unless it is an empty one
below the window. -/
theorem Balanced.receiverReceives (h : p.Balanced) (hstep : p.step .receiverReceives = some p') :
    p'.Balanced ∧ (p'.errors = p.errors ∨ p.RefusesEmpty .receiverReceives) := by
  simp only [step, Pair.receiverReceives] at hstep
  split at hstep
  · cases hstep
  · next id n q hq =>
    have ⟨ht, hs⟩ := h.data_le hq
    by_cases hle : n ≤ (p.receiver.sfc id).announcedWindowDelta + p.receiver.tfc.ackedInitWindow
    · rw [StreamFlowControl.recvData_of_le ht hle] at hstep
      cases hstep
      exact ⟨h.receive_data hq rfl rfl rfl, .inl rfl⟩
    · obtain rfl : n = 0 := by
        by_contra hne
        exact hle (hs (Nat.pos_of_ne_zero hne))
      obtain ⟨e, he⟩ := StreamFlowControl.recvData_error (.inr (Int.not_le.1 hle))
      rw [he] at hstep
      cases hstep
      -- the refused frame has no bytes, so nothing is lost with it
      have hkeep := (h.receive_data hq (Int.sub_zero _).symm rfl (Int.sub_zero _).symm).setErrors
        (p.errors ++ [e])
      rw [Endpoint.setStream_self] at hkeep
      exact ⟨hkeep, .inr ⟨rfl, id, q, hq, by omega⟩⟩
  · next q hq =>
    obtain ⟨w, hu, rfl⟩ := map_eq_some_iff.1 hstep
    exact ⟨h.receive_ack hq hu, .inl rfl⟩

/-- Every step keeps the account, and only an empty frame below the window is refused. -/
theorem Balanced.step (h : p.Balanced) (hstep : p.step s = some p') :
    p'.Balanced ∧ (p'.errors = p.errors ∨ p.RefusesEmpty s) := by
  cases s with
  | setMinProgressSize id size =>
    cases hstep
    exact ⟨h.setStream rfl, .inl rfl⟩
  | setPendingSize id size =>
    obtain ⟨sfc, hsfc, rfl⟩ := map_eq_some_iff.1 hstep
    unfold StreamFlowControl.setPendingSize at hsfc
    split at hsfc
    · cases hsfc
      exact ⟨h.setStream rfl, .inl rfl⟩
    · cases hsfc
  | periodicUpdate target =>
    cases hstep
    rw [TransportFlowControl.periodicUpdate_fst]
    exact ⟨h.setReceiver rfl rfl fun _ => rfl, .inl rfl⟩
  | maybeSendUpdate writingAnyway =>
    refine ⟨h.maybeSendUpdate hstep, .inl ?_⟩
    cases hstep
    rfl
  | maybeSendStreamUpdate id =>
    refine ⟨h.maybeSendStreamUpdate hstep, .inl ?_⟩
    obtain ⟨_, _, rfl⟩ := map_eq_some_iff.1 hstep
    rfl
  | sendSettings w =>
    refine ⟨h.sendSettings hstep, .inl ?_⟩
    simp only [Pair.step] at hstep
    split at hstep <;> cases hstep
    rfl
  | sendData id n =>
    refine ⟨h.sendData hstep, .inl ?_⟩
    simp only [Pair.step] at hstep
    split at hstep <;> cases hstep
    rfl
  | senderReceives =>
    refine ⟨h.senderReceives hstep, .inl ?_⟩
    simp only [Pair.step, Pair.senderReceives] at hstep
    split at hstep <;> cases hstep <;> rfl
  | receiverReceives => exact h.receiverReceives hstep

theorem balanced_init : ({} : Pair).Balanced where
  transport := rfl
  stream _ := rfl
  remote_nonneg := by decide
  updates_nonneg := by simp
  handshake := .idle rfl rfl rfl rfl
  fits := by simp [Fits]

theorem RefusesEmpty.error (h : p.RefusesEmpty s) :
    ∃ p', p.step s = some p' ∧ p'.errors ≠ [] := by
  obtain ⟨rfl, id, q, hq, hneg⟩ := h
  obtain ⟨e, he⟩ := StreamFlowControl.recvData_error (n := (0 : Nat)) (.inr hneg)
  refine ⟨{ p with toReceiver := q, errors := p.errors ++ [e] }, ?_, by simp⟩
  simp only [Pair.step, Pair.receiverReceives, hq, he]

/-- In a run of the two endpoints `RecvData` returns no error and windows are conserved throughout
exactly when no empty DATA frame reaches a stream whose window is negative. -/
theorem run_recvData_iff (steps : List PairStep) :
    (∀ done p, done <+: steps → Run.run Pair.step {} done = some p →
      p.errors = [] ∧ p.Conserves) ↔
      Run.Along Pair.step (fun p s => ¬ p.RefusesEmpty s) {} steps := by
  have hstep : ∀ (p : Pair) (s : PairStep) (p' : Pair), (p.Balanced ∧ p.errors = []) →
      ¬ p.RefusesEmpty s → p.step s = some p' → p'.Balanced ∧ p'.errors = [] := by
    rintro p s p' ⟨h, herr⟩ hguard hs
    have ⟨h', herr'⟩ := h.step hs
    exact ⟨h', (herr'.resolve_right hguard).trans herr⟩
  constructor
  · intro h
    refine Run.along_of_property h hstep (fun p s _ hbad => ?_) ⟨balanced_init, rfl⟩
    obtain ⟨p', hp', herr⟩ := RefusesEmpty.error (not_not.1 hbad)
    exact ⟨p', hp', fun hP => herr hP.1⟩
  · intro h done p hdone hrun
    have ⟨hbal, herr⟩ := Run.run_invariant (h.mono hdone) hrun hstep ⟨balanced_init, rfl⟩
    exact ⟨herr, hbal.toConserves⟩

/-- A stream of which a byte has been received, an initial window of zero, and the empty frame that
ends the stream. -/
theorem run_empty_refused :
    (Run.run Pair.step {} [.sendData 1 1, .receiverReceives, .sendSettings 0, .senderReceives,
      .receiverReceives, .sendData 1 0, .receiverReceives]).map Pair.errors = some [⟨0, -1⟩] := by
  decide

end Pair

end GrpcCore
