import GrpcCore.Chttp2.FlowControl
import GrpcCore.Lib.Run
import Mathlib.Algebra.Order.BigOperators.Group.List
import Mathlib.Algebra.Order.Group.Int
import Mathlib.Algebra.Ring.Int.Defs

/-!
# The bookkeeping of the announced windows

A transport with any number of streams (`flow_control.h`, `flow_control.cc`), over every sequence of
the calls that receive data and announce windows. The total of the positive deltas is kept exact,
and no delta is announced beyond `kMaxWindowDelta` (`FlowSystem.Inv`).

`StreamFlowControl::MaybeSendUpdate` announces at most `2 ^ 31 - 1` and then asserts that nothing is
left to announce. A stream that has used up a large initial window may need more than that for its
reader (`StreamFlowControl.Fits`): the assertion fails exactly then (`maybeSendUpdate_isSome_iff`).
-/

namespace GrpcCore

open Option FlowControl Numeric Run List

/-- `RemoveAnnouncedWindowDelta`, called when a stream is destroyed. -/
def TransportFlowControl.removeAnnouncedWindowDelta (t : TransportFlowControl) (delta : Int) :
    TransportFlowControl :=
  if 0 < delta then
    { t with announcedStreamTotalOverIncomingWindow :=
        t.announcedStreamTotalOverIncomingWindow - delta }
  else t

/-- `TransportFlowControl::IncomingUpdateContext::RecvData` without a stream. -/
def TransportFlowControl.recvData (t : TransportFlowControl) (incomingFrameSize : Int) :
    Except WindowOverflow TransportFlowControl :=
  if t.announcedWindow < incomingFrameSize then .error ⟨incomingFrameSize, t.announcedWindow⟩
  else .ok { t with announcedWindow := t.announcedWindow - incomingFrameSize }

/-- A transport and its streams, in the order of their creation; `none` stands for a stream that was
destroyed. -/
structure FlowSystem where
  transport : TransportFlowControl := {}
  streams : List (Option StreamFlowControl) := []

/-- The calls. `recvUnknown` is a frame for a stream that the transport does not know. -/
inductive FlowCall where
  | createStream
  | destroyStream (i : Nat)
  | recvData (i : Nat) (incomingFrameSize : Nat)
  | recvUnknown (incomingFrameSize : Nat)
  | setMinProgressSize (i : Nat) (size : Int)
  | setPendingSize (i : Nat) (size : Nat)
  | setAckedInitialWindow (value : Nat)
  | maybeSendUpdate (i : Nat)
  | maybeSendTransportUpdate (writingAnyway : Bool)

namespace FlowSystem

def stream (s : FlowSystem) (i : Nat) : Option StreamFlowControl := s.streams[i]?.join

def setStream (s : FlowSystem) (i : Nat) (t : TransportFlowControl) (x : StreamFlowControl) :
    FlowSystem :=
  ⟨t, s.streams.set i (some x)⟩

/-- One call. It is `none` when an assertion fails or there is no such stream. A frame that is
refused changes nothing. -/
def step (s : FlowSystem) : FlowCall → Option FlowSystem
  | .createStream => some { s with streams := s.streams ++ [some {}] }
  | .destroyStream i => (s.stream i).map fun x =>
    ⟨s.transport.removeAnnouncedWindowDelta x.announcedWindowDelta, s.streams.set i none⟩
  | .recvData i size => (s.stream i).map fun x =>
    match x.recvData s.transport size with
    | .error _ => s
    | .ok (t, x) => s.setStream i t x
  | .recvUnknown size =>
    match s.transport.recvData size with
    | .error _ => some s
    | .ok t => some { s with transport := t }
  | .setMinProgressSize i size => (s.stream i).map fun x =>
    s.setStream i s.transport (x.setMinProgressSize size)
  | .setPendingSize i size => (s.stream i).bind fun x =>
    (x.setPendingSize size).map (s.setStream i s.transport)
  | .setAckedInitialWindow value =>
    some { s with transport := (s.transport.setAckedInitialWindow value).1 }
  | .maybeSendUpdate i => (s.stream i).bind fun x =>
    (x.maybeSendUpdate s.transport).map fun r => s.setStream i r.2.1 r.2.2
  | .maybeSendTransportUpdate writingAnyway =>
    some { s with transport := (s.transport.maybeSendUpdate writingAnyway).2 }

/-- The streams that are called exist, and an initial window is one that SETTINGS frames allow. -/
def Allowed (s : FlowSystem) : FlowCall → Prop
  | .destroyStream i | .recvData i _ | .setMinProgressSize i _ | .setPendingSize i _
  | .maybeSendUpdate i => (s.stream i).isSome
  | .setAckedInitialWindow value => value ≤ 2 ^ 31 - 1
  | .createStream | .recvUnknown _ | .maybeSendTransportUpdate _ => True

instance (s : FlowSystem) (c : FlowCall) : Decidable (s.Allowed c) := by
  cases c <;> unfold Allowed <;> infer_instance

end FlowSystem

/-! ## The assertion -/

/-- One update is enough for what the stream's reader wants. -/
def StreamFlowControl.Fits (s : StreamFlowControl) : Prop :=
  s.minProgressSize = 0 ∨
    min s.minProgressSize kMaxWindowDelta - s.announcedWindowDelta ≤ kMaxWindowUpdateSize

namespace StreamFlowControl

variable {x x' : StreamFlowControl} {t t' : TransportFlowControl} {n : Int}

def announced (x : StreamFlowControl) (n : Int) : StreamFlowControl :=
  { x with pendingSize := none, announcedWindowDelta := x.announcedWindowDelta + n }

theorem maybeSendUpdate_eq (x : StreamFlowControl) (t : TransportFlowControl) :
    x.maybeSendUpdate t =
      if (x.announced x.desiredAnnounceSize).desiredAnnounceSize = 0 then
        some (x.desiredAnnounceSize,
          t.withTotal x.announcedWindowDelta (x.announcedWindowDelta + x.desiredAnnounceSize),
          x.announced x.desiredAnnounceSize)
      else none := by
  unfold maybeSendUpdate
  simp only [TransportFlowControl.updateAnnouncedWindowDelta_eq]
  rfl

theorem announced_desiredAnnounceSize_iff :
    (x.announced x.desiredAnnounceSize).desiredAnnounceSize = 0 ↔ x.Fits := by
  have hpos : 0 < kMaxWindowUpdateSize := by decide
  rw [desiredAnnounceSize, clamp_eq_zero_iff hpos, Fits]
  by_cases hmin : x.minProgressSize = 0
  · -- without a reader the stream now wants what it has
    have hdesired : (x.announced x.desiredAnnounceSize).desiredWindowDelta =
        (x.announced x.desiredAnnounceSize).announcedWindowDelta := if_pos hmin
    rw [hdesired, Int.sub_self]
    exact iff_of_true (Int.le_refl 0) (.inl hmin)
  · have hdesired : (x.announced x.desiredAnnounceSize).desiredWindowDelta =
        min x.minProgressSize kMaxWindowDelta := if_neg hmin
    have hannounce : x.desiredAnnounceSize =
        clamp (min x.minProgressSize kMaxWindowDelta - x.announcedWindowDelta) 0
          kMaxWindowUpdateSize := by
      rw [desiredAnnounceSize, desiredWindowDelta, if_neg hmin]
    rw [hdesired, ← sub_clamp_le_iff hpos.le]
    simp only [announced]
    omega

theorem maybeSendUpdate_isSome_iff : (x.maybeSendUpdate t).isSome ↔ x.Fits := by
  rw [maybeSendUpdate_eq, ← announced_desiredAnnounceSize_iff]
  split_ifs with h <;> simp [h]

theorem announce_eq (h : x.maybeSendUpdate t = some (n, t', x')) : n = x.desiredAnnounceSize := by
  rw [maybeSendUpdate_eq] at h
  split_ifs at h
  exact (congrArg Prod.fst (some.inj h)).symm

theorem announce_le (h : x.maybeSendUpdate t = some (n, t', x')) :
    0 ≤ n ∧ n ≤ kMaxWindowUpdateSize :=
  ⟨(maybeSendUpdate_some h).1, announce_eq h ▸ clamp_le (by decide)⟩

structure Bounded (x : StreamFlowControl) : Prop where
  delta_le : x.announcedWindowDelta ≤ kMaxWindowDelta
  pending_nonneg : ∀ n, x.pendingSize = some n → 0 ≤ n

theorem Bounded.desired_le (h : x.Bounded) : x.desiredWindowDelta ≤ kMaxWindowDelta := by
  have hdelta := h.delta_le
  have hpos : 0 ≤ kMaxWindowDelta := by decide
  unfold desiredWindowDelta
  split
  · split
    · next n hn =>
      have := h.pending_nonneg n hn
      split <;> omega
    · exact hdelta
  · omega

theorem Bounded.maybeSendUpdate (h : x.Bounded) (hu : x.maybeSendUpdate t = some (n, t', x')) :
    x'.Bounded := by
  have hn := announce_eq hu
  obtain ⟨-, -, rfl, -⟩ := maybeSendUpdate_some hu
  refine ⟨?_, fun n hn => nomatch hn⟩
  have hle := h.desired_le
  have hdelta := h.delta_le
  rw [hn]
  unfold desiredAnnounceSize clamp
  simp only
  split_ifs <;> omega

theorem Bounded.recvData {size : Nat} (h : x.Bounded) (hr : x.recvData t size = .ok (t', x')) :
    x'.Bounded := by
  obtain ⟨-, -, rfl⟩ := recvData_ok hr
  have hdelta := h.delta_le
  exact ⟨by simp only; omega, h.pending_nonneg⟩

end StreamFlowControl

/-! ## The total -/

namespace FlowSystem

/-- What a stream adds to the total. -/
def overWindow : Option StreamFlowControl → Int
  | none => 0
  | some x => max 0 x.announcedWindowDelta

/-- The total is that of the live streams, each of which is within its bounds. -/
structure Inv (s : FlowSystem) : Prop where
  total : s.transport.announcedStreamTotalOverIncomingWindow = (s.streams.map overWindow).sum
  bounded : ∀ i x, s.stream i = some x → x.Bounded

variable {s s' : FlowSystem} {t : TransportFlowControl} {x x' : StreamFlowControl} {i : Nat}
  {c : FlowCall}

theorem getElem?_of_stream (h : s.stream i = some x) : s.streams[i]? = some (some x) :=
  join_eq_some_iff.1 h

theorem sum_map_set {α : Type*} {f : α → Int} {l : List α} {a : α} (h : l[i]? = some a) (b : α) :
    ((l.set i b).map f).sum = (l.map f).sum - f a + f b := by
  obtain ⟨hlt, rfl⟩ := List.getElem?_eq_some_iff.1 h
  have hlt' : i < (l.map f).length := by rwa [length_map]
  rw [map_set, sum_set', dif_pos hlt', getElem_map]
  omega

theorem Inv.init : Inv {} := ⟨rfl, fun _ _ h => nomatch h⟩

theorem Inv.transport (h : Inv s) (ht : t.announcedStreamTotalOverIncomingWindow =
    s.transport.announcedStreamTotalOverIncomingWindow) : Inv { s with transport := t } :=
  ⟨ht.trans h.total, h.bounded⟩

theorem Inv.set (h : Inv s) (hx : s.stream i = some x) {o : Option StreamFlowControl}
    (ht : t.announcedStreamTotalOverIncomingWindow =
      s.transport.announcedStreamTotalOverIncomingWindow - overWindow (some x) + overWindow o)
    (ho : ∀ y, o = some y → y.Bounded) : Inv ⟨t, s.streams.set i o⟩ := by
  have hget := getElem?_of_stream hx
  obtain ⟨hlt, -⟩ := List.getElem?_eq_some_iff.1 hget
  refine ⟨?_, fun j y hy => ?_⟩
  · rw [sum_map_set hget, ht, h.total]
  · have hy' := getElem?_of_stream hy
    by_cases hij : i = j
    · subst hij
      rw [getElem?_set_self hlt] at hy'
      exact ho y (some.inj hy')
    · rw [getElem?_set_ne hij] at hy'
      exact h.bounded j y (join_eq_some_iff.2 hy')

theorem Inv.create (h : Inv s) : Inv { s with streams := s.streams ++ [some {}] } := by
  refine ⟨?_, fun j y hy => ?_⟩
  · simp [h.total, overWindow]
  · have hy' := getElem?_of_stream hy
    rw [getElem?_append] at hy'
    split_ifs at hy' with hlt
    · exact h.bounded j y (join_eq_some_iff.2 hy')
    · have hmem := mem_of_getElem? hy'
      rw [mem_singleton] at hmem
      obtain rfl := some.inj hmem
      exact ⟨by decide, fun n hn => nomatch hn⟩

theorem Inv.step (h : Inv s) (hs : s.step c = some s') : Inv s' := by
  cases c with
  | createStream =>
    cases hs
    exact h.create
  | destroyStream i =>
    obtain ⟨x, hx, rfl⟩ := map_eq_some_iff.1 hs
    refine h.set hx ?_ fun y hy => nomatch hy
    unfold TransportFlowControl.removeAnnouncedWindowDelta overWindow
    split <;> simp only <;> omega
  | recvData i size =>
    obtain ⟨x, hx, rfl⟩ := map_eq_some_iff.1 hs
    cases hr : x.recvData s.transport size with
    | error e => exact h
    | ok r =>
      obtain ⟨t, y⟩ := r
      refine h.set hx ?_ fun z hz => some.inj hz ▸ (h.bounded i x hx).recvData hr
      obtain ⟨-, rfl, rfl⟩ := StreamFlowControl.recvData_ok hr
      rfl
  | recvUnknown size =>
    unfold FlowSystem.step TransportFlowControl.recvData at hs
    simp only at hs
    split_ifs at hs <;> cases hs
    · exact h
    · exact h.transport rfl
  | setMinProgressSize i size =>
    obtain ⟨x, hx, rfl⟩ := map_eq_some_iff.1 hs
    have hb := h.bounded i x hx
    exact h.set hx (by simp [overWindow, StreamFlowControl.setMinProgressSize])
      fun y hy => some.inj hy ▸ ⟨hb.delta_le, hb.pending_nonneg⟩
  | setPendingSize i size =>
    obtain ⟨x, hx, hset⟩ := bind_eq_some_iff.1 hs
    cases hset
    refine h.set hx (by simp [overWindow]) fun y hy => some.inj hy ▸ ?_
    refine ⟨(h.bounded i x hx).delta_le, fun n hn => ?_⟩
    exact some.inj hn ▸ Int.natCast_nonneg size
  | setAckedInitialWindow value =>
    cases hs
    exact h.transport (by rw [TransportFlowControl.setAckedInitialWindow_fst])
  | maybeSendUpdate i =>
    obtain ⟨x, hx, hset⟩ := bind_eq_some_iff.1 hs
    obtain ⟨⟨n, t, y⟩, hu, rfl⟩ := map_eq_some_iff.1 hset
    refine h.set hx ?_ fun z hz => some.inj hz ▸ (h.bounded i x hx).maybeSendUpdate hu
    obtain ⟨-, rfl, rfl, -⟩ := StreamFlowControl.maybeSendUpdate_some hu
    rfl
  | maybeSendTransportUpdate writingAnyway =>
    cases hs
    obtain ⟨-, heq⟩ := TransportFlowControl.maybeSendUpdate_eq
      (Prod.eta (s.transport.maybeSendUpdate writingAnyway)).symm
    exact h.transport (by rw [heq])

/-! ## Runs -/

/-- `MaybeSendUpdate` is called only when one update is enough. -/
def Fitting (s : FlowSystem) : FlowCall → Prop
  | .maybeSendUpdate i => ∀ x, s.stream i = some x → x.Fits
  | _ => True

theorem fitting_of_step (h : s.step c = some s') : s.Fitting c := by
  cases c with
  | maybeSendUpdate i =>
    obtain ⟨x, hx, hset⟩ := bind_eq_some_iff.1 h
    obtain ⟨r, hr, -⟩ := map_eq_some_iff.1 hset
    intro y hy
    obtain rfl := some.inj (hx.symm.trans hy)
    exact StreamFlowControl.maybeSendUpdate_isSome_iff.1 (by rw [hr]; rfl)
  | _ => trivial

theorem exists_step (ha : s.Allowed c) (hf : s.Fitting c) : ∃ s', s.step c = some s' := by
  cases c with
  | createStream | setAckedInitialWindow | maybeSendTransportUpdate => exact ⟨_, rfl⟩
  | destroyStream i | recvData i size | setMinProgressSize i size =>
    obtain ⟨x, hx⟩ := isSome_iff_exists.1 ha
    exact ⟨_, by rw [step, hx]; rfl⟩
  | recvUnknown size =>
    unfold step
    simp only
    split <;> exact ⟨_, rfl⟩
  | setPendingSize i size =>
    obtain ⟨x, hx⟩ := isSome_iff_exists.1 ha
    rw [step, hx, bind_some, StreamFlowControl.setPendingSize,
      if_pos (Int.natCast_nonneg size)]
    exact ⟨_, rfl⟩
  | maybeSendUpdate i =>
    obtain ⟨x, hx⟩ := isSome_iff_exists.1 ha
    obtain ⟨r, hr⟩ := isSome_iff_exists.1
      ((StreamFlowControl.maybeSendUpdate_isSome_iff (t := s.transport)).2 (hf x hx))
    exact ⟨_, by rw [step, hx, bind_some, hr]; rfl⟩

/-- The bookkeeping is right: the total is the sum of the positive deltas of the live streams, no
delta is above `2 ^ 20`, and `MaybeSendUpdate` returns what fits an update frame. -/
structure Correct (s : FlowSystem) : Prop where
  total : s.transport.announcedStreamTotalOverIncomingWindow =
    ((s.streams.filterMap id).map fun x => max 0 x.announcedWindowDelta).sum
  delta_le : ∀ i x, s.stream i = some x → x.announcedWindowDelta ≤ 2 ^ 20
  announce : ∀ i x n t' x', s.stream i = some x → x.maybeSendUpdate s.transport = some (n, t', x') →
    0 ≤ n ∧ n ≤ 2 ^ 31 - 1

theorem sum_overWindow (l : List (Option StreamFlowControl)) :
    (l.map overWindow).sum = ((l.filterMap id).map fun x => max 0 x.announcedWindowDelta).sum := by
  induction l with
  | nil => rfl
  | cons o l ih => cases o <;> simp [overWindow, ih]

theorem Inv.correct (h : Inv s) : Correct s :=
  ⟨h.total.trans (sum_overWindow _), fun i x hx => (h.bounded i x hx).delta_le,
    fun _ _ _ _ _ _ hu => StreamFlowControl.announce_le hu⟩

/-- Over every sequence of calls, the bookkeeping is right in every state that is reached, and no
assertion fails exactly when `MaybeSendUpdate` is never called on a stream that needs more than one
update. -/
theorem run_correct_iff_fitting (calls : List FlowCall)
    (h : Run.Along FlowSystem.step Allowed {} calls) :
    ((∃ s, run FlowSystem.step {} calls = some s) ↔
      Run.Along FlowSystem.step Fitting {} calls) ∧
    ∀ pre s, pre <+: calls → run FlowSystem.step {} pre = some s → Correct s := by
  refine ⟨⟨fun ⟨s, hs⟩ => along_of_step hs fun s c s' => fitting_of_step, fun hf => ?_⟩, ?_⟩
  · have hstep (s : FlowSystem) (c : FlowCall) (hs : Inv s) (hG : s.Allowed c ∧ s.Fitting c) :
        ∃ s', s.step c = some s' ∧ Inv s' := by
      obtain ⟨s', hs'⟩ := exists_step hG.1 hG.2
      exact ⟨s', hs', hs.step hs'⟩
    obtain ⟨s, hs, -⟩ := (h.and hf).exists_run hstep Inv.init
    exact ⟨s, hs⟩
  · intro pre s hpre hs
    exact (run_invariant (h.mono hpre) hs (fun _ _ _ hi _ => hi.step) Inv.init).correct

/-- A stream that is created, read from and destroyed. -/
theorem run_correct_iff_fitting_stream :
    Run.Along FlowSystem.step Fitting {}
      [.createStream, .recvData 0 100, .setMinProgressSize 0 5, .maybeSendUpdate 0,
        .destroyStream 0] :=
  ((run_correct_iff_fitting _ (by decide)).1).1 ⟨_, rfl⟩

/-! ## A failing assertion -/

/-- One stream that has received `n` frames of 65535 bytes and announced nothing, while the
transport has announced all of its window again. The peer has acknowledged the largest initial
window. -/
def drained (n : Nat) : FlowSystem :=
  ⟨{ ackedInitWindow := 2 ^ 31 - 1 }, [some { announcedWindowDelta := -(65535 * n) }]⟩

/-- A frame, and an update of the transport's window. -/
def drain : List FlowCall := [.recvData 0 65535, .maybeSendTransportUpdate true]

variable {n : Nat}

theorem step_recvData_drained (h : n < 32768) :
    (drained n).step (.recvData 0 65535) =
      some ⟨{ ackedInitWindow := 2 ^ 31 - 1, announcedWindow := 0 },
        [some { announcedWindowDelta := -(65535 * (n + 1 : Nat)) }]⟩ := by
  have hrecv := StreamFlowControl.recvData_of_le (t := (drained n).transport)
    (s := { announcedWindowDelta := -(65535 * n) }) (n := (65535 : Nat)) (Int.le_refl _)
    (by simp only [drained]; omega)
  have htotal : (0 : Int) - max 0 (-(65535 * (n : Int))) +
      max 0 (-(65535 * (n : Int)) - 65535) = 0 := by
    omega
  have hdelta : -(65535 * (n : Int)) - 65535 = -(65535 * (n + 1 : Nat)) := by omega
  rw [step, show (drained n).stream 0 = some { announcedWindowDelta := -(65535 * n) } from rfl,
    map_some, hrecv]
  simp only [setStream, drained, TransportFlowControl.withTotal]
  rw [show ((65535 : Nat) : Int) = 65535 from rfl, htotal, hdelta]
  rfl

theorem run_drain (h : n < 32768) :
    run FlowSystem.step (drained n) drain = some (drained (n + 1)) := by
  have hupdate : (TransportFlowControl.maybeSendUpdate
      { ackedInitWindow := 2 ^ 31 - 1, announcedWindow := 0 } true).2 =
      { ackedInitWindow := 2 ^ 31 - 1 } := by decide
  rw [drain, run_cons, step_recvData_drained h, bind_some, run_cons, step, hupdate,
    bind_some, run_nil, drained]

theorem along_drain (n : Nat) : Run.Along FlowSystem.step Allowed (drained n) drain :=
  along_cons.2 ⟨rfl, fun _ _ => along_cons.2 ⟨trivial, fun _ _ => along_nil⟩⟩

theorem run_drains (m : Nat) (h : m ≤ 32768) :
    run FlowSystem.step (drained 0) (List.replicate m drain).flatten = some (drained m) ∧
      Run.Along FlowSystem.step Allowed (drained 0) (List.replicate m drain).flatten := by
  induction m with
  | zero => exact ⟨rfl, along_nil⟩
  | succ m ih =>
    obtain ⟨hrun, halong⟩ := ih (by omega)
    rw [replicate_succ', flatten_append]
    refine ⟨?_, halong.append hrun (along_drain m)⟩
    rw [run_append, hrun]
    exact run_drain (by omega)

/-- The peer has acknowledged an initial window of `2 ^ 31 - 1` and used almost all of it; a reader
then asks for `2 ^ 20` bytes, and the assertion of `MaybeSendUpdate` fails. -/
theorem maybeSendUpdate_assertion_fails : ∃ calls,
    Run.Along FlowSystem.step Allowed {} calls ∧ run FlowSystem.step {} calls = none := by
  obtain ⟨hrun, halong⟩ := run_drains 32753 (by decide)
  refine ⟨[.createStream, .setAckedInitialWindow (2 ^ 31 - 1)] ++
    ((List.replicate 32753 drain).flatten ++ [.setMinProgressSize 0 (2 ^ 20), .maybeSendUpdate 0]),
    ?_, ?_⟩
  · have hstart : run FlowSystem.step {} [.createStream, .setAckedInitialWindow (2 ^ 31 - 1)] =
        some (drained 0) := rfl
    refine Run.Along.append (by decide) hstart (halong.append hrun ?_)
    exact along_cons.2 ⟨rfl, fun s hs =>
      along_cons.2 ⟨by cases hs; rfl, fun _ _ => along_nil⟩⟩
  · rw [run_append, show run FlowSystem.step {}
      [.createStream, .setAckedInitialWindow (2 ^ 31 - 1)] = some (drained 0) from rfl,
      bind_some, run_append, hrun, bind_some]
    decide

end FlowSystem

end GrpcCore
