import GrpcCore.Chttp2.TransportFrames

/-!
# Header blocks and the frames they come in

A header block is a HEADERS frame and the CONTINUATION frames after it, up to the flag END_HEADERS.
An element of the block may be cut by the end of a frame, but not by the end of the block. The HPACK
parser is told which of the two the end of a frame is (`HPackParser::Boundary`): it keeps the bytes
of an element that is not complete, or refuses it.

`init_header_frame_parser` tells it so from the flags of the frame. `init_header_skip_frame_parser`,
for the headers of a stream that is unknown, refused or closed, takes the end of the block from
`expect_continuation_stream_id != 0`, which `init_header_frame_parser` has set to 0 exactly when the
block does end. So a skipped block that ends inside an element leaves its bytes to the next block,
and an element that is continued in the next frame is refused (`ParseCall.CutsSkipped`);
`OtherFrames.run_keepsBlock_iff` says that nothing else goes wrong.
-/

namespace GrpcCore

open Incremental

/-! ## Runs -/

/-- What happens to a transport while it reads: a slice comes in, or the application and the other
closures of the transport change it, without or with `remove_stream` of the incoming stream. -/
inductive ReadEvent (ω : Type) where
  | slice (bytes : Bytes)
  | change (transport : Transport) (others : ω)
  | removeIncoming (transport : Transport) (others : ω)

namespace OtherFrames

variable {ω : Type} (F : OtherFrames ω)

/-- A deframer with the calls of `parse_frame_slice` so far. -/
abbrev TracedDeframer (ω : Type) :=
  Deframer (ReadState ω × List (ParseCall (ReadState ω) FrameError))

def step (d : TracedDeframer ω) :
    ReadEvent ω → FrameHandlers.TracedResult (ReadState ω) FrameError
  | .slice bytes => F.handlers.traced.performRead d bytes
  | .change t others =>
    .ok { d with rest := ({ d.rest.1 with transport := t, others := others }, d.rest.2) }
  | .removeIncoming t others =>
    .ok { d with
      rest := ({ d.rest.1 with transport := t, others := others }.becomeSkipParser, d.rest.2) }

/-- The events one after the other, up to the first error. -/
def run (d : TracedDeframer ω) :
    List (ReadEvent ω) → FrameHandlers.TracedResult (ReadState ω) FrameError
  | [] => .ok d
  | e :: es => (F.step d e).bind fun d => run d es

/-- The calls of `parse_frame_slice` in a run from the creation of the transport. -/
def calls (s : ReadState ω) (events : List (ReadEvent ω)) :
    List (ParseCall (ReadState ω) FrameError) :=
  FrameHandlers.TracedResult.calls (F.run (.start s.transport.isClient (s, [])) events)

end OtherFrames

/-! ## The ends of header frames -/

/-- The bytes that the parser would keep of a slice: those from the beginning of an element that the
slice does not complete. -/
def HPackParser.leftOver (p : HPackParser) (slice : Bytes) : Option Bytes :=
  match p.toParser.parseInputInner (p.unparsedBytes ++ slice) with
  | .paused _ rest => some rest
  | _ => none

namespace ParseCall

variable {ω : Type} (c : ParseCall (ReadState ω) FrameError)

/-- The call is for the last piece of a HEADERS or CONTINUATION frame. -/
def EndsHeaders : Prop := c.before.installed = .header ∧ c.isLast = true

/-- A frame that ends the block leaves no bytes to the next block, and a frame that does not leaves
those of the element it ends in to the next frame. -/
def KeepsBlock : Prop :=
  c.EndsHeaders →
    if c.before.header.endHeaders then ∀ s, c.result = .ok s → s.parser.unparsedBytes = []
    else ∀ rest, c.before.parser.leftOver c.piece = some rest →
      ∃ s, c.result = .ok s ∧ s.parser.unparsedBytes = rest

/-- The frame is skipped and ends inside an element, which it should not if it ends the block, and
may if it does not. -/
def CutsSkipped : Prop :=
  c.EndsHeaders ∧ c.before.target = none ∧
    ∃ rest, c.before.parser.leftOver c.piece = some rest ∧
      if c.before.header.endHeaders then rest ≠ [] else c.before.header.streamId ≠ 0

end ParseCall

/-! ## What `init_header_frame_parser` tells the parser -/

/-- The end of the frame is marked as the end of the block if it is, and in a frame that is skipped
if it is not. -/
def BeginFrame.Marks (b : BeginFrame) (frame : FrameHeader) : Prop :=
  (b.boundary != .none) =
    if b.metadataBuffer = none then !frame.endHeaders && frame.streamId != 0 else frame.endHeaders

namespace Transport

variable {t t' : Transport} {frame : FrameHeader} {priority : Priority} {b : BeginFrame}

/-- The stream whose block goes on after the frame is noted. -/
def Notes (t : Transport) (frame : FrameHeader) : Prop :=
  t.expectContinuationStreamId = if frame.endHeaders then 0 else frame.streamId

theorem hpackBoundaryType_ne_none (t : Transport) (isEoh : Bool) :
    (t.hpackBoundaryType isEoh != .none) = isEoh := by
  unfold hpackBoundaryType
  cases isEoh <;> cases t.headerEof <;> rfl

theorem initHeaderSkipFrameParser_marks (h : t.Notes frame) :
    (t.initHeaderSkipFrameParser priority).2.Marks frame := by
  have hnotes : (t.expectContinuationStreamId != 0) =
      (!frame.endHeaders && frame.streamId != 0) := by
    rw [h]
    cases frame.endHeaders <;> simp
  simp only [initHeaderSkipFrameParser, BeginFrame.Marks,
    hpackBoundaryType_ne_none, hnotes, if_true]

theorem initKnownStream_marks {s : Stream} (hnotes : t.Notes frame)
    (h : t.initKnownStream s frame.endHeaders priority = .ok (t', b)) : b.Marks frame := by
  unfold initKnownStream at h
  split at h
  · cases h
    exact initHeaderSkipFrameParser_marks (t := { t with incomingStream := none }) hnotes
  · simp only at h
    cases hbuf : t.incomingMetadataBuffer
        (if t.headerEof then { s with eosReceived := true } else s) with
    | error e => rw [hbuf] at h; cases h
    | ok r =>
      obtain ⟨s', buffer⟩ := r
      rw [hbuf] at h
      cases buffer with
      | none =>
        cases h
        exact initHeaderSkipFrameParser_marks (t := t.updateStream s') hnotes
      | some buffer =>
        cases h
        simp [BeginFrame.Marks, hpackBoundaryType_ne_none]

theorem initHeaderFrameParser_marks {isContinuation accepts : Bool}
    (h : t.initHeaderFrameParser frame isContinuation accepts = .ok (t', b)) : b.Marks frame := by
  have hnotes : (t.noteHeaderFrame frame isContinuation).Notes frame := rfl
  unfold initHeaderFrameParser at h
  simp only at h
  generalize t.noteHeaderFrame frame isContinuation = t₁ at h hnotes
  split at h
  · next s _ => exact initKnownStream_marks (t := { t₁ with incomingStream := some s.id }) hnotes h
  · split at h
    · cases h
      exact initHeaderSkipFrameParser_marks hnotes
    · split at h
      · cases h
        exact initHeaderSkipFrameParser_marks hnotes
      · cases h
      · unfold acceptStream at h
        split at h
        · exact initKnownStream_marks (by exact hnotes) h
        · cases h
          exact initHeaderSkipFrameParser_marks (t := { t₁ with
            lastNewStreamId := frame.streamId, incomingStream := none }) hnotes

end Transport

namespace ReadState

variable {ω : Type} {s s' : ReadState ω}

/-- The HPACK parser, if it is installed, has been told of the frame. -/
def Marked (s : ReadState ω) : Prop :=
  s.installed = .header →
    s.parser.isBoundary =
      if s.target = none then !s.header.endHeaders && s.header.streamId != 0
      else s.header.endHeaders

theorem initHeaderFrameParser_marked {isContinuation accepts : Bool}
    (h : s.initHeaderFrameParser isContinuation accepts = .ok s') : s'.Marked := by
  unfold initHeaderFrameParser at h
  split at h
  · cases h
  · next t b heq =>
    cases h
    exact fun _ => Transport.initHeaderFrameParser_marks heq

theorem becomeSkipParser_marked (h : s.Marked) : s.becomeSkipParser.Marked := by
  unfold becomeSkipParser
  split
  · exact h
  · exact nofun

end ReadState

/-! ## What the parser makes of the end of a frame -/

theorem Parser.isBoundary_eq {s s' : Parser} (h : s'.boundary = s.boundary) :
    s'.isBoundary = s.isBoundary := by
  rw [isBoundary, h, isBoundary]

namespace HPackParser

variable {p p' : HPackParser} {slice rest : Bytes}

theorem parse_leftOver (h : p.leftOver slice = some rest) :
    ∃ p', p.parse slice true =
      (p', if p.isBoundary then some .incompleteHeader else none) ∧
        (p.isBoundary = false → p'.unparsedBytes = rest) := by
  unfold leftOver at h
  split at h
  · next s _ heq =>
    cases h
    have hb : s.boundary = p.boundary := by
      cases hparse : p.parse slice false with
      | mk p' r =>
        have hkeeps := (parse_keeps hparse).1
        rw [parse, parseInput, heq] at hparse
        cases hparse
        exact hkeeps
    have hb' : s.isBoundary = p.isBoundary := Parser.isBoundary_eq hb
    rw [parse, parseInput, heq]
    simp only [hb', Bool.true_and]
    split
    · next htrue => exact ⟨_, rfl, by simp [htrue]⟩
    · exact ⟨_, rfl, fun _ => rfl⟩
  · cases h

theorem parse_complete (h : p.leftOver slice = none) (hp : p.parse slice true = (p', none)) :
    p'.unparsedBytes = [] := by
  unfold leftOver at h
  unfold parse parseInput at hp
  split at h
  · cases h
  · next hnot =>
    cases hrun : p.parseInputInner (p.unparsedBytes ++ slice) with
    | finished s | dropped s => rw [hrun] at hp; cases hp; rfl
    | paused s rest => exact absurd hrun (hnot s rest)
    | failed s e => rw [hrun] at hp; cases hp

end HPackParser

namespace ReadState

variable {ω : Type} {s s' : ReadState ω} {slice rest : Bytes}

theorem becomeSkipParser_unparsedBytes (s : ReadState ω) :
    s.becomeSkipParser.parser.unparsedBytes = s.parser.unparsedBytes := by
  unfold becomeSkipParser
  split <;> rfl

theorem markReadClosed_unparsedBytes (s : ReadState ω) (stream : Stream) :
    (s.markReadClosed stream).parser.unparsedBytes = s.parser.unparsedBytes := by
  unfold markReadClosed
  split
  · rfl
  simp only
  split
  · unfold removeStream
    split
    · rw [becomeSkipParser_unparsedBytes]
    · rfl
  · rfl

theorem endHeaderFrame_unparsedBytes {stream : Stream} (h : s.endHeaderFrame stream = .ok s') :
    s'.parser.unparsedBytes = s.parser.unparsedBytes := by
  unfold endHeaderFrame at h
  split at h
  · cases h
  · simp only [Except.ok.injEq] at h
    subst h
    split
    · exact markReadClosed_unparsedBytes _ _
    · rfl

theorem endHeaderFrame_ok (h : s.parser.isBoundary = false) (stream : Stream) :
    ∃ s', s.endHeaderFrame stream = .ok s' := by
  unfold endHeaderFrame
  rw [h]
  exact ⟨_, rfl⟩

theorem headerParserParse_unparsedBytes (h : s.headerParserParse slice true = .ok s') :
    ∃ p, s.parser.parse slice true = (p, none) ∧ s'.parser.unparsedBytes = p.unparsedBytes := by
  unfold headerParserParse at h
  split at h
  · cases h
  · next p heq =>
    refine ⟨p, heq, ?_⟩
    simp only [if_true] at h
    split at h
    · cases h
      rfl
    · next stream _ =>
      cases hend : (s.setParser p).endHeaderFrame stream with
      | error e => rw [hend] at h; cases h
      | ok s₁ =>
        rw [hend] at h
        cases h
        exact endHeaderFrame_unparsedBytes hend

theorem headerParserParse_leftOver (h : s.parser.leftOver slice = some rest) :
    if s.parser.isBoundary then
      s.headerParserParse slice true = .error (.headers .incompleteHeader)
    else ∃ s', s.headerParserParse slice true = .ok s' ∧ s'.parser.unparsedBytes = rest := by
  obtain ⟨p, hp, hrest⟩ := HPackParser.parse_leftOver h
  cases hb : s.parser.isBoundary with
  | true =>
    rw [hb] at hp
    simp only [headerParserParse, hp, if_true]
  | false =>
    rw [hb, if_neg (by simp)] at hp
    have hboundary : (s.setParser p).parser.isBoundary = false :=
      (Parser.isBoundary_eq (HPackParser.parse_keeps hp).1).trans hb
    have hok : ∃ s', s.headerParserParse slice true = .ok s' := by
      unfold headerParserParse
      rw [hp]
      simp only [if_true]
      split
      · exact ⟨_, rfl⟩
      · next stream _ =>
        obtain ⟨s₁, hs₁⟩ := endHeaderFrame_ok hboundary stream
        rw [hs₁]
        exact ⟨_, rfl⟩
    obtain ⟨s', hs'⟩ := hok
    obtain ⟨p', hp', hrest'⟩ := headerParserParse_unparsedBytes hs'
    rw [hp] at hp'
    cases hp'
    exact ⟨s', hs', hrest'.trans (hrest hb)⟩

end ReadState

namespace OtherFrames

variable {ω : Type} {F : OtherFrames ω} {s s' : ReadState ω} {h : FrameHeader} {slice : Bytes}

theorem initFrameParser_marked (hinit : F.initFrameParser h s = .ok s') : s'.Marked := by
  unfold initFrameParser at hinit
  split at hinit
  · cases hinit
  simp only at hinit
  split at hinit
  · repeat' split at hinit
    all_goals first
      | cases hinit
      | exact ReadState.initHeaderFrameParser_marked hinit
  split at hinit
  · exact ReadState.initHeaderFrameParser_marked hinit
  split at hinit
  · cases hinit
  unfold initOther at hinit
  split at hinit
  · split at hinit
    · cases hinit
    · next skip _ =>
      cases hinit
      cases skip <;> exact nofun
  · cases hinit
    exact nofun

theorem parseFrameSlice_marked (hs : s.Marked) (h : F.parseFrameSlice slice false s = .ok s') :
    s'.Marked := by
  unfold parseFrameSlice at h
  split at h
  · unfold ReadState.headerParserParse at h
    split at h
    · cases h
    · next p heq =>
      cases h
      intro hheader
      exact (Parser.isBoundary_eq (HPackParser.parse_keeps heq).1).trans (hs hheader)
  · cases h
    exact hs
  · split at h
    · cases h
    · cases h
      intro hheader
      split at hheader <;> cases hheader

/-- A call of the frame parsers keeps the header block exactly if it does not cut a skipped one. -/
theorem call_keepsBlock_iff (hs : s.Marked) (isLast : Bool) :
    (F.handlers.call s slice isLast).KeepsBlock ↔
      ¬ (F.handlers.call s slice isLast).CutsSkipped := by
  by_cases hends : (F.handlers.call s slice isLast).EndsHeaders
  swap
  · simp [ParseCall.KeepsBlock, ParseCall.CutsSkipped, hends]
  obtain ⟨hheader, hlast⟩ := hends
  simp only [FrameHandlers.call] at hheader hlast
  subst hlast
  have hmarked := hs hheader
  have hcall : F.handlers.parseFrameSlice slice true s = s.headerParserParse slice true := by
    simp only [handlers, parseFrameSlice, hheader]
  simp only [ParseCall.KeepsBlock, ParseCall.CutsSkipped, ParseCall.EndsHeaders,
    FrameHandlers.call, hcall, hheader, true_and, and_self, true_implies]
  cases hleft : s.parser.leftOver slice with
  | none =>
    have hempty : ∀ s', s.headerParserParse slice true = .ok s' → s'.parser.unparsedBytes = [] := by
      intro s' hs'
      obtain ⟨p, hp, hrest⟩ := ReadState.headerParserParse_unparsedBytes hs'
      rw [hrest, HPackParser.parse_complete hleft hp]
    simp only [reduceCtorEq, false_implies, implies_true, false_and, exists_false, and_false,
      not_false_eq_true, iff_true]
    split
    · exact hempty
    · trivial
  | some rest =>
    have hparse := ReadState.headerParserParse_leftOver hleft
    rw [hmarked] at hparse
    by_cases ht : s.target = none
    · cases hend : s.header.endHeaders with
      | true =>
        simp only [ht, hend, Bool.not_true, Bool.false_and, Bool.false_eq_true, if_true, if_false]
          at hparse ⊢
        obtain ⟨s', hs', rfl⟩ := hparse
        simp [hs']
      | false =>
        simp only [ht, hend, Bool.not_false, Bool.true_and, bne_iff_ne, if_true] at hparse ⊢
        by_cases hid : s.header.streamId = 0
        · simpa [hid] using hparse
        · rw [if_pos hid] at hparse
          simp [hid, hparse]
    · cases hend : s.header.endHeaders with
      | true =>
        simp only [ht, hend, if_true, if_false] at hparse
        simp [ht, hparse]
      | false =>
        simp only [ht, hend, Bool.false_eq_true, if_false] at hparse
        simpa [ht] using hparse

/-! ## Runs of a transport -/

variable {P : ParseCall (ReadState ω) FrameError → Prop} {d : TracedDeframer ω}

theorem step_traced
    (hcall : ∀ {s : ReadState ω} slice isLast, s.Marked → P (F.handlers.call s slice isLast))
    (hd : FrameHandlers.Traced ReadState.Marked P d) (e : ReadEvent ω) :
    (F.step d e).Ends (FrameHandlers.Traced ReadState.Marked P) (FrameHandlers.FailedCalls P) := by
  cases e with
  | slice bytes =>
    exact FrameHandlers.performRead_preserves
      (FrameHandlers.traced_preserves initFrameParser_marked parseFrameSlice_marked hcall) nofun hd
  | change t others => exact ⟨hd.inside, hd.calls⟩
  | removeIncoming t others =>
    exact ⟨fun h => ReadState.becomeSkipParser_marked (hd.inside h), hd.calls⟩

theorem run_traced
    (hcall : ∀ {s : ReadState ω} slice isLast, s.Marked → P (F.handlers.call s slice isLast))
    (hd : FrameHandlers.Traced ReadState.Marked P d) (events : List (ReadEvent ω)) :
    (F.run d events).Ends (FrameHandlers.Traced ReadState.Marked P)
      (FrameHandlers.FailedCalls P) := by
  induction events generalizing d with
  | nil => exact hd
  | cons e es ih =>
    have hstep := step_traced hcall hd e
    rw [run]
    cases h : F.step d e with
    | error f => rw [h] at hstep; exact hstep
    | ok d' => rw [h] at hstep; exact ih hstep

theorem calls_forall
    (hcall : ∀ {s : ReadState ω} slice isLast, s.Marked → P (F.handlers.call s slice isLast))
    (s : ReadState ω) (events : List (ReadEvent ω)) : ∀ c ∈ F.calls s events, P c := by
  have hrun := run_traced hcall (FrameHandlers.traced_start s.transport.isClient s) events
  unfold calls
  cases h : F.run (.start s.transport.isClient (s, [])) events with
  | error f => rw [h] at hrun; exact hrun
  | ok d => rw [h] at hrun; exact hrun.calls

/-- In every run the header blocks are kept apart and together exactly if no frame whose headers are
skipped ends inside an element. -/
theorem run_keepsBlock_iff (F : OtherFrames ω) (s : ReadState ω) (events : List (ReadEvent ω)) :
    (∀ c ∈ F.calls s events, c.KeepsBlock) ↔ ∀ c ∈ F.calls s events, ¬ c.CutsSkipped :=
  forall₂_congr (calls_forall (fun _ isLast hs => call_keepsBlock_iff hs isLast) s events)

/-- A client without streams. -/
def noStreams : ReadState OtherState where
  transport := { isClient := true, nextStreamId := 1 }
  others := {}

/-- SETTINGS, and HEADERS for stream 1 with the first byte of a literal header. -/
def settingsAndCutHeaders (flags : UInt8) : Bytes :=
  [0, 0, 0, 4, 0, 0, 0, 0, 0] ++ [0, 0, 1, 1, flags, 0, 0, 0, 1] ++ [0x40]

/-- With END_HEADERS the byte stays for the next block. Without it, the frame is refused. -/
theorem run_skipped_block_cut :
    (∃ c ∈ TransportEnv.accepting.frames.calls noStreams [.slice (settingsAndCutHeaders 4)],
      c.EndsHeaders ∧ c.before.header.endHeaders = true ∧
        ∃ s, c.result = .ok s ∧ s.parser.unparsedBytes = [0x40]) ∧
      ∃ c ∈ TransportEnv.accepting.frames.calls noStreams [.slice (settingsAndCutHeaders 0)],
        c.EndsHeaders ∧ c.before.header.endHeaders = false ∧
          c.result = .error (.headers .incompleteHeader) :=
  ⟨⟨_, .tail _ (.head _), ⟨rfl, rfl⟩, rfl, _, rfl, rfl⟩,
    ⟨_, .tail _ (.head _), ⟨rfl, rfl⟩, rfl, rfl⟩⟩

end OtherFrames

end GrpcCore
