import GrpcCore.Chttp2.Transport

/-!
# The HTTP/2 deframer

`grpc_chttp2_perform_read` and `parse_frame_slice` (`parsing.cc`). The deframer reads the connection
preface byte by byte, then frames: the nine bytes of a header, one state each, and the payload,
which goes to the parser of the frame in the pieces that the slices make of it. What becomes of a
frame is up to `init_frame_parser` and the parser it installs, which are a parameter here
(`FrameHandlers`).

`FrameHandlers.performRead_preserves` is the rule for invariants of a read, and
`FrameHandlers.traced_preserves` the one for what holds at every call of `parse_frame_slice`. Slices
and cuts are in `GrpcCore.Chttp2.DeframerCuts`.
-/

namespace GrpcCore

open List

/-- `grpc_chttp2_deframe_transport_state`. -/
inductive DeframeState where
  | clientPrefix (i : Fin 24)
  | fh (i : Fin 9)
  | frame
  deriving DecidableEq

/-- `GRPC_DTS_FH_0`. -/
abbrev DeframeState.fh0 : DeframeState := .fh 0

/-- `GRPC_CHTTP2_CLIENT_CONNECT_STRING`. -/
def clientConnectString : Bytes := ascii "PRI * HTTP/2.0\r\n\r\nSM\r\n\r\n"

/-- `init_frame_parser`, `parse_frame_slice`, the acknowledged setting `MAX_FRAME_SIZE`, and
`t->incoming_stream = nullptr` at the end of a frame, on the rest `σ` of the transport. -/
structure FrameHandlers (σ ε : Type) where
  initFrameParser : FrameHeader → σ → Except ε σ
  parseFrameSlice : Bytes → Bool → σ → Except ε σ
  maxFrameSize : σ → Nat
  endFrame : σ → σ

/-- The fields of the transport that the deframer works on, and the rest of the transport. The last
two fields are for the statements only: the frames that were parsed to their end, each with its
payload, and the frame that is being parsed, with the payload so far. -/
structure Deframer (σ : Type) where
  deframeState : DeframeState
  incomingFrameSize : Nat
  incomingFrameType : UInt8
  incomingFrameFlags : UInt8
  incomingStreamId : Nat
  rest : σ
  frames : List (FrameHeader × Bytes) := []
  current : FrameHeader × Bytes

/-- The errors of the deframer, and those of the frame parsers. -/
inductive DeframeError (ε : Type) where
  | connectMismatch (expected got : UInt8) (byte : Nat)
  | frameTooLarge (size max : Nat)
  | frame (e : ε)

def getUtf8SafeChar (c : UInt8) : Char := if c < 128 then Char.ofNat c.toNat else ' '

def DeframeError.message {ε : Type} (text : ε → String) : DeframeError ε → String
  | .connectMismatch expected got byte =>
    s!"Connect string mismatch: expected '{getUtf8SafeChar expected}' ({expected.toNat}) " ++
      s!"got '{getUtf8SafeChar got}' ({got.toNat}) at byte {byte}"
  | .frameTooLarge size max => s!"Frame size {size} is larger than max frame size {max}"
  | .frame e => text e

/-- An error, with the frames that were parsed before it and the header of the frame it is in. -/
structure Failure (ε : Type) where
  error : DeframeError ε
  frames : List (FrameHeader × Bytes)
  header : FrameHeader

/-- What a read comes to: the deframer, or the error. -/
abbrev ReadResult (σ ε : Type) := Except (Failure ε) (Deframer σ)

namespace Deframer

variable {σ ε : Type}

/-- The deframer of a transport at its creation: a server waits for the connection preface. -/
def start (isClient : Bool) (rest : σ) : Deframer σ where
  deframeState := if isClient then .fh 0 else .clientPrefix 0
  incomingFrameSize := 0
  incomingFrameType := 0
  incomingFrameFlags := 0
  incomingStreamId := 0
  rest := rest
  current := (⟨0, 0, 0, 0⟩, [])

def fail (d : Deframer σ) (e : DeframeError ε) : Failure ε := ⟨e, d.frames, d.current.1⟩

def header (d : Deframer σ) : FrameHeader :=
  ⟨d.incomingFrameSize, d.incomingFrameType, d.incomingFrameFlags, d.incomingStreamId⟩

/-- The states `GRPC_DTS_FH_0` to `GRPC_DTS_FH_8`: where the byte of a frame header goes. -/
def headerByte (d : Deframer σ) (i : Fin 9) (cur : UInt8) : Deframer σ :=
  match i with
  | 0 => { d with incomingFrameSize := cur.toNat <<< 16 }
  | 1 => { d with incomingFrameSize := d.incomingFrameSize ||| cur.toNat <<< 8 }
  | 2 => { d with incomingFrameSize := d.incomingFrameSize ||| cur.toNat }
  | 3 => { d with incomingFrameType := cur }
  | 4 => { d with incomingFrameFlags := cur }
  | 5 => { d with incomingStreamId := (cur.toNat &&& 0x7f) <<< 24 }
  | 6 => { d with incomingStreamId := d.incomingStreamId ||| cur.toNat <<< 16 }
  | 7 => { d with incomingStreamId := d.incomingStreamId ||| cur.toNat <<< 8 }
  | 8 => { d with incomingStreamId := d.incomingStreamId ||| cur.toNat }

/-- The state after a byte of the connection preface. -/
def nextPrefix (i : Fin 24) : DeframeState :=
  if h : i.val + 1 < 24 then .clientPrefix ⟨i.val + 1, h⟩ else .fh 0

end Deframer

namespace FrameHandlers

variable {σ ε : Type} (H : FrameHandlers σ ε)

/-- `parse_frame_slice`, and what the deframer does after the last piece of a frame. -/
def deliver (d : Deframer σ) (piece : Bytes) (isLast : Bool) :
    ReadResult σ ε :=
  match H.parseFrameSlice piece isLast d.rest with
  | .error e => .error (d.fail (.frame e))
  | .ok rest =>
    let current := (d.current.1, d.current.2 ++ piece)
    if isLast then
      .ok { d with
        deframeState := .fh 0
        rest := H.endFrame rest
        frames := d.frames ++ [current]
        current := current }
    else .ok { d with rest := rest, current := current }

/-- The end of the state `GRPC_DTS_FH_8`. -/
def startFrame (d : Deframer σ) : ReadResult σ ε :=
  let d := { d with deframeState := .frame, current := (d.header, []) }
  match H.initFrameParser d.header d.rest with
  | .error e => .error (d.fail (.frame e))
  | .ok rest =>
    let d := { d with rest := rest }
    if d.incomingFrameSize = 0 then H.deliver d [] true
    else if H.maxFrameSize d.rest < d.incomingFrameSize then
      .error (d.fail (.frameTooLarge d.incomingFrameSize (H.maxFrameSize d.rest)))
    else .ok d

/-- The state after a byte of a frame header. -/
def readHeaderByte (d : Deframer σ) (i : Fin 9) (cur : UInt8) :
    ReadResult σ ε :=
  let d := d.headerByte i cur
  if h : i.val + 1 < 9 then .ok { d with deframeState := .fh ⟨i.val + 1, h⟩ } else H.startFrame d

/-- The states of `grpc_chttp2_perform_read` on the bytes from `cur` to `end`, for at most as many
rounds as `fuel`: the preface and the headers take one byte, a frame as many as there are. -/
def loop : Nat → Deframer σ → Bytes → ReadResult σ ε
  | 0, d, _ => .ok d
  | _ + 1, d, [] => .ok d
  | fuel + 1, d, cur :: rest =>
    match d.deframeState with
    | .clientPrefix i =>
      let expected := clientConnectString.getD i 0
      if cur = expected then
        loop fuel { d with deframeState := Deframer.nextPrefix i } rest
      else .error (d.fail (.connectMismatch expected cur i))
    | .fh i => (H.readHeaderByte d i cur).bind fun d => loop fuel d rest
    | .frame =>
      let slice := cur :: rest
      let left := u32 slice.length
      if left = d.incomingFrameSize then H.deliver d slice true
      else if d.incomingFrameSize < left then
        (H.deliver d (slice.take d.incomingFrameSize) true).bind fun d' =>
          loop fuel d' (slice.drop d.incomingFrameSize)
      else
        (H.deliver d slice false).map fun d' =>
          { d' with incomingFrameSize := d.incomingFrameSize - left }

/-- `grpc_chttp2_perform_read`. -/
def performRead (d : Deframer σ) (slice : Bytes) : ReadResult σ ε :=
  H.loop (2 * slice.length + 2) d slice

/-- The slices of the read buffer one after the other, up to the first error. -/
def performReads (d : Deframer σ) : List Bytes → ReadResult σ ε
  | [] => .ok d
  | slice :: slices => (H.performRead d slice).bind fun d => performReads d slices

/-! ## Rounds -/

variable {H} {d d' : Deframer σ} {x y : Bytes}

variable {piece : Bytes} {k : Nat}

theorem deliver_ok {isLast : Bool} (h : H.deliver d piece isLast = .ok d') :
    ∃ rest, H.parseFrameSlice piece isLast d.rest = .ok rest ∧
      d' = if isLast then
        { d with
          deframeState := .fh 0
          rest := H.endFrame rest
          frames := d.frames ++ [(d.current.1, d.current.2 ++ piece)]
          current := (d.current.1, d.current.2 ++ piece) }
      else { d with rest := rest, current := (d.current.1, d.current.2 ++ piece) } := by
  unfold deliver at h
  split at h
  · cases h
  · next rest heq =>
    refine ⟨rest, heq, ?_⟩
    cases isLast <;> cases h <;> rfl

theorem deliver_last (h : H.deliver d piece true = .ok d') :
    d'.deframeState = .fh 0 := by
  obtain ⟨rest, -, rfl⟩ := deliver_ok h
  rfl

/-- A bound on the rounds: two for every byte, since the end of a frame takes one of its own. -/
def rounds (d : Deframer σ) (x : Bytes) : Nat :=
  2 * x.length + if d.deframeState = .frame then 1 else 0

theorem rounds_le (d : Deframer σ) (x : Bytes) : rounds d x ≤ 2 * x.length + 1 := by
  unfold rounds
  split <;> omega

theorem rounds_eq (h : d.deframeState = .fh 0) (x : Bytes) : rounds d x = 2 * x.length := by
  simp [rounds, h]

theorem rounds_lt (h : d.deframeState ≠ .frame) (d' : Deframer σ) (cur : UInt8) (x : Bytes) :
    rounds d' x < rounds d (cur :: x) := by
  have := rounds_le d' x
  simp only [rounds, if_neg h, length_cons] at this ⊢
  omega

theorem loop_congr {l : Nat} (hk : rounds d x < k) (hl : rounds d x < l) :
    H.loop k d x = H.loop l d x := by
  induction k generalizing d x l with
  | zero => omega
  | succ k ih =>
    obtain ⟨l, rfl⟩ : ∃ j, l = j + 1 := ⟨l - 1, by omega⟩
    cases x with
    | nil => rfl
    | cons cur rest =>
      -- a byte of the preface or of a header leaves enough rounds for the rest
      have hbyte : d.deframeState ≠ .frame → ∀ d' : Deframer σ,
          H.loop k d' rest = H.loop l d' rest := by
        intro hstate d'
        have := rounds_lt hstate d' cur rest
        exact ih (by omega) (by omega)
      rw [loop, loop]
      cases hstate : d.deframeState with
      | clientPrefix i => simp only [hbyte (by simp [hstate])]
      | fh i => simp only [hbyte (by simp [hstate])]
      | frame =>
        simp only [rounds, if_pos hstate] at hk hl
        have hdrop := length_drop (i := d.incomingFrameSize) (l := cur :: rest)
        simp only
        cases hdeliver : H.deliver d ((cur :: rest).take d.incomingFrameSize) true with
        | error e => rfl
        | ok d' =>
          have hrounds := rounds_eq (deliver_last hdeliver) ((cur :: rest).drop d.incomingFrameSize)
          simp only [Except.bind]
          rw [ih (d := d') (l := l) (by omega) (by omega)]

theorem loop_eq_performRead (h : rounds d x < k) : H.loop k d x = H.performRead d x :=
  loop_congr h (by have := rounds_le d x; omega)

theorem performRead_clientPrefix {i : Fin 24} (h : d.deframeState = .clientPrefix i) (cur : UInt8)
    (x : Bytes) : H.performRead d (cur :: x) =
      if cur = clientConnectString.getD i 0 then
        H.performRead { d with deframeState := Deframer.nextPrefix i } x
      else .error (d.fail (.connectMismatch (clientConnectString.getD i 0) cur i)) := by
  rw [performRead, loop, h]
  simp only
  rw [loop_eq_performRead]
  have := rounds_le { d with deframeState := Deframer.nextPrefix i } x
  simp only [length_cons]
  omega

theorem performRead_fh {i : Fin 9} (h : d.deframeState = .fh i) (cur : UInt8) (x : Bytes) :
    H.performRead d (cur :: x) =
      (H.readHeaderByte d i cur).bind fun d => H.performRead d x := by
  rw [performRead, loop, h]
  simp only
  congr 1
  funext d'
  have := rounds_le d' x
  refine loop_eq_performRead ?_
  simp only [length_cons]
  omega

theorem performRead_frame (h : d.deframeState = .frame) (hx : x ≠ []) :
    H.performRead d x =
      if u32 x.length = d.incomingFrameSize then H.deliver d x true
      else if d.incomingFrameSize < u32 x.length then
        (H.deliver d (x.take d.incomingFrameSize) true).bind fun d' =>
          H.performRead d' (x.drop d.incomingFrameSize)
      else
        (H.deliver d x false).map fun d' =>
          { d' with incomingFrameSize := d.incomingFrameSize - u32 x.length } := by
  obtain ⟨cur, rest, rfl⟩ := exists_cons_of_ne_nil hx
  rw [performRead, loop, h]
  simp only
  cases hdeliver : H.deliver d ((cur :: rest).take d.incomingFrameSize) true with
  | error e => rfl
  | ok d' =>
    have hrounds := rounds_eq (deliver_last hdeliver) ((cur :: rest).drop d.incomingFrameSize)
    have hdrop := length_drop (i := d.incomingFrameSize) (l := cur :: rest)
    simp only [Except.bind]
    rw [loop_eq_performRead (by omega)]

end FrameHandlers

/-! ## Invariants -/

/-- A read ends in a deframer that satisfies `I`, or in a failure that satisfies `E`. -/
def ReadResult.Ends {σ ε : Type} (I : Deframer σ → Prop) (E : Failure ε → Prop) :
    ReadResult σ ε → Prop
  | .ok d => I d
  | .error f => E f

namespace FrameHandlers

variable {σ ε : Type} {H : FrameHandlers σ ε} {I : Deframer σ → Prop} {E : Failure ε → Prop}

/-- The cases of an invariant of `grpc_chttp2_perform_read`: the preface, the bytes of a header, and
the two kinds of pieces. If the slice is short (`b`), a piece is the last one of its frame exactly
if it has the length that is left. -/
structure Preserves (H : FrameHandlers σ ε) (I : Deframer σ → Prop) (E : Failure ε → Prop)
    (b : Prop) : Prop where
  clientPrefix : ∀ {d i}, I d → d.deframeState = .clientPrefix i →
    I { d with deframeState := Deframer.nextPrefix i }
  mismatch : ∀ {d i} cur, I d → d.deframeState = .clientPrefix i →
    E (d.fail (.connectMismatch (clientConnectString.getD i 0) cur i))
  header : ∀ {d i} cur, I d → d.deframeState = .fh i → (H.readHeaderByte d i cur).Ends I E
  last : ∀ {d} piece, I d → d.deframeState = .frame → (b → piece.length = d.incomingFrameSize) →
    (H.deliver d piece true).Ends I E
  piece : ∀ {d} piece, I d → d.deframeState = .frame →
    (b → u32 piece.length = piece.length ∧ piece.length < d.incomingFrameSize) →
    ReadResult.Ends I E ((H.deliver d piece false).map fun d' =>
      { d' with incomingFrameSize := d.incomingFrameSize - u32 piece.length })

theorem performRead_preserves {b : Prop} (h : H.Preserves I E b) {d : Deframer σ} {x : Bytes}
    (hb : b → x.length < 2 ^ 32) (hd : I d) : (H.performRead d x).Ends I E := by
  induction hn : rounds d x using Nat.strongRecOn generalizing d x with
  | ind n ih =>
    subst hn
    cases x with
    | nil => exact hd
    | cons cur x =>
      have hb' : b → x.length < 2 ^ 32 := fun h => by
        have := hb h
        rw [length_cons] at this
        omega
      cases hstate : d.deframeState with
      | clientPrefix i =>
        rw [performRead_clientPrefix hstate]
        split
        · exact ih _ (rounds_lt (by simp [hstate]) _ cur x) hb' (h.clientPrefix hd hstate) rfl
        · exact h.mismatch cur hd hstate
      | fh i =>
        have hbyte := h.header cur hd hstate
        rw [performRead_fh hstate]
        cases hread : H.readHeaderByte d i cur with
        | error e => rw [hread] at hbyte; exact hbyte
        | ok d₁ =>
          rw [hread] at hbyte
          exact ih _ (rounds_lt (by simp [hstate]) d₁ cur x) hb' hbyte rfl
      | frame =>
        have hne : cur :: x ≠ [] := cons_ne_nil cur x
        generalize cur :: x = z at *
        have hu : b → u32 z.length = z.length := fun h => u32_of_lt (hb h)
        rw [performRead_frame hstate hne]
        split
        · next heq => exact h.last z hd hstate fun h => by rw [← heq, hu h]
        split
        · next hlt =>
          have hle : u32 z.length ≤ z.length := Nat.mod_le _ _
          have hlast := h.last (z.take d.incomingFrameSize) hd hstate fun _ => by
            rw [length_take]
            omega
          cases hdeliver : H.deliver d (z.take d.incomingFrameSize) true with
          | error e => rw [hdeliver] at hlast; exact hlast
          | ok d₁ =>
            rw [hdeliver] at hlast
            have hrounds := rounds_eq (deliver_last hdeliver) (z.drop d.incomingFrameSize)
            have hdrop := length_drop (i := d.incomingFrameSize) (l := z)
            refine ih _ ?_ (fun h => by have := hb h; omega) hlast rfl
            rw [hrounds, rounds, if_pos hstate]
            omega
        · refine h.piece z hd hstate fun h => ⟨hu h, ?_⟩
          have := hu h
          omega

end FrameHandlers

/-! ## The calls of the frame parsers -/

/-- A call of `parse_frame_slice`: the state before it, its arguments and what it returned. -/
structure ParseCall (σ ε : Type) where
  before : σ
  piece : Bytes
  isLast : Bool
  result : Except ε σ

namespace FrameHandlers

variable {σ ε : Type} (H : FrameHandlers σ ε)

/-- The call of `parse_frame_slice` on these arguments. -/
def call (s : σ) (piece : Bytes) (isLast : Bool) : ParseCall σ ε :=
  ⟨s, piece, isLast, H.parseFrameSlice piece isLast s⟩

/-- The same handlers, which also keep the calls of `parse_frame_slice`, in order. -/
def traced : FrameHandlers (σ × List (ParseCall σ ε)) (ε × List (ParseCall σ ε)) where
  initFrameParser h s :=
    match H.initFrameParser h s.1 with
    | .ok s' => .ok (s', s.2)
    | .error e => .error (e, s.2)
  parseFrameSlice piece isLast s :=
    let calls := s.2 ++ [H.call s.1 piece isLast]
    match H.parseFrameSlice piece isLast s.1 with
    | .ok s' => .ok (s', calls)
    | .error e => .error (e, calls)
  maxFrameSize s := H.maxFrameSize s.1
  endFrame s := (H.endFrame s.1, s.2)

/-- The result of a read with the calls that were made. -/
abbrev TracedResult (σ ε : Type) :=
  ReadResult (σ × List (ParseCall σ ε)) (ε × List (ParseCall σ ε))

/-- The calls of a read that succeeds or ends in an error of a frame parser. -/
def TracedResult.calls {σ ε : Type} : TracedResult σ ε → List (ParseCall σ ε)
  | .ok d => d.rest.2
  | .error ⟨.frame (_, calls), _, _⟩ => calls
  | .error _ => []

/-- What holds of the state inside every frame holds at every call. -/
structure Traced (B : σ → Prop) (P : ParseCall σ ε → Prop)
    (d : Deframer (σ × List (ParseCall σ ε))) : Prop where
  inside : d.deframeState = .frame → B d.rest.1
  calls : ∀ c ∈ d.rest.2, P c

variable {H} {B : σ → Prop} {P : ParseCall σ ε → Prop} {d : Deframer (σ × List (ParseCall σ ε))}

/-- The calls that a failure reports satisfy `P`. -/
def FailedCalls (P : ParseCall σ ε → Prop) (f : Failure (ε × List (ParseCall σ ε))) : Prop :=
  ∀ c ∈ TracedResult.calls (.error f), P c

theorem traced_start (isClient : Bool) (s : σ) :
    Traced B P (.start isClient (s, []) : Deframer (σ × List (ParseCall σ ε))) := by
  refine ⟨fun h => ?_, nofun⟩
  cases isClient <;> cases h

variable {piece : Bytes}

theorem traced_deliver {isLast : Bool} (hd : ∀ c ∈ d.rest.2, P c)
    (hcall : P (H.call d.rest.1 piece isLast)) :
    (H.traced.deliver d piece isLast).Ends
      (fun d' => (∀ c ∈ d'.rest.2, P c) ∧ (isLast = true → d'.deframeState = .fh 0) ∧
        (isLast = false → H.parseFrameSlice piece isLast d.rest.1 = .ok d'.rest.1))
      (FailedCalls P) := by
  have hcalls : ∀ c ∈ d.rest.2 ++ [H.call d.rest.1 piece isLast], P c := by
    intro c hc
    rcases mem_append.1 hc with hc | hc
    · exact hd c hc
    · rw [mem_singleton.1 hc]
      exact hcall
  unfold deliver
  simp only [traced]
  cases hparse : H.parseFrameSlice piece isLast d.rest.1 with
  | error e => exact hcalls
  | ok s =>
    cases isLast with
    | true => exact ⟨hcalls, fun _ => rfl, nofun⟩
    | false => exact ⟨hcalls, nofun, fun _ => rfl⟩

theorem traced_last (hd : ∀ c ∈ d.rest.2, P c) (hcall : P (H.call d.rest.1 piece true)) :
    (H.traced.deliver d piece true).Ends (Traced B P) (FailedCalls P) := by
  have h := traced_deliver hd hcall
  cases hdeliver : H.traced.deliver d piece true with
  | error f => rw [hdeliver] at h; exact h
  | ok d' =>
    rw [hdeliver] at h
    refine ⟨fun hframe => ?_, h.1⟩
    rw [h.2.1 rfl] at hframe
    cases hframe

theorem traced_startFrame (hinit : ∀ {h s s'}, H.initFrameParser h s = .ok s' → B s')
    (hcall : ∀ {s} piece isLast, B s → P (H.call s piece isLast)) (hd : ∀ c ∈ d.rest.2, P c) :
    (H.traced.startFrame d).Ends (Traced B P) (FailedCalls P) := by
  unfold startFrame
  simp only
  cases hs : H.initFrameParser d.header d.rest.1 with
  | error e =>
    have htraced : H.traced.initFrameParser d.header d.rest = .error (e, d.rest.2) := by
      simp only [traced, hs]
    have heq : ({ d with deframeState := .frame, current := (d.header, []) } :
      Deframer _).header = d.header := rfl
    rw [heq, htraced]
    exact hd
  | ok s' =>
    have htraced : H.traced.initFrameParser d.header d.rest = .ok (s', d.rest.2) := by
      simp only [traced, hs]
    have heq : ({ d with deframeState := .frame, current := (d.header, []) } :
      Deframer _).header = d.header := rfl
    rw [heq, htraced]
    simp only
    split
    · exact traced_last hd (hcall [] true (hinit hs))
    · split
      · exact nofun
      · exact ⟨fun _ => hinit hs, hd⟩

/-- What `init_frame_parser` establishes and every piece but the last preserves holds at every call
of `parse_frame_slice`. -/
theorem traced_preserves (hinit : ∀ {h s s'}, H.initFrameParser h s = .ok s' → B s')
    (hpiece : ∀ {s piece s'}, B s → H.parseFrameSlice piece false s = .ok s' → B s')
    (hcall : ∀ {s} piece isLast, B s → P (H.call s piece isLast)) :
    H.traced.Preserves (Traced B P) (FailedCalls P) False where
  clientPrefix {d i} hd _ := by
    refine ⟨fun hframe => ?_, hd.calls⟩
    simp only [Deframer.nextPrefix] at hframe
    split at hframe <;> cases hframe
  mismatch cur _ _ := nofun
  header {d i} cur hd _ := by
    have hrest : (d.headerByte i cur).rest = d.rest := by
      unfold Deframer.headerByte
      split <;> rfl
    unfold readHeaderByte
    split
    · exact ⟨nofun, by rw [hrest]; exact hd.calls⟩
    · exact traced_startFrame hinit hcall (by rw [hrest]; exact hd.calls)
  last {d} piece hd hframe _ := traced_last hd.calls (hcall piece true (hd.inside hframe))
  piece {d} piece hd hframe _ := by
    have h := traced_deliver hd.calls (hcall piece false (hd.inside hframe))
    cases hdeliver : H.traced.deliver d piece false with
    | error f => rw [hdeliver] at h; exact h
    | ok d' =>
      rw [hdeliver] at h
      exact ⟨fun _ => hpiece (hd.inside hframe) (h.2.2 rfl), h.1⟩

end FrameHandlers

/-! ## Observers -/

/-- The same handlers with something that sees every piece and that they do not see. -/
def FrameHandlers.observed {σ ε ρ : Type} (H : FrameHandlers σ ε) (see : Bytes → Bool → σ → ρ → ρ) :
    FrameHandlers (σ × ρ) ε where
  initFrameParser h s := (H.initFrameParser h s.1).map (·, s.2)
  parseFrameSlice piece isLast s :=
    (H.parseFrameSlice piece isLast s.1).map (·, see piece isLast s.1 s.2)
  maxFrameSize s := H.maxFrameSize s.1
  endFrame s := (H.endFrame s.1, s.2)

/-- The deframer without the observer. -/
def Deframer.unobserved {σ ρ : Type} (d : Deframer (σ × ρ)) : Deframer σ :=
  { d with rest := d.rest.1 }

namespace FrameHandlers

variable {σ ε ρ : Type} {H : FrameHandlers σ ε} (see : Bytes → Bool → σ → ρ → ρ)

end FrameHandlers

end GrpcCore
