import GrpcCore.Hpack.Parser

/-!
# Limits of a header block

The HPACK parser limits the size of the headers it stores (`metadata_size_limit`) and the number of
updates of the table size, of which none may come after a header. Both limits are meant for a header
block. The parser counts in `frame_length_` and `dynamic_table_updates_allowed_`, which `BeginFrame`
resets for every frame, so that it checks them for the frames of a block, each by itself; and a
literal, unlike an indexed header, does not end the updates.

A block is a run of the parser over one HEADERS frame and CONTINUATION frames (`BlockState`). Beside
the parser stands what the block has brought so far (`BlockCounts`), which the parser knows nothing
of; `BlockState.parse_eq` and `BlockState.run_metadataBuffer` connect the two.
`BlockState.run_within_iff`: the limits hold for the block if and only if no element passes the
check of its frame for which the block has no room left.
-/

namespace GrpcCore

open Incremental

/-- An element that has been read from its first to its last byte. -/
inductive ReadElement where
  | header (md : Memento)
  | tableSize (size : Nat)

namespace Parser

/-- The element that `input` begins with, if it is complete. The header of an index that is not in
the table is none. -/
def readElement (s : Parser) : Bytes → Option ReadElement
  | [] => none
  | cur :: input =>
    match Element.of s.table cur with
    | .omitFromTable md | .addToTable md => (md input).toOption.map fun r => .header r.1
    | .indexed index => (index input).toOption.bind fun r => (s.table.lookup r.1).map .header
    | .maxTableSize size => (size input).toOption.map fun r => .tableSize r.1
    | .illegal => none

/-- Whether `input` begins with an indexed header, complete or not. -/
def beginsIndexed (s : Parser) : Bytes → Bool
  | [] => false
  | cur :: _ => match Element.of s.table cur with
    | .indexed _ => true
    | _ => false

/-- Whether the table accepts the size. -/
def takesTableSize (s : Parser) (size : Nat) : Bool :=
  match s.table.setCurrentTableSize size with
  | some (.ok _) => true
  | _ => false

end Parser

/-- The sum of `transport_size` over headers. -/
def transportSizes (headers : List Memento) : Nat := (headers.map (·.transportSize)).sum

@[simp] theorem transportSizes_nil : transportSizes [] = 0 := rfl

@[simp] theorem transportSizes_append (l l' : List Memento) :
    transportSizes (l ++ l') = transportSizes l + transportSizes l' := by
  simp [transportSizes]

@[simp] theorem transportSizes_singleton (md : Memento) :
    transportSizes [md] = md.transportSize := by
  simp [transportSizes]

/-- Headers that were stored in the metadata buffer, and updates of the table size. -/
structure Counts where
  stored : List Memento := []
  updates : Nat := 0

/-- What a header block has brought so far, as a whole and in the frame that is being parsed.
`representation`: a header has been read. `indexed`: an indexed header has begun in this frame.
`late`: an update was accepted after a header. `unnoticed`: an element has passed the check of its
frame though the block had no room for it. -/
structure BlockCounts where
  block : Counts := {}
  frame : Counts := {}
  representation : Bool := false
  indexed : Bool := false
  late : Bool := false
  unnoticed : Bool := false

namespace BlockCounts

def Within (c : BlockCounts) (limit : Nat) : Prop :=
  transportSizes c.block.stored ≤ limit ∧ c.block.updates ≤ 2 ∧ c.late = false

instance (c : BlockCounts) (limit : Nat) : Decidable (c.Within limit) :=
  inferInstanceAs (Decidable (_ ∧ _))

/-- The account tells whether the limits hold. -/
abbrev Settled (limit : Nat) (c : BlockCounts) : Prop := c.Within limit ↔ c.unnoticed = false

/-- The element stays below the limits as they are checked, by what the frame has brought: a header
is stored, an update of the table size is accepted. The size of a frame is counted in 32 bits. -/
def PassesFrame (c : BlockCounts) (s : Parser) : ReadElement → Prop
  | .header md => s.metadataBuffer.isSome ∧
      u32 (transportSizes c.frame.stored + md.transportSize) ≤ s.metadataSizeLimit
  | .tableSize size => c.frame.updates < 2 ∧ c.indexed = false ∧ s.takesTableSize size

/-- The element stays below the limits of the block. -/
def FitsBlock (c : BlockCounts) (limit : Nat) : ReadElement → Prop
  | .header md => transportSizes c.block.stored + md.transportSize ≤ limit
  | .tableSize _ => c.block.updates < 2 ∧ c.representation = false

instance (c : BlockCounts) (s : Parser) (e : ReadElement) : Decidable (c.PassesFrame s e) := by
  cases e <;> unfold PassesFrame <;> exact inferInstance

instance (c : BlockCounts) (limit : Nat) (e : ReadElement) : Decidable (c.FitsBlock limit e) := by
  cases e <;> unfold FitsBlock <;> exact inferInstance

/-- The headers that a step adds to the metadata buffer. -/
def newHeaders (s : Parser) (r : Step Parser UInt8 ParseError) : List Memento :=
  (r.state.metadataBuffer.getD []).drop (s.metadataBuffer.getD []).length

/-- Whether a step goes on to the next element. -/
def isDone : Step Parser UInt8 ParseError → Bool
  | .done _ _ => true
  | _ => false

/-- What a step does to the headers that are stored. -/
def noteStored (c : BlockCounts) (headers : List Memento) : BlockCounts :=
  { c with
    block := { c.block with stored := c.block.stored ++ headers }
    frame := { c.frame with stored := c.frame.stored ++ headers }
    representation := true }

/-- An update of the table size that is accepted. -/
def noteUpdate (c : BlockCounts) : BlockCounts :=
  { c with
    block := { c.block with updates := c.block.updates + 1 }
    frame := { c.frame with updates := c.frame.updates + 1 }
    late := c.late || c.representation }

/-- An element that passes its frame and does not fit into the block. -/
def noteUnnoticed (c : BlockCounts) (s : Parser) (e : ReadElement) : BlockCounts :=
  if c.PassesFrame s e ∧ ¬ c.FitsBlock s.metadataSizeLimit e then { c with unnoticed := true }
  else c

/-- The account of the element that a step `r` of the parser has read from `input`. -/
def note (s : Parser) (input : Bytes) (r : Step Parser UInt8 ParseError) (c : BlockCounts) :
    BlockCounts :=
  if s.priority = .included then c
  else
    let indexed := c.indexed || s.beginsIndexed input
    match s.readElement input with
    | none => { c with indexed }
    | some (.header md) =>
      { (c.noteUnnoticed s (.header md)).noteStored (newHeaders s r) with indexed }
    | some (.tableSize size) =>
      let c := c.noteUnnoticed s (.tableSize size)
      if isDone r then { c.noteUpdate with indexed } else { c with indexed }

end BlockCounts

/-- A header block that is being parsed. -/
structure BlockState where
  parser : HPackParser
  counts : BlockCounts := {}
  error : Option ParseError := none

/-- A slice of a frame of the block, or the next frame. -/
inductive BlockOp where
  | slice (bytes : Bytes) (isLast : Bool)
  | continuation (boundary : Boundary) (priority : Priority)

namespace BlockState

/-- `BeginFrame` for the HEADERS frame. -/
def start (p : HPackParser) (metadataBuffer : Option (List Memento)) (metadataSizeLimit : Nat)
    (boundary : Boundary) (priority : Priority) : BlockState :=
  { parser := p.beginFrame metadataBuffer metadataSizeLimit boundary priority }

/-- `HPackParser::Parse`, with the account of what it does. -/
def parse (b : BlockState) (slice : Bytes) (isLast : Bool) : BlockState :=
  match (Parser.machine.observed BlockCounts.note).feed
      ((b.parser.toParser, b.counts), b.parser.unparsedBytes) slice isLast with
  | .ok ((s, counts), rest) => { parser := ⟨s, rest⟩, counts }
  | .error ((s, counts), e) => { parser := ⟨s, []⟩, counts, error := some e }

/-- `BeginFrame` for a CONTINUATION frame: the metadata buffer of the stream and the limit are those
of the frame before. -/
def continuation (b : BlockState) (boundary : Boundary) (priority : Priority) : BlockState :=
  { b with
    parser :=
      b.parser.beginFrame b.parser.metadataBuffer b.parser.metadataSizeLimit boundary priority
    counts := { b.counts with frame := {}, indexed := false } }

/-- Nothing follows an error. -/
def step (b : BlockState) (op : BlockOp) : BlockState :=
  if b.error.isSome then b
  else
    match op with
    | .slice bytes isLast => b.parse bytes isLast
    | .continuation boundary priority => b.continuation boundary priority

/-- The account leaves the parser alone. -/
theorem parse_eq (b : BlockState) (slice : Bytes) (isLast : Bool) :
    ((b.parse slice isLast).parser, (b.parse slice isLast).error) =
      b.parser.parse slice isLast := by
  rw [HPackParser.parse_eq, ← Machine.unobserved_feed BlockCounts.note
    (b.parser.toParser, b.counts) b.parser.unparsedBytes slice isLast]
  unfold parse
  cases (Parser.machine.observed BlockCounts.note).feed
      ((b.parser.toParser, b.counts), b.parser.unparsedBytes) slice isLast with
  | ok r => rfl
  | error r => rfl

end BlockState

/-! ## The counters of the parser -/

/-- The account as the parser keeps it: its counters are those of the frame. -/
structure Counted (limit : Nat) (buffer : Option (List Memento)) (s : Parser) (c : BlockCounts) :
    Prop where
  frameLength : s.frameLength = u32 (transportSizes c.frame.stored)
  updatesAllowed : s.dynamicTableUpdatesAllowed = if c.indexed then 0 else 2 - c.frame.updates
  metadataBuffer : s.metadataBuffer = buffer.map (· ++ c.block.stored)
  metadataSizeLimit : s.metadataSizeLimit = limit
  settled : c.Settled limit

namespace Counted

open BlockCounts

variable {limit : Nat} {buffer : Option (List Memento)} {s s' : Parser} {c : BlockCounts}
  {md : Memento} {size : Nat} {r : Step Parser UInt8 ParseError}

theorem noteUnnoticed_of_not_passes {e : ReadElement} (hpass : ¬ c.PassesFrame s e) :
    c.noteUnnoticed s e = c :=
  if_neg fun hbad => hpass hbad.1

theorem noteUnnoticed_keeps (c : BlockCounts) (s : Parser) (e : ReadElement) :
    (c.noteUnnoticed s e).block = c.block ∧ (c.noteUnnoticed s e).frame = c.frame ∧
      (c.noteUnnoticed s e).indexed = c.indexed := by
  unfold noteUnnoticed
  split <;> exact ⟨rfl, rfl, rfl⟩

/-- A header that passes its frame is stored, and noted if the block has no room for it. -/
theorem settled_noteStored (h : Counted limit buffer s c) (hpass : c.PassesFrame s (.header md)) :
    ((c.noteUnnoticed s (.header md)).noteStored [md]).Settled limit := by
  have hsettled := h.settled
  unfold noteUnnoticed
  rw [h.metadataSizeLimit]
  by_cases hfits : c.FitsBlock limit (.header md)
  · rw [if_neg (fun hbad => hbad.2 hfits)]
    simp only [FitsBlock] at hfits
    simp only [Settled, Within, noteStored, transportSizes_append, transportSizes_singleton]
      at hsettled ⊢
    rw [← hsettled]
    constructor
    · exact fun hw => ⟨by omega, hw.2⟩
    · exact fun hw => ⟨hfits, hw.2⟩
  · rw [if_pos ⟨hpass, hfits⟩]
    simp only [FitsBlock, Nat.not_le] at hfits
    simp only [Settled, Within, noteStored, transportSizes_append, transportSizes_singleton]
    constructor
    · exact fun hw => absurd hw.1 (by omega)
    · nofun

theorem settled_noteStored_nil (h : Counted limit buffer s c)
    (hpass : ¬ c.PassesFrame s (.header md)) :
    ((c.noteUnnoticed s (.header md)).noteStored []).Settled limit := by
  rw [noteUnnoticed_of_not_passes hpass]
  simpa [Settled, Within, noteStored] using h.settled

/-- `EmitHeader` counts as the account does, or fails. -/
theorem emitHeader (h : Counted limit buffer s c) (md : Memento) :
    ∀ headers, headers = ((s.emitHeader md).1.metadataBuffer.getD []).drop
        (s.metadataBuffer.getD []).length →
      ((s.emitHeader md).2 = none → Counted limit buffer (s.emitHeader md).1
        ((c.noteUnnoticed s (.header md)).noteStored headers)) ∧
      ((c.noteUnnoticed s (.header md)).noteStored headers).Settled limit := by
  intro headers hheaders
  cases hbuffer : s.metadataBuffer with
  | none =>
    have hpass : ¬ c.PassesFrame s (.header md) := by
      simp [PassesFrame, hbuffer]
    have hemit : s.emitHeader md = (s, none) := by simp [Parser.emitHeader, hbuffer]
    obtain rfl : headers = [] := by simpa [hemit, hbuffer] using hheaders
    refine ⟨fun _ => ?_, h.settled_noteStored_nil hpass⟩
    rw [hemit]
    have hsettled := h.settled_noteStored_nil hpass
    rw [noteUnnoticed_of_not_passes hpass] at hsettled ⊢
    exact ⟨by simpa [noteStored] using h.frameLength, h.updatesAllowed,
      by simpa [noteStored] using h.metadataBuffer, h.metadataSizeLimit, hsettled⟩
  | some stored =>
    have hlength : u32 (s.frameLength + md.transportSize) =
        u32 (transportSizes c.frame.stored + md.transportSize) := by
      rw [h.frameLength]
      exact Nat.mod_add_mod _ _ _
    have hstored : (some stored : Option (List Memento)) = buffer.map (· ++ c.block.stored) :=
      hbuffer ▸ h.metadataBuffer
    by_cases hle : u32 (transportSizes c.frame.stored + md.transportSize) ≤ s.metadataSizeLimit
    · have hpass : c.PassesFrame s (.header md) := ⟨by rw [hbuffer]; rfl, hle⟩
      have hemit : s.emitHeader md = ({ s with
          frameLength := u32 (transportSizes c.frame.stored + md.transportSize)
          metadataBuffer := some (stored ++ [md]) }, none) := by
        simp [Parser.emitHeader, hbuffer, hlength, Nat.not_lt.2 hle]
      obtain rfl : headers = [md] := by simpa [hemit, hbuffer] using hheaders
      have hsettled := h.settled_noteStored hpass
      refine ⟨fun _ => ?_, hsettled⟩
      rw [hemit]
      refine ⟨?_, ?_, ?_, h.metadataSizeLimit, hsettled⟩
      · simp [noteStored, noteUnnoticed_keeps]
      · simpa [noteStored, noteUnnoticed_keeps] using h.updatesAllowed
      · cases buffer with
        | none => cases hstored
        | some b =>
          cases hstored
          simp [noteStored, noteUnnoticed_keeps]
    · have hpass : ¬ c.PassesFrame s (.header md) := fun hpass => hle hpass.2
      have hemit : s.emitHeader md = ({ s with
          frameLength := u32 (transportSizes c.frame.stored + md.transportSize)
          metadataBuffer := some [] },
          some (.metadataSizeLimitExceeded
            (u32 (transportSizes c.frame.stored + md.transportSize)) s.metadataSizeLimit md)) := by
        simp [Parser.emitHeader, Parser.handleMetadataSizeLimitExceeded, hbuffer, hlength,
          Nat.not_le.1 hle]
      obtain rfl : headers = [] := by simpa [hemit, hbuffer] using hheaders
      refine ⟨fun hnone => ?_, h.settled_noteStored_nil hpass⟩
      rw [hemit] at hnone
      cases hnone

/-- An update that passes its frame is accepted, and noted if the block has no room for it. -/
theorem settled_noteUpdate (h : Counted limit buffer s c)
    (hpass : c.PassesFrame s (.tableSize size)) :
    (c.noteUnnoticed s (.tableSize size)).noteUpdate.Settled limit := by
  have hsettled := h.settled
  unfold noteUnnoticed
  by_cases hfits : c.FitsBlock s.metadataSizeLimit (.tableSize size)
  · rw [if_neg (fun hbad => hbad.2 hfits)]
    obtain ⟨hupdates, hrep⟩ := hfits
    simp only [Settled, Within, noteUpdate, hrep, Bool.or_false] at hsettled ⊢
    rw [← hsettled]
    constructor
    · exact fun hw => ⟨hw.1, by omega, hw.2.2⟩
    · exact fun hw => ⟨hw.1, hupdates, hw.2.2⟩
  · rw [if_pos ⟨hpass, hfits⟩]
    simp only [FitsBlock, not_and_or, Nat.not_lt, Bool.not_eq_false] at hfits
    simp only [Settled, Within, noteUpdate, Bool.or_eq_false_iff]
    constructor
    · rintro ⟨-, hle, -, hrep⟩
      rcases hfits with hupdates | hrep'
      · omega
      · exact absurd (hrep.symm.trans hrep') nofun
    · nofun

/-- An update of the table size is accepted exactly if it passes its frame. -/
theorem changeMaxTableSize (h : Counted limit buffer s c) (size : Nat) :
    (c.PassesFrame s (.tableSize size) →
      ∃ s', s.changeMaxTableSize size = (s', none) ∧
        Counted limit buffer s' (c.noteUnnoticed s (.tableSize size)).noteUpdate) ∧
    (¬ c.PassesFrame s (.tableSize size) → ∃ s' e, s.changeMaxTableSize size = (s', some e)) := by
  have hallowed : s.dynamicTableUpdatesAllowed = 0 ↔
      ¬ (c.frame.updates < 2 ∧ c.indexed = false) := by
    rw [h.updatesAllowed]
    cases c.indexed with
    | true => simp
    | false =>
      simp
      omega
  unfold Parser.changeMaxTableSize
  constructor
  · intro hpass
    obtain ⟨hlt, hindexed, htakes⟩ := id hpass
    rw [if_neg (fun hz => hallowed.1 hz ⟨hlt, hindexed⟩)]
    unfold Parser.takesTableSize at htakes
    split at htakes
    · next table htable =>
      simp only [htable]
      refine ⟨_, rfl, ?_⟩
      refine ⟨?_, ?_, ?_, h.metadataSizeLimit, h.settled_noteUpdate hpass⟩
      · simpa [noteUpdate, noteUnnoticed_keeps] using h.frameLength
      · simp only [noteUpdate, noteUnnoticed_keeps, hindexed, h.updatesAllowed]
        simp
        omega
      · simpa [noteUpdate, noteUnnoticed_keeps] using h.metadataBuffer
    · cases htakes
  · intro hpass
    by_cases hz : s.dynamicTableUpdatesAllowed = 0
    · rw [if_pos hz]
      exact ⟨_, _, rfl⟩
    · rw [if_neg hz]
      have htakes : s.takesTableSize size = false := by
        rw [hallowed, not_not] at hz
        exact Bool.eq_false_iff.2 fun ht => hpass ⟨hz.1, hz.2, ht⟩
      unfold Parser.takesTableSize at htakes
      dsimp only
      split
      · exact ⟨_, _, rfl⟩
      · exact ⟨_, _, rfl⟩
      · next table htable =>
        rw [htable] at htakes
        cases htakes

/-! ## Elements -/

/-- What a step leaves: the counters of the parser in step with the account, unless it fails. -/
abbrev Leaves (limit : Nat) (buffer : Option (List Memento)) (s : Parser) (x : Bytes)
    (c : BlockCounts) (r : Step Parser UInt8 ParseError) : Prop :=
  (r.map fun s' => (s', note s x r c)).Ends
    (fun p => Counted limit buffer p.1 p.2) fun p => p.2.Settled limit

/-- A step that leaves the counters of `EmitHeader`, with `allowed` updates. -/
abbrev AfterEmit (s : Parser) (md : Memento) (allowed : Nat) (s' : Parser) : Prop :=
  (s.emitHeader md).2 = none ∧ s'.frameLength = (s.emitHeader md).1.frameLength ∧
    s'.metadataSizeLimit = s.metadataSizeLimit ∧ s'.dynamicTableUpdatesAllowed = allowed

/-- The result of a function that emits the header. -/
abbrev Emits (s : Parser) (md : Memento) (allowed : Nat) (r : Parser × Option ParseError) : Prop :=
  r.1.metadataBuffer = (s.emitHeader md).1.metadataBuffer ∧
    (r.2 = none → AfterEmit s md allowed r.1)

/-- The updates that are allowed after the element that `x` begins with. -/
def allowed (s : Parser) (x : Bytes) : Nat :=
  if s.beginsIndexed x then 0 else s.dynamicTableUpdatesAllowed

variable {x rest : Bytes}

/-- Nothing has been read. An indexed header that is not complete, or not in the table, ends the
updates all the same. -/
theorem leaves_none (h : Counted limit buffer s c) (hp : s.priority = .none)
    (hread : s.readElement x = none)
    (hr : r.Ends (· = { s with dynamicTableUpdatesAllowed := allowed s x }) fun _ => True) :
    Leaves limit buffer s x c r := by
  have hnote : note s x r c = { c with indexed := c.indexed || s.beginsIndexed x } := by
    simp [note, hp, hread]
  unfold Leaves
  rw [hnote]
  cases r with
  | done s' rest | more s' | dropped s' =>
    cases hr
    refine ⟨h.frameLength, ?_, h.metadataBuffer, h.metadataSizeLimit, h.settled⟩
    cases hb : s.beginsIndexed x <;> simp [allowed, hb, h.updatesAllowed]
  | failed s' e => exact h.settled

/-- A header has been read, and the step leaves what `EmitHeader` does. -/
theorem leaves_header (h : Counted limit buffer s c) (hp : s.priority = .none)
    (hread : s.readElement x = some (.header md))
    (hbuffer : r.state.metadataBuffer = (s.emitHeader md).1.metadataBuffer)
    (hr : r.Ends (AfterEmit s md (allowed s x)) fun _ => True) :
    Leaves limit buffer s x c r := by
  obtain ⟨hcounted, hsettled⟩ := h.emitHeader md (newHeaders s r)
    (by rw [newHeaders, hbuffer])
  have hnote : note s x r c =
      { (c.noteUnnoticed s (.header md)).noteStored (newHeaders s r) with
        indexed := c.indexed || s.beginsIndexed x } := by
    simp [note, hp, hread]
  -- the counters after a step that goes on
  have hgoes : ∀ s' : Parser, s'.metadataBuffer = (s.emitHeader md).1.metadataBuffer →
      AfterEmit s md (allowed s x) s' →
      Counted limit buffer s' (note s x r c) := by
    rintro s' hbuffer' ⟨hnone, hlength, hlimit, hallowed⟩
    have hc := hcounted hnone
    rw [hnote]
    refine ⟨hlength.trans hc.frameLength, ?_, hbuffer'.trans hc.metadataBuffer,
      hlimit.trans h.metadataSizeLimit, hsettled⟩
    rw [hallowed, allowed, h.updatesAllowed]
    cases hb : s.beginsIndexed x <;>
      simp [noteStored, noteUnnoticed_keeps]
  cases r with
  | done s' rest | more s' | dropped s' => exact hgoes s' hbuffer hr
  | failed s' e =>
    show (note s x _ c).Settled limit
    rw [hnote]
    exact hsettled

theorem leaves_ofRead {α : Type} {s₀ : Parser} {act : α → Parser × Option ParseError} {a : α}
    (h : Counted limit buffer s c) (hp : s.priority = .none)
    (hread : s.readElement x = some (.header md))
    (hact : Emits s md (allowed s x) (act a)) :
    Leaves limit buffer s x c (Step.ofRead s₀ act (.ok (a, rest))) := by
  cases hr : act a with
  | mk s' r =>
    rw [hr] at hact
    cases r with
    | none =>
      have hdone : Step.ofRead s₀ act (.ok (a, rest)) = .done s' rest := by simp [Step.ofRead, hr]
      rw [hdone]
      exact h.leaves_header hp hread hact.1 (hact.2 rfl)
    | some e =>
      have hfailed : Step.ofRead s₀ act (.ok (a, rest)) = .failed s' e := by simp [Step.ofRead, hr]
      rw [hfailed]
      exact h.leaves_header hp hread hact.1 trivial

theorem emitHeader_keeps (s : Parser) (md : Memento) :
    (s.emitHeader md).1.dynamicTableUpdatesAllowed = s.dynamicTableUpdatesAllowed ∧
      (s.emitHeader md).1.metadataSizeLimit = s.metadataSizeLimit := by
  unfold Parser.emitHeader
  split
  · exact ⟨rfl, rfl⟩
  · dsimp only
    split <;> exact ⟨rfl, rfl⟩

theorem emitHeader_allowed (s : Parser) (md : Memento) (n : Nat) :
    { s with dynamicTableUpdatesAllowed := n }.emitHeader md =
      ({ (s.emitHeader md).1 with dynamicTableUpdatesAllowed := n }, (s.emitHeader md).2) := by
  unfold Parser.emitHeader
  dsimp only
  split
  · rfl
  · split <;> rfl

theorem emitAndAdd_keeps (s : Parser) (md : Memento) :
    Emits s md s.dynamicTableUpdatesAllowed (s.emitAndAdd md) := by
  obtain ⟨hallowed, hlimit⟩ := emitHeader_keeps s md
  unfold Parser.emitAndAdd
  dsimp only
  split
  · exact ⟨rfl, nofun⟩
  · exact ⟨rfl, nofun⟩
  · exact ⟨rfl, fun hnone => ⟨hnone, rfl, hlimit, hallowed⟩⟩

/-- An update of the table size has been read. -/
theorem leaves_tableSize (h : Counted limit buffer s c) (hp : s.priority = .none)
    (hread : s.readElement x = some (.tableSize size)) (hindexed : s.beginsIndexed x = false) :
    Leaves limit buffer s x c (Step.ofRead s s.changeMaxTableSize (.ok (size, rest))) := by
  obtain ⟨hpass, hfail⟩ := h.changeMaxTableSize size
  by_cases hp' : c.PassesFrame s (.tableSize size)
  · obtain ⟨s', hs', hcounted⟩ := hpass hp'
    simp only [Leaves, Step.ofRead, hs', Step.map, Step.Ends, note, hp, hread, hindexed,
      isDone]
    simpa [noteUnnoticed_keeps, noteUpdate] using hcounted
  · obtain ⟨s', e, hs'⟩ := hfail hp'
    simp only [Leaves, Step.ofRead, hs', Step.map, Step.Ends, note, hp, hread, hindexed,
      isDone, noteUnnoticed_of_not_passes hp']
    simpa using h.settled

theorem ofRead_error_ends {α : Type} (s : Parser) (act : α → Parser × Option ParseError)
    (stop : Stop ParseError) :
    (Step.ofRead (β := UInt8) s act (.error stop)).Ends (· = s) fun _ => True := by
  cases stop <;> first | exact rfl | trivial

/-- A literal has been read, or not. -/
theorem leaves_literal {act : Memento → Parser × Option ParseError} {found : Parser.Result Memento}
    (h : Counted limit buffer s c) (hp : s.priority = .none)
    (hread : s.readElement x = found.toOption.map fun r => .header r.1)
    (hindexed : s.beginsIndexed x = false)
    (hact : ∀ md, Emits s md s.dynamicTableUpdatesAllowed (act md)) :
    Leaves limit buffer s x c (Step.ofRead s act found) := by
  cases found with
  | error stop =>
    refine h.leaves_none hp hread ?_
    rw [allowed, hindexed]
    exact ofRead_error_ends s act stop
  | ok r =>
    refine h.leaves_ofRead hp hread ?_
    rw [allowed, hindexed]
    exact hact r.1

/-- An element, by its first byte. -/
theorem leaves_finish (h : Counted limit buffer s c) (hp : s.priority = .none) (cur : UInt8)
    (input : Bytes) :
    Leaves limit buffer s (cur :: input) c (s.finish input (Element.of s.table cur)) := by
  cases he : Element.of s.table cur with
  | omitFromTable md =>
    have hindexed : s.beginsIndexed (cur :: input) = false := by simp [Parser.beginsIndexed, he]
    refine h.leaves_literal hp (by simp [Parser.readElement, he]) hindexed fun md => ⟨rfl, ?_⟩
    obtain ⟨hallowed, hlimit⟩ := emitHeader_keeps s md
    exact fun hnone => ⟨hnone, rfl, hlimit, hallowed⟩
  | addToTable md =>
    have hindexed : s.beginsIndexed (cur :: input) = false := by simp [Parser.beginsIndexed, he]
    exact h.leaves_literal hp (by simp [Parser.readElement, he]) hindexed (emitAndAdd_keeps s)
  | indexed index =>
    have hindexed : s.beginsIndexed (cur :: input) = true := by simp [Parser.beginsIndexed, he]
    rw [Parser.finish, Parser.finishIndexed]
    cases hindex : index input with
    | error stop =>
      have hread : s.readElement (cur :: input) = none := by
        simp [Parser.readElement, he, hindex, Except.toOption]
      refine h.leaves_none hp hread ?_
      rw [allowed, hindexed]
      exact ofRead_error_ends ..
    | ok r =>
      cases hlookup : s.table.lookup r.1 with
      | none =>
        have hread : s.readElement (cur :: input) = none := by
          simp [Parser.readElement, he, hindex, Except.toOption, hlookup]
        refine h.leaves_none hp hread ?_
        simp only [Step.ofRead, Parser.emitIndexed, hlookup]
        trivial
      | some md =>
        have hread : s.readElement (cur :: input) = some (.header md) := by
          simp [Parser.readElement, he, hindex, Except.toOption, hlookup]
        obtain ⟨-, hlimit⟩ := emitHeader_keeps s md
        refine h.leaves_ofRead hp hread ?_
        have hemit : { s with dynamicTableUpdatesAllowed := 0 }.emitIndexed r.1 =
            ({ (s.emitHeader md).1 with dynamicTableUpdatesAllowed := 0 },
              (s.emitHeader md).2) := by
          rw [← emitHeader_allowed]
          simp [Parser.emitIndexed, hlookup]
        rw [hemit, allowed, hindexed]
        exact ⟨rfl, fun hnone => ⟨hnone, rfl, hlimit, rfl⟩⟩
  | maxTableSize size =>
    have hindexed : s.beginsIndexed (cur :: input) = false := by simp [Parser.beginsIndexed, he]
    rw [Parser.finish, Parser.finishMaxTableSize]
    cases hsize : size input with
    | error stop =>
      have hread : s.readElement (cur :: input) = none := by
        simp [Parser.readElement, he, hsize, Except.toOption]
      refine h.leaves_none hp hread ?_
      rw [allowed, hindexed]
      exact ofRead_error_ends ..
    | ok r =>
      have hread : s.readElement (cur :: input) = some (.tableSize r.1) := by
        simp [Parser.readElement, he, hsize, Except.toOption]
      exact h.leaves_tableSize hp hread hindexed
  | illegal =>
    exact h.leaves_none hp (by simp [Parser.readElement, he]) trivial

/-- Every step of the parser keeps its counters in step with the account, or fails. -/
theorem element (h : Counted limit buffer s c) (x : Bytes) :
    Leaves limit buffer s x c (Parser.machine.element s x) := by
  cases hp : s.priority with
  | none =>
    rw [Parser.machine_element_none hp]
    cases x with
    | nil => exact h.leaves_none hp rfl rfl
    | cons cur input => exact h.leaves_finish hp cur input
  | included =>
    rw [Parser.machine_element_included hp]
    have hnote : ∀ r, note s x r c = c := fun r => by simp [note, hp]
    unfold Leaves
    rw [hnote]
    cases Reader.take 5 x with
    | error stop =>
      cases stop with
      | eof | rejected => exact h
      | error e => exact h.settled
    | ok r => exact ⟨h.frameLength, h.updatesAllowed, h.metadataBuffer,
        h.metadataSizeLimit, h.settled⟩

end Counted

/-! ## Blocks -/

namespace BlockState

/-- The account of a block that is being parsed. -/
structure Inv (limit : Nat) (buffer : Option (List Memento)) (b : BlockState) : Prop where
  counted : b.error = none → Counted limit buffer b.parser.toParser b.counts
  settled : b.counts.Settled limit

variable {limit : Nat} {buffer : Option (List Memento)} {b : BlockState}

theorem inv_start (p : HPackParser) (boundary : Boundary) (priority : Priority) :
    Inv limit buffer (start p buffer limit boundary priority) := by
  have hsettled : ({} : BlockCounts).Settled limit := by
    simp [BlockCounts.Settled, BlockCounts.Within]
  exact ⟨fun _ => ⟨rfl, rfl, by simp [start, HPackParser.beginFrame], rfl, hsettled⟩, hsettled⟩

theorem Inv.parse (h : Inv limit buffer b) (hok : b.error = none) (slice : Bytes) (isLast : Bool) :
    Inv limit buffer (b.parse slice isLast) := by
  obtain ⟨hkeeps, hfails⟩ := Machine.feed_ends (M := Parser.machine.observed BlockCounts.note)
    (fun p x (hp : Counted limit buffer p.1 p.2) => hp.element x) (fun p hp => hp.settled)
    (p := ((b.parser.toParser, b.counts), b.parser.unparsedBytes)) (h.counted hok) slice isLast
  unfold BlockState.parse
  split
  · next heq =>
    have hc := hkeeps _ heq
    exact ⟨fun _ => hc, hc.settled⟩
  · next heq => exact ⟨nofun, hfails _ heq⟩

theorem Inv.continuation (h : Inv limit buffer b) (boundary : Boundary) (priority : Priority) :
    Inv limit buffer (b.continuation boundary priority) := by
  refine ⟨fun hok => ?_, h.settled⟩
  have hc := h.counted hok
  exact ⟨rfl, rfl, hc.metadataBuffer, hc.metadataSizeLimit, h.settled⟩

theorem Inv.step (h : Inv limit buffer b) (op : BlockOp) : Inv limit buffer (b.step op) := by
  unfold BlockState.step
  split
  · exact h
  · next hok =>
    have hnone : b.error = none := by simpa using hok
    cases op with
    | slice bytes isLast => exact h.parse hnone bytes isLast
    | continuation boundary priority => exact h.continuation boundary priority

/-- The slices and frames of a block, one after the other. -/
def run (b : BlockState) (ops : List BlockOp) : BlockState := ops.foldl BlockState.step b

theorem Inv.run (h : Inv limit buffer b) (ops : List BlockOp) : Inv limit buffer (b.run ops) := by
  induction ops generalizing b with
  | nil => exact h
  | cons op ops ih => exact ih (h.step op)

theorem run_metadataBuffer (p : HPackParser) (buffer : Option (List Memento)) (limit : Nat)
    (boundary : Boundary) (priority : Priority) (ops : List BlockOp)
    (hok : ((start p buffer limit boundary priority).run ops).error = none) :
    ((start p buffer limit boundary priority).run ops).parser.metadataBuffer =
      buffer.map (· ++ ((start p buffer limit boundary priority).run ops).counts.block.stored) :=
  (((inv_start p boundary priority : Inv limit buffer _).run ops).counted hok).metadataBuffer

/-- For every header block, in any number of frames and slices, up to the end or an error: the sizes
of the stored headers are within the limit, at most two updates of the table size are accepted and
none after a header, if and only if no element has passed the check of its frame for which the block
had no room. -/
theorem run_within_iff (p : HPackParser) (buffer : Option (List Memento)) (limit : Nat)
    (boundary : Boundary) (priority : Priority) (ops : List BlockOp) :
    ((start p buffer limit boundary priority).run ops).counts.Within limit ↔
      ((start p buffer limit boundary priority).run ops).counts.unnoticed = false :=
  ((inv_start p boundary priority : Inv limit buffer _).run ops).settled

/-- The literal header `a: b`, of 34 bytes with the overhead. -/
def literalAB : Bytes := [0x00, 0x01, 0x61, 0x01, 0x62]

/-- A limit of 60 bytes: a HEADERS frame with a literal and then an update of the table size, and a
CONTINUATION frame with the literal again. Both frames are accepted. -/
theorem run_two_frames_exceed :
    ∃ b : BlockState,
      b = (start {} (some []) 60 .none .none).run [.slice (literalAB ++ [0x20]) true,
        .continuation .endOfHeaders .none, .slice literalAB true] ∧
      b.error = none ∧ transportSizes b.counts.block.stored = 68 ∧ b.counts.late = true ∧
      ¬ b.counts.Within 60 := by
  refine ⟨_, rfl, ?_⟩
  decide

end BlockState

end GrpcCore
