import GrpcCore.Hpack.Strings

/-!
# The HPACK parser

`HPackParser` and its `Parser` (`hpack_parser.h`, `hpack_parser.cc`). A metadata batch is modelled
by the headers that were set in it, in order. Statistics and logging are left out.

`Parser::Parse` reads one element of a header block and acts on it; its functions `Finish…` take
what was read, or why it was not. `ParseInputInner` reads elements until the input ends. When it
ends inside an element, the bytes from the beginning of that element, the frontier, are kept for
the next slice; `Parser.machine` states this in the terms of `GrpcCore.Lib.Incremental`, and
`Parser.resumes` says that reading the element again goes unnoticed.
-/

namespace GrpcCore

open Incremental HpackConstants

/-- `HPackParser::Boundary`: what the end of a frame means to the header block. -/
inductive Boundary where
  | none
  | endOfHeaders
  | endOfStream
  deriving DecidableEq

/-- `HPackParser::Priority`: whether five bytes of priority precede the header block. -/
inductive Priority where
  | none
  | included
  deriving DecidableEq

/-- The fields of `HPackParser` but its unparsed bytes. -/
structure Parser where
  metadataBuffer : Option (List Memento) := none
  boundary : Boundary := .none
  priority : Priority := .none
  dynamicTableUpdatesAllowed : Nat := 0
  frameLength : Nat := 0
  metadataSizeLimit : Nat := 0
  table : HPackTable := {}

namespace Parser

/-! ## Elements -/

def handleMetadataSizeLimitExceeded (s : Parser) (md : Memento) : Parser × Option ParseError :=
  ({ s with metadataBuffer := s.metadataBuffer.map fun _ => [] },
    some (.metadataSizeLimitExceeded s.frameLength s.metadataSizeLimit md))

/-- `EmitHeader`, with the error it sets when it returns false. -/
def emitHeader (s : Parser) (md : Memento) : Parser × Option ParseError :=
  match s.metadataBuffer with
  | none => (s, none)
  | some headers =>
    let s := { s with frameLength := u32 (s.frameLength + md.transportSize) }
    if s.metadataSizeLimit < s.frameLength then s.handleMetadataSizeLimitExceeded md
    else ({ s with metadataBuffer := some (headers ++ [md]) }, none)

/-- `FinishHeaderAndAddToTable`, once there is a header: of two errors the first is kept. -/
def emitAndAdd (s : Parser) (md : Memento) : Parser × Option ParseError :=
  let (s, r) := s.emitHeader md
  match s.table.add md with
  | none => (s, some .assertion)
  | some (.error err) => (s, some (r.getD (.table err)))
  | some (.ok table) => ({ s with table := table }, r)

/-- `FinishIndexed`, once there is an index. -/
def emitIndexed (s : Parser) (index : Nat) : Parser × Option ParseError :=
  match s.table.lookup index with
  | none => (s, some (.invalidIndex index s.table.numEntries))
  | some elem => s.emitHeader elem

/-- `FinishMaxTableSize`, once there is a size. -/
def changeMaxTableSize (s : Parser) (size : Nat) : Parser × Option ParseError :=
  if s.dynamicTableUpdatesAllowed = 0 then (s, some .tooManyTableSizeChanges)
  else
    let s := { s with dynamicTableUpdatesAllowed := s.dynamicTableUpdatesAllowed - 1 }
    match s.table.setCurrentTableSize size with
    | none => (s, some .assertion)
    | some (.error err) => (s, some (.table err))
    | some (.ok table) => ({ s with table := table }, none)

/-- What is read from the input for an element, or why it is not. -/
abbrev Result (α : Type) := Except (Stop ParseError) (α × Bytes)

def finishHeaderOmitFromTable (s : Parser) : Result Memento → Step Parser UInt8 ParseError :=
  Step.ofRead s s.emitHeader

def finishHeaderAndAddToTable (s : Parser) : Result Memento → Step Parser UInt8 ParseError :=
  Step.ofRead s s.emitAndAdd

/-- `FinishIndexed`: the updates of the table size end here, also when the index is missing. -/
def finishIndexed (s : Parser) : Result Nat → Step Parser UInt8 ParseError :=
  let s := { s with dynamicTableUpdatesAllowed := 0 }
  Step.ofRead s s.emitIndexed

def finishMaxTableSize (s : Parser) : Result Nat → Step Parser UInt8 ParseError :=
  Step.ofRead s s.changeMaxTableSize

end Parser

def parseLiteralKey : Read Memento := do
  let key ← parseString
  let value ← parseValueString (isBinaryKey key)
  pure (.parse key value (key.length + value.length + kEntryOverhead))

def parseIdxKey (t : HPackTable) (index : Nat) : Read Memento :=
  match t.lookup index with
  | none => Reader.stop (.error (.invalidIndex index t.numEntries))
  | some elem => do
    let value ← parseValueString elem.isBinaryHeader
    pure (elem.withNewValue value)

def parseVarIdxKey (t : HPackTable) (offset : Nat) : Read Memento :=
  parseVarint offset >>= parseIdxKey t

/-- What `Parser::Parse` does after its first byte: what it reads, and what it finishes with. -/
inductive Element where
  | omitFromTable (md : Read Memento)
  | addToTable (md : Read Memento)
  | indexed (index : Read Nat)
  | maxTableSize (size : Read Nat)
  | illegal

/-- The cases of `Parser::Parse` on its first byte. -/
def Element.of (t : HPackTable) (cur : UInt8) : Element :=
  match (cur >>> 4).toNat with
  -- literal header not indexed, or never indexed
  | 0 | 1 => .omitFromTable <|
    match (cur &&& 0xf).toNat with
    | 0 => parseLiteralKey
    | 0xf => parseVarIdxKey t 0xf
    | index => parseIdxKey t index
  -- update of the maximum table size
  | 2 => .maxTableSize (pure (cur &&& 0x1f).toNat)
  | 3 => .maxTableSize (if cur = 0x3f then parseVarint 0x1f else pure (cur &&& 0x1f).toNat)
  -- literal header with incremental indexing
  | 4 => .addToTable (if cur = 0x40 then parseLiteralKey else parseIdxKey t (cur &&& 0x3f).toNat)
  | 5 | 6 => .addToTable (parseIdxKey t (cur &&& 0x3f).toNat)
  | 7 =>
    .addToTable (if cur = 0x7f then parseVarIdxKey t 0x3f else parseIdxKey t (cur &&& 0x3f).toNat)
  -- indexed header
  | 8 => if cur = 0x80 then .illegal else .indexed (pure (cur &&& 0x7f).toNat)
  | 15 => .indexed (if cur = 0xff then parseVarint 0x7f else pure (cur &&& 0x7f).toNat)
  | _ => .indexed (pure (cur &&& 0x7f).toNat)

namespace Parser

def finish (s : Parser) (input : Bytes) : Element → Step Parser UInt8 ParseError
  | .omitFromTable md => s.finishHeaderOmitFromTable (md input)
  | .addToTable md => s.finishHeaderAndAddToTable (md input)
  | .indexed index => s.finishIndexed (index input)
  | .maxTableSize size => s.finishMaxTableSize (size input)
  | .illegal => .failed s .illegalOpCode

/-- `Parser::Parse`, which is called on input that has not ended. -/
def parse (s : Parser) : Bytes → Step Parser UInt8 ParseError
  | [] => .more s
  | cur :: input => s.finish input (.of s.table cur)

def isBoundary (s : Parser) : Bool := s.boundary != .none

def isEof (s : Parser) : Bool := s.boundary == .endOfStream

/-- `while (!input->end_of_stream())`, for at most as many rounds as `fuel`; the input of a round is
the one from the frontier. -/
def parseLoop : Nat → Parser → Bytes → Outcome Parser UInt8 ParseError
  | 0, s, input => .paused s input
  | fuel + 1, s, input =>
    if input = [] then .finished s
    else
      match s.parse input with
      | .done s' rest => parseLoop fuel s' rest
      | .more s' => .paused s' input
      | .dropped s' => .dropped s'
      | .failed s' e => .failed s' e

def parseInputInner (s : Parser) (input : Bytes) : Outcome Parser UInt8 ParseError :=
  match s.priority with
  | .none => s.parseLoop (input.length + 1) input
  | .included =>
    if input.length < 5 then .paused s input
    else { s with priority := .none }.parseLoop ((input.drop 5).length + 1) (input.drop 5)

end Parser

/-! ## The parser of frames -/

structure HPackParser extends Parser where
  unparsedBytes : Bytes := []

namespace HPackParser

def beginFrame (p : HPackParser) (metadataBuffer : Option (List Memento))
    (metadataSizeLimit : Nat) (boundary : Boundary) (priority : Priority) : HPackParser :=
  { p with
    metadataBuffer := metadataBuffer
    boundary := boundary
    priority := priority
    dynamicTableUpdatesAllowed := 2
    frameLength := 0
    metadataSizeLimit := metadataSizeLimit }

/-- `FinishFrame`, and `StopBufferingFrame`. -/
def finishFrame (p : HPackParser) : HPackParser := { p with metadataBuffer := none }

/-- `ParseInput`, with the error it returns. An input that is dropped has no error. -/
def parseInput (s : Parser) (input : Bytes) (isLast : Bool) : HPackParser × Option ParseError :=
  match s.parseInputInner input with
  | .finished s => (⟨s, []⟩, none)
  | .paused s rest =>
    if isLast && s.isBoundary then (⟨s, []⟩, some .incompleteHeader) else (⟨s, rest⟩, none)
  | .dropped s => (⟨s, []⟩, none)
  | .failed s e => (⟨s, []⟩, some e)

/-- `Parse`: the unparsed bytes come before those of the slice. -/
def parse (p : HPackParser) (slice : Bytes) (isLast : Bool) : HPackParser × Option ParseError :=
  parseInput p.toParser (p.unparsedBytes ++ slice) isLast

/-- `Parse` on one slice after the other, up to the first error, with `is_last` on the last one. -/
def parseAll (p : HPackParser) : List Bytes → HPackParser × Option ParseError
  | [] => (p, none)
  | [slice] => p.parse slice true
  | slice :: slices =>
    match p.parse slice false with
    | (p', none) => p'.parseAll slices
    | (p', some e) => (p', some e)

end HPackParser

/-! ## What an element changes -/

theorem parseLiteralKey_resumable : Resumable parseLiteralKey :=
  .bind parseString_resumable fun _ => .bind (parseValueString_resumable _) fun _ => .pure _

theorem parseIdxKey_resumable (t : HPackTable) (index : Nat) : Resumable (parseIdxKey t index) := by
  unfold parseIdxKey
  split
  · exact .stop' _
  · exact .bind (parseValueString_resumable _) fun _ => .pure _

theorem parseVarIdxKey_resumable (t : HPackTable) (offset : Nat) :
    Resumable (parseVarIdxKey t offset) :=
  .bind (parseVarint_resumable _) (parseIdxKey_resumable t)

namespace Parser

/-- What the elements of a header block leave alone. -/
structure SameFrame (s s' : Parser) : Prop where
  boundary : s'.boundary = s.boundary
  priority : s'.priority = s.priority
  metadataSizeLimit : s'.metadataSizeLimit = s.metadataSizeLimit
  metadataBuffer : s'.metadataBuffer.isSome = s.metadataBuffer.isSome

theorem SameFrame.refl (s : Parser) : s.SameFrame s := ⟨rfl, rfl, rfl, rfl⟩

variable {s s' : Parser}

theorem emitHeader_sameFrame (s : Parser) (md : Memento) : s.SameFrame (s.emitHeader md).1 := by
  unfold emitHeader
  split
  · exact .refl s
  · next heq =>
    simp only
    split <;> exact ⟨rfl, rfl, rfl, by simp [handleMetadataSizeLimitExceeded, heq]⟩

theorem emitAndAdd_sameFrame (s : Parser) (md : Memento) : s.SameFrame (s.emitAndAdd md).1 := by
  have hemit := emitHeader_sameFrame s md
  unfold emitAndAdd
  split
  next s' r heq =>
    rw [heq] at hemit
    split
    · exact hemit
    · exact hemit
    · exact ⟨hemit.boundary, hemit.priority, hemit.metadataSizeLimit, hemit.metadataBuffer⟩

theorem emitIndexed_sameFrame (s : Parser) (index : Nat) :
    s.SameFrame (s.emitIndexed index).1 := by
  unfold emitIndexed
  split
  · exact .refl s
  · exact emitHeader_sameFrame s _

theorem changeMaxTableSize_sameFrame (s : Parser) (size : Nat) :
    s.SameFrame (s.changeMaxTableSize size).1 := by
  unfold changeMaxTableSize
  split
  · exact .refl s
  · simp only
    split <;> exact ⟨rfl, rfl, rfl, rfl⟩

theorem finish_sameFrame (s : Parser) (input : Bytes) (e : Element) :
    s.SameFrame (s.finish input e).state := by
  cases e with
  | omitFromTable md => exact Step.state_ofRead (.refl s) (emitHeader_sameFrame s)
  | addToTable md => exact Step.state_ofRead (.refl s) (emitAndAdd_sameFrame s)
  | indexed index =>
    refine Step.state_ofRead ⟨rfl, rfl, rfl, rfl⟩ fun i => ?_
    have h := emitIndexed_sameFrame { s with dynamicTableUpdatesAllowed := 0 } i
    exact ⟨h.boundary, h.priority, h.metadataSizeLimit, h.metadataBuffer⟩
  | maxTableSize size => exact Step.state_ofRead (.refl s) (changeMaxTableSize_sameFrame s)
  | illegal => exact .refl s

theorem parse_sameFrame (s : Parser) (input : Bytes) : s.SameFrame (s.parse input).state := by
  cases input with
  | nil => exact .refl s
  | cons cur input => exact finish_sameFrame s input _

end Parser

/-! ## Reading an element again -/

/-- A property of the reader of an element, for headers and for numbers. -/
def Element.Forall (P : Read Memento → Prop) (Q : Read Nat → Prop) : Element → Prop
  | .omitFromTable md | .addToTable md => P md
  | .indexed n | .maxTableSize n => Q n
  | .illegal => True

theorem Element.of_forall {P : Read Memento → Prop} {Q : Read Nat → Prop} (t : HPackTable)
    (hlit : P parseLiteralKey) (hvar : ∀ offset, P (parseVarIdxKey t offset))
    (hidx : ∀ index, P (parseIdxKey t index)) (hvarint : ∀ n, Q (parseVarint n))
    (hpure : ∀ n, Q (pure n)) (cur : UInt8) : (Element.of t cur).Forall P Q := by
  unfold Element.of
  split
  case h_1 | h_2 =>
    simp only [Forall]
    split
    · exact hlit
    · exact hvar _
    · exact hidx _
  case h_9 =>
    split
    · trivial
    · exact hpure _
  all_goals
    simp only [Forall]
    first
    | exact hidx _
    | exact hpure _
    | (split <;> first | exact hlit | exact hvar _ | exact hidx _ | exact hvarint _ | exact hpure _)

/-- The reader of an element is resumable. -/
abbrev Element.Resumes : Element → Prop := Element.Forall Resumable Resumable

theorem Element.of_resumes (t : HPackTable) (cur : UInt8) : (Element.of t cur).Resumes :=
  Element.of_forall t parseLiteralKey_resumable (parseVarIdxKey_resumable t)
    (parseIdxKey_resumable t)
    parseVarint_resumable Resumable.pure cur

namespace Parser

variable {e : Element}

theorem finish_extends (s : Parser) (he : e.Resumes) :
    Step.Extends fun input => s.finish input e := by
  cases e with
  | omitFromTable md => exact .ofRead he s _
  | addToTable md => exact .ofRead he s _
  | indexed index => exact .ofRead he _ _
  | maxTableSize size => exact .ofRead he s _
  | illegal => exact .fail s _

/-- An element that ends the input changes nothing that reading it again would notice. -/
theorem finish_more {input : Bytes} {s s' : Parser} (h : s.finish input e = .more s') :
    s'.table = s.table ∧ s'.priority = s.priority ∧
      ∀ input, s'.finish input e = s.finish input e := by
  cases e with
  | omitFromTable md =>
    obtain ⟨-, rfl⟩ := Step.ofRead_more h
    exact ⟨rfl, rfl, fun _ => rfl⟩
  | addToTable md =>
    obtain ⟨-, rfl⟩ := Step.ofRead_more h
    exact ⟨rfl, rfl, fun _ => rfl⟩
  | indexed index =>
    obtain ⟨-, rfl⟩ := Step.ofRead_more h
    exact ⟨rfl, rfl, fun _ => rfl⟩
  | maxTableSize size =>
    obtain ⟨-, rfl⟩ := Step.ofRead_more h
    exact ⟨rfl, rfl, fun _ => rfl⟩
  | illegal => cases h

/-- The parser as a machine: the bytes of the priority are its first element. -/
def machine : Machine Parser UInt8 ParseError where
  element s input :=
    match s.priority with
    | .none => s.parse input
    | .included => Step.ofRead s (fun _ => ({ s with priority := .none }, none))
        (Reader.take 5 input)
  pending s := s.priority = .included
  incomplete s := if s.isBoundary then some .incompleteHeader else none

theorem machine_element_none (h : s.priority = .none) : machine.element s = s.parse := by
  funext input
  simp only [machine, h]

theorem machine_element_included (h : s.priority = .included) (input : Bytes) :
    machine.element s input =
      Step.ofRead s (fun _ => ({ s with priority := .none }, none)) (Reader.take 5 input) := by
  simp only [machine, h]

theorem machine_extends (s : Parser) : Step.Extends (machine.element s) := by
  cases hp : s.priority with
  | none =>
    rw [machine_element_none hp]
    exact .ofHead rfl fun cur => finish_extends s (Element.of_resumes s.table cur)
  | included =>
    rw [funext (machine_element_included hp)]
    exact .ofRead (.take 5) s _

theorem machine_keeps (s : Parser) (input : Bytes) :
    (machine.element s input).state.boundary = s.boundary ∧
      (machine.element s input).state.metadataBuffer.isSome = s.metadataBuffer.isSome := by
  cases hp : s.priority with
  | none =>
    rw [machine_element_none hp]
    exact ⟨(parse_sameFrame s input).boundary, (parse_sameFrame s input).metadataBuffer⟩
  | included =>
    rw [machine_element_included hp]
    exact Step.state_ofRead
      (P := fun s' : Parser => s'.boundary = s.boundary ∧
        s'.metadataBuffer.isSome = s.metadataBuffer.isSome) ⟨rfl, rfl⟩ fun _ => ⟨rfl, rfl⟩

theorem element_dropped_none {s s' : Parser} {input : Bytes}
    (h : machine.element s input = .dropped s') : s.priority = .none := by
  cases hp : s.priority with
  | none => rfl
  | included =>
    rw [machine_element_included hp] at h
    obtain ⟨htake, -⟩ := Step.ofRead_dropped h
    unfold Reader.take at htake
    split at htake <;> cases htake

theorem resumes : machine.Resumes where
  progress {s input s' rest} h := by
    cases hp : s.priority with
    | none =>
      rw [machine_element_none hp] at h
      cases input with
      | nil => cases h
      | cons cur input =>
        exact Nat.lt_succ_of_le ((finish_extends s (Element.of_resumes s.table cur)).le h)
    | included =>
      rw [machine_element_included hp] at h
      obtain ⟨a, htake, -⟩ := Step.ofRead_done h
      unfold Reader.take at htake
      split at htake
      · cases htake
      · cases htake
        rw [List.length_drop]
        omega
  extends_ := machine_extends
  more {s input s'} more h := by
    cases hp : s.priority with
    | none =>
      rw [machine_element_none hp] at h
      cases input with
      | nil =>
        cases h
        rfl
      | cons cur input =>
        obtain ⟨ht, hp', hagain⟩ := finish_more h
        rw [machine_element_none hp, machine_element_none (hp'.trans hp)]
        simp only [parse, List.cons_append, ht]
        exact hagain _
    | included =>
      rw [machine_element_included hp] at h
      obtain ⟨-, rfl⟩ := Step.ofRead_more h
      rfl
  pending_more {s input s'} h := by
    cases hp : s.priority with
    | none =>
      rw [machine_element_none hp] at h
      have hsame := (parse_sameFrame s input).priority
      rw [h] at hsame
      simp only [machine, Step.state] at hsame ⊢
      rw [hsame]
    | included =>
      rw [machine_element_included hp] at h
      obtain ⟨-, rfl⟩ := Step.ofRead_more h
      rfl
  pending_dropped {s input s'} h := by
    have hp := element_dropped_none h
    rw [machine_element_none hp] at h
    have hsame := (parse_sameFrame s input).priority
    rw [h] at hsame
    simp only [Step.state] at hsame
    simp [machine, hsame, hp]

theorem parseInputInner_eq (s : Parser) (input : Bytes) :
    s.parseInputInner input = machine.run s input := by
  have hloop : ∀ fuel (s : Parser) (input : Bytes), s.priority = .none →
      s.parseLoop fuel input = machine.loop fuel s input := by
    intro fuel
    induction fuel with
    | zero => intros; rfl
    | succ fuel ih =>
      intro s input hp
      have hsame := (parse_sameFrame s input).priority
      rw [parseLoop, Machine.loop, machine_element_none hp]
      have hpending : machine.pending s = false := by simp [machine, hp]
      simp only [hpending, and_true]
      split
      · rfl
      · cases h : s.parse input with
        | done s' rest =>
          rw [h] at hsame
          exact ih s' rest (hsame.trans hp)
        | more | dropped | failed => rfl
  unfold parseInputInner
  cases hp : s.priority with
  | none => exact hloop _ s input hp
  | included =>
    have hne : ¬ (input = [] ∧ machine.pending s = false) := by simp [machine, hp]
    rw [Machine.run_eq resumes, if_neg hne, machine_element_included hp]
    simp only [Reader.take]
    by_cases hlen : input.length < 5
    · rw [if_pos hlen, if_pos hlen]
      rfl
    · rw [if_neg hlen, if_neg hlen]
      exact hloop _ { s with priority := .none } (input.drop 5) rfl

end Parser

namespace HPackParser

/-- The parser and its error, as the machine leaves them. -/
def ofFeed : Except (Parser × ParseError) (Parser × Bytes) → HPackParser × Option ParseError
  | .ok (s, rest) => (⟨s, rest⟩, none)
  | .error (s, e) => (⟨s, []⟩, some e)

theorem parse_eq (p : HPackParser) (slice : Bytes) (isLast : Bool) :
    p.parse slice isLast =
      ofFeed (Parser.machine.feed (p.toParser, p.unparsedBytes) slice isLast) := by
  unfold parse parseInput Machine.feed
  rw [Parser.parseInputInner_eq]
  cases Parser.machine.run p.toParser (p.unparsedBytes ++ slice) with
  | paused s rest =>
    cases isLast <;> cases hb : s.isBoundary <;> simp [Machine.close, Parser.machine, ofFeed, hb]
  | finished | dropped | failed => rfl

/-- What the parser is told at the beginning of a frame stays: what the end of the frame means, and
whether there is a batch. -/
theorem parse_keeps {p p' : HPackParser} {slice : Bytes} {isLast : Bool} {r : Option ParseError}
    (h : p.parse slice isLast = (p', r)) :
    p'.boundary = p.boundary ∧ p'.metadataBuffer.isSome = p.metadataBuffer.isSome := by
  have hrun := Machine.run_invariant Parser.resumes (x := p.unparsedBytes ++ slice)
    (P := fun s => s.boundary = p.boundary ∧ s.metadataBuffer.isSome = p.metadataBuffer.isSome)
    (fun s x hs => by
      obtain ⟨hb, hm⟩ := Parser.machine_keeps s x
      exact ⟨hb.trans hs.1, hm.trans hs.2⟩) (s := p.toParser) ⟨rfl, rfl⟩
  unfold parse parseInput at h
  rw [Parser.parseInputInner_eq] at h
  cases heq : Parser.machine.run p.toParser (p.unparsedBytes ++ slice) with
  | paused s rest =>
    rw [heq] at hrun h
    simp only at h
    split at h <;> cases h <;> exact hrun
  | finished | dropped | failed => rw [heq] at hrun h; cases h; exact hrun

theorem parseAll_eq (p : HPackParser) (slices : List Bytes) :
    p.parseAll slices = ofFeed (Parser.machine.feedAll (p.toParser, p.unparsedBytes) slices) := by
  induction slices generalizing p with
  | nil => rfl
  | cons slice slices ih =>
    cases slices with
    | nil => exact parse_eq p slice true
    | cons slice' slices =>
      simp only [parseAll, Machine.feedAll, parse_eq] at ih ⊢
      cases hfeed : Parser.machine.feed (p.toParser, p.unparsedBytes) slice false with
      | error r => rfl
      | ok r => exact ih ⟨r.1, r.2⟩

end HPackParser

end GrpcCore
