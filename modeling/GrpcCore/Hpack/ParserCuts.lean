import GrpcCore.Hpack.Parser

/-!
# Header blocks that arrive in slices

What becomes of a header block does not depend on the slices it arrives in, with one exception.
When `HuffDecoder::Run` returns false, `String::Parse` and `String::ParseBinary` return an empty
optional without an error, so `ParseInput` returns OK and the rest of the slice is dropped; the
bytes of the next slice are parsed as if nothing had happened. `Parser.Refuses` is this situation,
and `HPackParser.parseAll_observed_iff` says that it is the only one: a block is parsed in the same
way however it is cut, in every frame, exactly when no string that is refused has bytes after it.
-/

namespace GrpcCore

open Incremental

/-- The reading of the element stops at a string that the Huffman decoder refuses. -/
def Element.Rejects (input : Bytes) : Element → Prop
  | .omitFromTable md | .addToTable md => md input = .error .rejected
  | .indexed n | .maxTableSize n => n input = .error .rejected
  | .illegal => False

/-- Some element of the bytes, those before it being complete, has a Huffman string that is
refused. -/
inductive Parser.Refuses : Parser → Bytes → Prop
  | string {s : Parser} {cur : UInt8} {input : Bytes} (hp : s.priority = .none)
      (h : (Element.of s.table cur).Rejects input) : Refuses s (cur :: input)
  | later {s s' : Parser} {input rest : Bytes} (h : machine.element s input = .done s' rest)
      (hrest : Refuses s' rest) : Refuses s input

/-- The frame that a header block arrives in: the arguments of `BeginFrame`. -/
structure Frame where
  metadataBuffer : Option (List Memento)
  metadataSizeLimit : Nat
  boundary : Boundary
  priority : Priority

def Parser.inFrame (s : Parser) (f : Frame) : Parser :=
  { s with
    metadataBuffer := f.metadataBuffer
    metadataSizeLimit := f.metadataSizeLimit
    boundary := f.boundary
    priority := f.priority }

/-- What is seen of a parser and the error it returned: the headers in the batch, the dynamic table,
the two counters of the frame, and the error. -/
structure Observed where
  headers : Option (List Memento)
  table : HPackTable
  dynamicTableUpdatesAllowed : Nat
  frameLength : Nat
  error : Option ParseError
  deriving DecidableEq

/-- What is seen after a call of `Parse`. -/
def HPackParser.observed (r : HPackParser × Option ParseError) : Observed :=
  ⟨r.1.metadataBuffer, r.1.table, r.1.dynamicTableUpdatesAllowed, r.1.frameLength, r.2⟩

namespace Parser

variable {s s' : Parser} {input : Bytes}

variable {e : Element} {md : Memento} {rest : Bytes}

theorem finish_dropped :
    (∃ s', s.finish input e = .dropped s') ↔ e.Rejects input := by
  constructor
  · rintro ⟨s', h⟩
    cases e with
    | illegal => cases h
    | _ => exact (Step.ofRead_dropped h).1
  · intro h
    cases e with
    | illegal => cases h
    | _ => exact ⟨_, congrArg (Step.ofRead _ _) h⟩

/-- The machine drops the rest of its input exactly where a string is refused. -/
theorem refuses_iff : s.Refuses input ↔ ∃ s', machine.run s input = .dropped s' := by
  constructor
  · intro h
    induction h with
    | @string s cur input hp h =>
      obtain ⟨s', hs'⟩ := (finish_dropped (s := s)).2 h
      refine ⟨s', ?_⟩
      rw [Machine.run_eq resumes, if_neg (by simp), machine_element_none hp]
      simp only [parse, hs']
    | @later s s' input rest h hrest ih =>
      obtain ⟨s'', hs''⟩ := ih
      refine ⟨s'', ?_⟩
      have hne : ¬ (input = [] ∧ machine.pending s = false) := by
        rintro ⟨rfl, -⟩
        have := resumes.progress h
        simp at this
      rw [Machine.run_eq resumes, if_neg hne, h]
      exact hs''
  · rintro ⟨s', h⟩
    induction hn : input.length using Nat.strongRecOn generalizing input s with
    | ind n ih =>
      subst hn
      rw [Machine.run_eq resumes] at h
      split at h
      · cases h
      · split at h
        · next s₁ rest heq =>
          exact .later heq (ih rest.length (resumes.progress heq) h rfl)
        · cases h
        · next heq =>
          cases h
          cases hp : s.priority with
          | none =>
            rw [machine_element_none hp] at heq
            cases input with
            | nil => cases heq
            | cons cur input => exact .string hp (finish_dropped.1 ⟨_, heq⟩)
          | included =>
            rw [machine_element_included hp] at heq
            obtain ⟨htake, -⟩ := Step.ofRead_dropped heq
            unfold Reader.take at htake
            split at htake <;> cases htake
        · cases h

/-! ## A frame in which every header is delivered -/

/-- The parser in the last frame of a block, with a batch for the headers and no limit on their
size. -/
def deliver (s : Parser) (headers : List Memento) (n : Nat) : Parser :=
  { s with
    metadataBuffer := some headers
    frameLength := n
    metadataSizeLimit := 2 ^ 32 - 1
    boundary := .endOfHeaders }

theorem emitHeader_deliver (h : s.emitHeader md = (s', none)) (headers : List Memento) (n : Nat) :
    (s.deliver headers n).emitHeader md =
      (s'.deliver (headers ++ [md]) (u32 (n + md.transportSize)), none) := by
  have hs' : ∀ headers n, s'.deliver headers n = s.deliver headers n := by
    unfold emitHeader at h
    split at h
    · cases h
      exact fun _ _ => rfl
    · simp only at h
      split at h
      · cases h
      · cases h
        exact fun _ _ => rfl
  have hle : ¬ 2 ^ 32 - 1 < u32 (n + md.transportSize) := by
    have := Nat.mod_lt (n + md.transportSize) (show 0 < 2 ^ 32 by decide)
    rw [u32]
    omega
  rw [hs']
  exact if_neg hle

theorem emitAndAdd_deliver (h : s.emitAndAdd md = (s', none)) (headers : List Memento) (n : Nat) :
    (s.deliver headers n).emitAndAdd md =
      (s'.deliver (headers ++ [md]) (u32 (n + md.transportSize)), none) := by
  rcases hemit : s.emitHeader md with ⟨s₁, r⟩
  simp only [emitAndAdd, hemit] at h
  split at h
  · cases h
  · cases h
  · next table hadd =>
    cases h
    simp only [emitAndAdd, emitHeader_deliver hemit]
    have htable : (s₁.deliver (headers ++ [md]) (u32 (n + md.transportSize))).table.add md =
        some (.ok table) := hadd
    rw [htable]
    rfl

theorem emitIndexed_deliver {index : Nat} (h : s.emitIndexed index = (s', none))
    (headers : List Memento) (n : Nat) :
    ∃ headers' n', (s.deliver headers n).emitIndexed index = (s'.deliver headers' n', none) := by
  unfold emitIndexed at h
  split at h
  · cases h
  · next elem hlookup =>
    have hlookup' : (s.deliver headers n).table.lookup index = some elem := hlookup
    refine ⟨headers ++ [elem], u32 (n + elem.transportSize), ?_⟩
    rw [emitIndexed, hlookup']
    exact emitHeader_deliver h headers n

theorem changeMaxTableSize_deliver {size : Nat} (h : s.changeMaxTableSize size = (s', none))
    (headers : List Memento) (n : Nat) :
    (s.deliver headers n).changeMaxTableSize size = (s'.deliver headers n, none) := by
  unfold changeMaxTableSize at h ⊢
  split at h
  · cases h
  · next hallowed =>
    have hallowed' : ¬ (s.deliver headers n).dynamicTableUpdatesAllowed = 0 := hallowed
    rw [if_neg hallowed']
    simp only at h ⊢
    split at h
    · cases h
    · cases h
    · next table hset =>
      cases h
      have hset' : (s.deliver headers n).table.setCurrentTableSize size = some (.ok table) := hset
      rw [hset']
      rfl

/-- An element that is parsed in some frame is parsed where every header is delivered. -/
theorem finish_deliver (h : s.finish input e = .done s' rest) (headers : List Memento) (n : Nat) :
    ∃ headers' n', (s.deliver headers n).finish input e = .done (s'.deliver headers' n') rest := by
  cases e with
  | omitFromTable md =>
    obtain ⟨a, hx, hact⟩ := Step.ofRead_done h
    refine ⟨headers ++ [a], u32 (n + a.transportSize), ?_⟩
    rw [finish, hx]
    exact Step.ofRead_ok (emitHeader_deliver hact headers n)
  | addToTable md =>
    obtain ⟨a, hx, hact⟩ := Step.ofRead_done h
    refine ⟨headers ++ [a], u32 (n + a.transportSize), ?_⟩
    rw [finish, hx]
    exact Step.ofRead_ok (emitAndAdd_deliver hact headers n)
  | indexed index =>
    obtain ⟨a, hx, hact⟩ := Step.ofRead_done h
    obtain ⟨headers', n', hemit⟩ := emitIndexed_deliver hact headers n
    refine ⟨headers', n', ?_⟩
    rw [finish, hx]
    exact Step.ofRead_ok (s := { s.deliver headers n with dynamicTableUpdatesAllowed := 0 }) hemit
  | maxTableSize size =>
    obtain ⟨a, hx, hact⟩ := Step.ofRead_done h
    refine ⟨headers, n, ?_⟩
    rw [finish, hx]
    exact Step.ofRead_ok (changeMaxTableSize_deliver hact headers n)
  | illegal => cases h

theorem finish_dropped_deliver (h : s.finish input e = .dropped s')
    (headers : List Memento) (n : Nat) :
    (s.deliver headers n).finish input e = .dropped (s'.deliver headers n) := by
  cases e with
  | illegal => cases h
  | _ =>
    obtain ⟨hx, rfl⟩ := Step.ofRead_dropped h
    rw [finish, hx]
    rfl

theorem element_deliver (h : machine.element s input = .done s' rest)
    (headers : List Memento) (n : Nat) :
    ∃ headers' n',
      machine.element (s.deliver headers n) input = .done (s'.deliver headers' n') rest := by
  cases hp : s.priority with
  | none =>
    have hp' : (s.deliver headers n).priority = .none := hp
    rw [machine_element_none hp] at h
    rw [machine_element_none hp']
    cases input with
    | nil => cases h
    | cons cur input => exact finish_deliver h headers n
  | included =>
    have hp' : (s.deliver headers n).priority = .included := hp
    rw [machine_element_included hp] at h
    rw [machine_element_included hp']
    obtain ⟨a, htake, hact⟩ := Step.ofRead_done h
    cases hact
    rw [htake]
    exact ⟨headers, n, rfl⟩

theorem element_dropped_deliver (h : machine.element s input = .dropped s')
    (headers : List Memento) (n : Nat) :
    machine.element (s.deliver headers n) input = .dropped (s'.deliver headers n) := by
  have hp := element_dropped_none h
  have hp' : (s.deliver headers n).priority = .none := hp
  rw [machine_element_none hp] at h
  rw [machine_element_none hp']
  cases input with
  | nil => cases h
  | cons cur input => exact finish_dropped_deliver h headers n

theorem run_dropped_deliver (h : machine.run s input = .dropped s') (headers : List Memento)
    (n : Nat) :
    ∃ headers' n', machine.run (s.deliver headers n) input = .dropped (s'.deliver headers' n') := by
  have hpending : ∀ {s t : Parser}, (∃ headers n, t = s.deliver headers n) →
      machine.pending t = machine.pending s := by
    rintro s _ ⟨_, _, rfl⟩
    rfl
  obtain ⟨t, ht, headers', n', rfl⟩ := Machine.run_dropped_of_follows resumes
    (R := fun s t => ∃ headers n, t = s.deliver headers n) hpending
    (by
      rintro s _ x s' rest ⟨headers, n, rfl⟩ hx
      obtain ⟨headers', n', ht⟩ := element_deliver hx headers n
      exact ⟨_, ht, headers', n', rfl⟩)
    (by
      rintro s _ x s' ⟨headers, n, rfl⟩ hx
      exact ⟨_, element_dropped_deliver hx headers n, headers, n, rfl⟩)
    ⟨headers, n, rfl⟩ h
  exact ⟨headers', n', ht⟩

end Parser

/-! ## The byte after a string that is refused -/

/-- With no bytes after the first, a header is not read, and no string is refused. -/
abbrev Element.OneByte : Element → Prop :=
  Element.Forall (fun md => ∃ stop, md [] = .error stop ∧ stop ≠ .rejected)
    fun n => n [] ≠ .error .rejected

theorem Element.of_oneByte (t : HPackTable) (cur : UInt8) : (Element.of t cur).OneByte := by
  refine Element.of_forall t ⟨.eof, rfl, by simp⟩ (fun _ => ⟨.eof, rfl, by simp⟩) (fun index => ?_)
    (fun n => ?_) (fun n => by simp [Reader.pure_apply]) cur
  · cases h : t.lookup index with
    | none => exact ⟨.error (.invalidIndex index t.numEntries),
        by simp [parseIdxKey, h, Reader.stop]⟩
    | some elem =>
      refine ⟨.eof, ?_, by simp⟩
      simp only [parseIdxKey, h]
      cases elem.isBinaryHeader <;> rfl
  · have : parseVarint n [] = .error .eof := rfl
    simp [this]

namespace Parser

variable {s s' : Parser}

variable {cur : UInt8}

theorem parse_byte {headers : List Memento} (hs : s.metadataBuffer = some headers)
    {rest : Bytes} (h : s.parse [cur] = .done s' rest) :
    s'.metadataBuffer ≠ s.metadataBuffer ∨
      s'.dynamicTableUpdatesAllowed ≠ s.dynamicTableUpdatesAllowed := by
  have hbyte := Element.of_oneByte s.table cur
  simp only [parse] at h
  cases he : Element.of s.table cur with
  | omitFromTable md =>
    rw [he] at h hbyte
    obtain ⟨stop, hstop, -⟩ := hbyte
    obtain ⟨a, hx, -⟩ := Step.ofRead_done h
    rw [hstop] at hx
    cases hx
  | addToTable md =>
    rw [he] at h hbyte
    obtain ⟨stop, hstop, -⟩ := hbyte
    obtain ⟨a, hx, -⟩ := Step.ofRead_done h
    rw [hstop] at hx
    cases hx
  | indexed n =>
    rw [he] at h
    obtain ⟨index, -, hact⟩ := Step.ofRead_done h
    left
    unfold emitIndexed at hact
    split at hact
    · cases hact
    · unfold emitHeader at hact
      simp only [hs] at hact
      split at hact
      · cases hact
      · cases hact
        simp [hs]
  | maxTableSize n =>
    rw [he] at h
    obtain ⟨size, -, hact⟩ := Step.ofRead_done h
    right
    unfold changeMaxTableSize at hact
    split at hact
    · cases hact
    · simp only at hact
      split at hact
      · cases hact
      · cases hact
      · cases hact
        simp only
        omega
  | illegal =>
    rw [he] at h
    cases h

theorem parse_byte_dropped : s.parse [cur] ≠ .dropped s' := by
  intro h
  have hbyte := Element.of_oneByte s.table cur
  have hrej := finish_dropped.1 ⟨s', h⟩
  cases he : Element.of s.table cur with
  | illegal => rw [he] at hrej; exact hrej
  | indexed n | maxTableSize n => rw [he] at hbyte hrej; exact hbyte hrej
  | omitFromTable md | addToTable md =>
    rw [he] at hbyte hrej
    obtain ⟨stop, hstop, hne⟩ := hbyte
    simp only [Element.Rejects, hstop] at hrej
    cases hrej
    exact hne rfl

end Parser

namespace HPackParser

theorem parse_append {p : HPackParser} {x y : Bytes} {isLast : Bool}
    (h : ¬ p.toParser.Refuses (p.unparsedBytes ++ x)) :
    p.parse (x ++ y) isLast =
      match p.parse x false with
      | (p', none) => p'.parse y isLast
      | (p', some e) => (p', some e) := by
  simp only [parse_eq]
  rw [Machine.feed_append Parser.resumes fun s' hs' => h (Parser.refuses_iff.2 ⟨s', hs'⟩)]
  cases Parser.machine.feed (p.toParser, p.unparsedBytes) x false with
  | error r => rfl
  | ok r => rfl

variable {s : Parser}

/-- At the end of a block, one byte that follows is seen: it is incomplete, wrong, emits a header or
uses up an update of the table size. -/
theorem observed_byte {headers : List Memento} (hs : s.metadataBuffer = some headers)
    (hp : s.priority = .none) (hb : s.isBoundary = true) (cur : UInt8) :
    observed (HPackParser.parse ⟨s, []⟩ [cur] true) ≠ observed (⟨s, []⟩, none) := by
  simp only [parse, parseInput, List.nil_append, Parser.parseInputInner_eq]
  rw [Machine.run_eq Parser.resumes, if_neg (by simp), Parser.machine_element_none hp]
  have hsame := Parser.parse_sameFrame s [cur]
  cases h : s.parse [cur] with
  | done s' rest =>
    have hrest : rest = [] := by
      have := Parser.resumes.progress ((congrFun (Parser.machine_element_none hp) _).trans h)
      simpa using this
    rw [h] at hsame
    have hp' : s'.priority = .none := hsame.priority.trans hp
    have hpending : Parser.machine.pending s' = false := by simp [Parser.machine, hp']
    simp only [hrest, Machine.run_nil Parser.resumes hpending]
    intro heq
    rcases Parser.parse_byte hs h with hne | hne
    · exact hne (congrArg Observed.headers heq)
    · exact hne (congrArg Observed.dynamicTableUpdatesAllowed heq)
  | more s' =>
    rw [h] at hsame
    have hboundary : s'.boundary = s.boundary := hsame.boundary
    have hb' : s'.isBoundary = true := by simpa only [Parser.isBoundary, hboundary] using hb
    simp [hb', observed]
  | dropped s' => exact absurd h Parser.parse_byte_dropped
  | failed s' e => simp [observed]

theorem parseAll_eq_parse {bytes : Bytes}
    (h : ∀ before after, bytes = before ++ after → after ≠ [] → ¬ s.Refuses before)
    {slices : List Bytes} (hne : slices ≠ []) (hflat : slices.flatten = bytes) :
    parseAll ⟨s, []⟩ slices = parse ⟨s, []⟩ bytes true := by
  rw [parseAll_eq, parse_eq, Machine.feedAll_eq Parser.resumes _ hne, hflat]
  intro x y s' hxy hy hrun
  rw [hflat] at hxy
  exact h x y hxy hy (Parser.refuses_iff.2 ⟨s', hrun⟩)

/-- Where a string is refused before the end of a block, a cut before the last byte of the block is
seen in some frame. -/
theorem parseAll_ne_parse {f : Frame} {before after : Bytes}
    (hrefuses : (s.inFrame f).Refuses before) (hafter : after ≠ []) :
    ∃ f' slices, slices ≠ [] ∧ slices.flatten = before ++ after ∧
      observed (parseAll ⟨s.inFrame f', []⟩ slices) ≠
        observed (parse ⟨s.inFrame f', []⟩ (before ++ after) true) := by
  obtain ⟨s', hrun⟩ := Parser.refuses_iff.1 hrefuses
  obtain ⟨headers, n, hrun'⟩ := Parser.run_dropped_deliver hrun [] s.frameLength
  obtain ⟨middle, last, rfl⟩ : ∃ middle last, after = middle ++ [last] :=
    ⟨after.dropLast, after.getLast hafter, (List.dropLast_concat_getLast hafter).symm⟩
  refine ⟨⟨some [], 2 ^ 32 - 1, .endOfHeaders, f.priority⟩, [before ++ middle, [last]], by simp,
    by simp, ?_⟩
  have hdropped : ∀ more, Parser.machine.run ((s.inFrame f).deliver [] s.frameLength)
      (before ++ more) = .dropped (s'.deliver headers n) := by
    intro more
    rw [Machine.run_append Parser.resumes, hrun']
  have hparse : ∀ more isLast, parse ⟨(s.inFrame f).deliver [] s.frameLength, []⟩ (before ++ more)
      isLast = (⟨s'.deliver headers n, []⟩, none) := by
    intro more isLast
    simp only [parse, parseInput, List.nil_append, Parser.parseInputInner_eq, hdropped]
  have hpriority : (s'.deliver headers n).priority = .none := by
    have hpending := Machine.pending_of_dropped Parser.resumes hrun'
    cases hp : (s'.deliver headers n).priority with
    | none => rfl
    | included => simp [Parser.machine, hp] at hpending
  have hwhole := hparse (middle ++ [last]) true
  have hcut : parseAll ⟨(s.inFrame f).deliver [] s.frameLength, []⟩ [before ++ middle, [last]] =
      parse ⟨s'.deliver headers n, []⟩ [last] true := by
    simp only [parseAll, hparse]
  have hbatch : (s'.deliver headers n).metadataBuffer = some headers := rfl
  exact fun heq => observed_byte hbatch hpriority rfl last
    ((congrArg observed hcut).symm.trans (heq.trans (congrArg observed hwhole)))

/-- In every frame, a header block is parsed in the same way however it is cut into slices, exactly
when no frame lets a string that the Huffman decoder refuses be followed by more of the block. -/
theorem parseAll_observed_iff (s : Parser) (bytes : Bytes) :
    (∀ f slices, slices ≠ [] → slices.flatten = bytes →
      observed (parseAll ⟨s.inFrame f, []⟩ slices) =
        observed (parse ⟨s.inFrame f, []⟩ bytes true)) ↔
      ∀ f before after, bytes = before ++ after → after ≠ [] → ¬ (s.inFrame f).Refuses before := by
  constructor
  · intro h f before after hbytes hafter hrefuses
    obtain ⟨f', slices, hne, hflat, hobs⟩ := parseAll_ne_parse hrefuses hafter
    rw [hbytes] at h
    exact hobs (h f' slices hne hflat)
  · intro h f slices hne hflat
    rw [parseAll_eq_parse (h f) hne hflat]

/-- A Huffman string that is refused, with an indexed header after it: in one slice the header is
dropped, in two it is emitted. -/
theorem parseAll_refused_string :
    let p := HPackParser.beginFrame {} (some []) 16384 .endOfHeaders .none
    observed (p.parseAll [[0x00, 0x81, 0x00, 0x82]]) = ⟨some [], {}, 2, 0, none⟩ ∧
      observed (p.parseAll [[0x00, 0x81, 0x00], [0x82]]) =
        ⟨some [.parse (ascii ":method") (ascii "GET") 42], {}, 0, 42, none⟩ := by
  decide +kernel

end HPackParser

end GrpcCore
