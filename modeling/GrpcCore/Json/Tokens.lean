import GrpcCore.Json.Sound

/-!
# How tokens are read

The reader on the tokens of the grammar. `Reads` is a rule of composition: what one text leaves, the
next one begins with. A token that the standard has and the reader does not is refused; where that
`may` happen is a parameter.
-/

namespace GrpcCore.JsonReader

open List Option JsonText Json Utf8

/-! ## Reading a text -/

/-- The reader when its next byte has been counted. -/
def bump (r : JsonReader) : JsonReader := { r with index := r.index + 1 }

/-- Reading `t` ends in a reader with `Q`, whatever follows `t`; or it is refused, which happens
only where it `may`. -/
def Reads (may : Prop) (r : JsonReader) (t : Octets) (Q : JsonReader → Prop) : Prop :=
  (∃ r', (∀ s, r.run (t ++ s) = r'.run s) ∧ Q r') ∨
    (may ∧ ∀ s r', r.run (t ++ s) = .ok r' → ¬ r'.Clean)

section
variable {may : Prop} {r r' : JsonReader} {t u : Octets} {Q Q' : JsonReader → Prop}

theorem Reads.nil (h : Q r) : Reads may r [] Q := .inl ⟨r, fun _ => rfl, h⟩

/-- Two texts, one after the other. -/
theorem Reads.append (h : Reads may r t Q) (h' : ∀ r', Q r' → Reads may r' u Q') :
    Reads may r (t ++ u) Q' := by
  rcases h with ⟨r₁, hrun, hQ⟩ | ⟨hmay, hno⟩
  · rcases h' r₁ hQ with ⟨r₂, hrun', hQ'⟩ | ⟨hmay, hno⟩
    · exact .inl ⟨r₂, fun s => by rw [append_assoc, hrun, hrun'], hQ'⟩
    · exact .inr ⟨hmay, fun s r' h => hno s r' (by rw [← hrun, ← append_assoc]; exact h)⟩
  · exact .inr ⟨hmay, fun s r' h => hno (u ++ s) r' (by rw [← append_assoc]; exact h)⟩

/-- The condition at the end may be weakened. -/
theorem Reads.mono (h : Reads may r t Q) (h' : ∀ r', Q r' → Q' r') : Reads may r t Q' :=
  h.imp (fun ⟨r', hrun, hQ⟩ => ⟨r', hrun, h' r' hQ⟩) id

variable {b : UInt8} {s : Octets}

/-- A byte is read before the rest. -/
theorem run_cons (hb : b ≠ 0) : r.run (b :: s) =
    match r.bump.read b.toNat with
    | .ok r' => r'.run s
    | .error r' => .error r' := by
  rw [run]
  exact if_neg hb

/-- A byte for which there is a transition. -/
theorem Reads.cons (hb : b ≠ 0) (ht : Transition r.bump b.toNat r') (h : Reads may r' t Q) :
    Reads may r (b :: t) Q := by
  have hrun (s : Octets) : r.run (b :: s) = r'.run s := by rw [run_cons hb, ht.read]
  rcases h with ⟨r₁, h, hQ⟩ | ⟨hmay, hno⟩
  · exact .inl ⟨r₁, fun s => (hrun _).trans (h s), hQ⟩
  · exact .inr ⟨hmay, fun s r₁ h => hno s r₁ ((hrun _).symm.trans h)⟩

/-- The same for an ASCII character. -/
theorem Reads.char {c : Char} (ht : Transition r.bump c.toNat r') (hc : ch c ≠ 0)
    (hn : (ch c).toNat = c.toNat) (h : Reads may r' t Q) : Reads may r (ch c :: t) Q :=
  .cons hc (hn ▸ ht) h

/-- A byte that is an error. -/
theorem Reads.refuse (hmay : may) (hb : b ≠ 0)
    (h : ∃ r', r.bump.read b.toNat = .error r') : Reads may r (b :: t) Q := by
  obtain ⟨r', h⟩ := h
  refine .inr ⟨hmay, fun s r'' hrun => ?_⟩
  rw [cons_append, run_cons hb, h] at hrun
  cases hrun

end

/-! ## The readers between tokens -/

/-- Nothing waits, nothing was reported, and the tree is `T`. -/
def Idle (T : Tree) (r : JsonReader) : Prop :=
  r.tree = T ∧ r.utf8BytesRemaining = 0 ∧ r.unicodeHighSurrogate = 0 ∧ r.string = [] ∧ r.Clean

def AtValue (T : Tree) (key : Octets) (begun : Bool) (r : JsonReader) : Prop :=
  r.state = .valueBegin ∧ Idle T r ∧ r.key = key ∧ r.containerJustBegun = begun ∧
    (T.2 = [] → T.1 = .jsonNull)

def AtKeyBegin (T : Tree) (begun : Bool) (r : JsonReader) : Prop :=
  r.state = .objectKeyBegin ∧ Idle T r ∧ r.containerJustBegun = begun

def Stopped (T : Tree) (e : Bool) (r : JsonReader) : Prop :=
  (r.state = .valueEnd ∨ (r.state = .stateEnd ∧ T.2 = [])) ∧ Idle T r ∧ r.containerJustBegun = e

/-- A value has ended, or it is a number that ends with the next byte. -/
def Ended (T : Tree) (e : Bool) (r : JsonReader) : Prop :=
  Stopped T e r ∨ (numberDone r.state = true ∧ Fresh r.key r.stack ∧ Stopped T e r.numbered)

variable {T : Tree} {r : JsonReader} {Q : JsonReader → Prop} {b : UInt8} {j : Json}
  {key t x : Octets} {begun : Bool} {state : State}

/-- What a byte does after a value it also does after a number, which it ends. -/
theorem Ended.step {e : Bool} {c : Nat} (h : Ended T e r) (hc : IsSpace c ∨ IsTerminator c)
    (hstep : ∀ r, Stopped T e r → ∃ r', Transition r c r' ∧ Q r') :
    ∃ r', Transition r.bump c r' ∧ Q r' := by
  rcases h with h | ⟨hd, hf, h⟩
  · exact hstep r.bump h
  · obtain ⟨r', ht, hQ⟩ := hstep r.bump.numbered h
    exact ⟨r', .numberEnd hc hd hf ht, hQ⟩

/-- White space of the grammar is skipped. -/
theorem space_facts (h : b ∈ octets " \t\n\r") : IsSpace b.toNat ∧ b ≠ 0 :=
  forall_byte (P := fun b => b ∈ octets " \t\n\r" → IsSpace b.toNat ∧ b ≠ 0) (by decide +kernel) b h

/-- White space leaves a condition that its bytes leave. -/
theorem reads_ws {may : Prop} {w : Octets} (hw : Ws w)
    (hstep : ∀ r c, IsSpace c → Q r → ∃ r', Transition r.bump c r' ∧ Q r')
    (h : Q r) : Reads may r w Q := by
  induction w generalizing r with
  | nil => exact .nil h
  | cons b w ih =>
    obtain ⟨hspace, hb⟩ := space_facts (hw b mem_cons_self)
    obtain ⟨r', ht, hQ⟩ := hstep r b.toNat hspace h
    exact .cons hb ht (ih (fun x hx => hw x (mem_cons_of_mem _ hx)) hQ)

section
variable {may : Prop} {T : Tree} {key w : Octets} {e : Bool} {r : JsonReader}

theorem AtValue.ws (hw : Ws w) (h : AtValue T key e r) : Reads may r w (AtValue T key e) := by
  refine reads_ws hw (fun r c hc h => ⟨r.bump, .space hc ?_, h⟩) h
  rw [show r.bump.state = _ from h.1]
  rfl

theorem AtKeyBegin.ws (hw : Ws w) (h : AtKeyBegin T e r) : Reads may r w (AtKeyBegin T e) := by
  refine reads_ws hw (fun r c hc h => ⟨r.bump, .space hc ?_, h⟩) h
  rw [show r.bump.state = _ from h.1]
  rfl

theorem Ended.ws (hw : Ws w) (h : Ended T e r) : Reads may r w (Ended T e) := by
  refine reads_ws hw (fun r c hc h => h.step (.inl hc) fun r h => ⟨r, .space hc ?_, .inl h⟩) h
  rcases h.1 with hs | ⟨hs, -⟩ <;> rw [hs] <;> rfl

end

/-! ## Scalars -/

/-- A value that is not a container is stored. -/
theorem Idle.scalar (htree : r.tree = T)
    (hrem : r.utf8BytesRemaining = 0) (hhigh : r.unicodeHighSurrogate = 0) (hc : r.Clean)
    (hb : r.containerJustBegun = false) :
    Stopped (put r.key j T) false ((r.putScalar j).goto .valueEnd) := by
  subst htree
  exact ⟨.inl rfl, ⟨rfl, hrem, hhigh, rfl, hc⟩, hb⟩

/-- The rest of a literal. -/
theorem reads_literal {may : Prop}
    (hx : literalRest r.state = some (x, j)) (hidle : Idle T r) (hf : Fresh r.key T.2)
    (hroot : T.2 = [] → T.1 = .jsonNull) : Reads may r x (Ended (put r.key j T) false) := by
  obtain ⟨rfl, hrem, hhigh, hstr, hc⟩ := hidle
  induction x generalizing r with
  | nil => cases hs : r.state <;> rw [hs] at hx <;> cases hx
  | cons b x ih =>
    cases hs : r.state <;> rw [hs] at hx <;> cases hx
    case cons.valueTrueE.refl =>
      exact .char (.literalTrue hs hf) (by decide) rfl
        (.nil (.inl (Idle.scalar (r := r.bump.unbegun) rfl hrem hhigh hc rfl)))
    case cons.valueFalseE.refl =>
      exact .char (.literalFalse hs hf) (by decide) rfl
        (.nil (.inl (Idle.scalar (r := r.bump.unbegun) rfl hrem hhigh hc rfl)))
    case cons.valueNullL2.refl =>
      refine .char (.literalNull hs hf) (by decide) rfl (.nil (.inl ?_))
      rw [setNull_eq (r := r.bump.unbegun) hf hroot]
      exact ⟨.inl rfl, ⟨rfl, hrem, hhigh, hstr, hc⟩, rfl⟩
    all_goals
      exact .char (.literal (by rw [show r.bump.state = _ from hs]; rfl)) (by decide) rfl
        (ih (r := r.bump.unbegun.goto _) rfl hf hroot hrem hhigh hstr hc)

/-- A literal. -/
theorem AtValue.literal {may : Prop} {c : Char} (h : AtValue T key begun r) (hf : Fresh key T.2)
    (hc : literalFirst c.toNat = some state) (hx : literalRest state = some (x, j))
    (h0 : ch c ≠ 0) (hn : (ch c).toNat = c.toNat) :
    Reads may r (ch c :: x) (Ended (put key j T) false) := by
  obtain ⟨hs, hidle, rfl, -, hroot⟩ := h
  exact .char (.literalFirst hs hc) h0 hn
    (reads_literal (r := r.bump.unbegun.goto state) hx hidle hf hroot)

/-- A number has no zero byte. -/
theorem numberByte_ne_zero {state' : State}
    (h : numberNext state b.toNat = some state') : b ≠ 0 := by
  rintro rfl
  unfold numberNext at h
  split at h <;> simp [isDigit] at h

/-- A part of a number is collected. -/
theorem reads_number {may : Prop}
    (hrun : numberRun r.state t = some state) (hrem : r.utf8BytesRemaining = 0) :
    Reads may r t fun r' => ∃ i f b,
      r' = { r with
        index := i
        state := state
        utf8FirstByte := f
        containerJustBegun := b
        string := r.string ++ t } ∧ (t ≠ [] ∨ r.containerJustBegun = false → b = false) := by
  induction t generalizing r with
  | nil =>
    cases hrun
    exact .nil ⟨r.index, r.utf8FirstByte, r.containerJustBegun, by simp, by simp⟩
  | cons b t ih =>
    obtain ⟨st, hnext, hrest⟩ := bind_eq_some_iff.1 hrun
    have hlt := (numberNext_states hnext).1
    have hadd := stringAddChar_lead (r := r.bump.unbegun) hrem (.inl ⟨rfl, hlt⟩)
    refine .cons (numberByte_ne_zero hnext) (.number hnext hadd) ?_
    refine (ih hrest rfl).mono fun r' ⟨i, f, begun, hr', hb⟩ => ⟨i, f, begun, ?_, fun _ => ?_⟩
    · rw [hr']
      simp [goto, pushByte, unbegun, bump, hrem]
    · exact hb (.inr rfl)

/-- A number, which ends with the next byte. -/
theorem AtValue.number {may : Prop}
    (h : AtValue T key begun r) (hf : Fresh key T.2) (ht : ReaderNumber t) :
    Reads may r t (Ended (put key (.number t) T) false) := by
  obtain ⟨hs, ⟨rfl, hrem, hhigh, hstr, hc⟩, rfl, -, -⟩ := h
  obtain ⟨state, hrun, hd⟩ := readerNumber_iff.1 ht
  have hne : t ≠ [] := by
    rintro rfl
    cases hrun
    cases hd
  rw [← hs] at hrun
  refine (reads_number hrun hrem).mono fun r' ⟨i, f, b, hr', hb⟩ => ?_
  subst hr'
  refine .inr ⟨hd, hf, .inl rfl, ⟨?_, hrem, hhigh, rfl, hc⟩, hb (.inl hne)⟩
  show put r.key (.number (r.string ++ t)) r.tree = _
  rw [hstr, nil_append]

/-- The letters of an exponent. -/
theorem letter_facts (h : b ∈ octets "eE") : IsOther b.toNat ∧ b ≠ 0 ∧ b.toNat ≠ '.'.toNat :=
  forall_byte (P := fun b => b ∈ octets "eE" → IsOther b.toNat ∧ b ≠ 0 ∧ b.toNat ≠ '.'.toNat)
    (by decide +kernel) b h

/-- An exponent right after a `0` is refused. -/
theorem AtValue.zeroExponent {may : Prop} {l : UInt8} (hmay : may) (h : AtValue T key begun r)
    (hl : l ∈ octets "eE") : Reads may r (ch '0' :: l :: t) Q := by
  obtain ⟨hother, hl0, hdot⟩ := letter_facts hl
  have hrun : numberRun r.state [ch '0'] = some .valueNumberZero := by rw [h.1]; rfl
  refine (reads_number hrun h.2.1.2.1).append (u := l :: t) fun r' ⟨i, f, b, hr', _⟩ => ?_
  subst hr'
  refine .refuse hmay hl0 ?_
  rw [read_of_other hother, readInState]
  exact ⟨_, if_pos hdot⟩

/-! ## Strings -/

def InQuotes (st : State) (T : Tree) (key acc : Octets) (r : JsonReader) : Prop :=
  r.state = st ∧ r.tree = T ∧ r.key = key ∧ r.string = acc ∧ r.Clean ∧ r.containerJustBegun = false

/-- Between quotes, and between two characters. -/
def AtChar (st : State) (T : Tree) (key acc : Octets) (r : JsonReader) : Prop :=
  InQuotes st T key acc r ∧ r.utf8BytesRemaining = 0 ∧ r.unicodeHighSurrogate = 0

section
variable {may : Prop} {st : State} {T : Tree} {key acc : Octets} {r : JsonReader}
  {c d n : Nat} {q s t x : Octets} {b e : UInt8} {Q : JsonReader → Prop} {lone : Bool}

/-- No container has just begun inside of quotes. -/
theorem flagged_self (h : r.containerJustBegun = false) : r.flagged c = r := by
  unfold flagged
  split
  · rw [unbegun, ← h]
  · rfl

/-- A byte is added to the string. -/
theorem InQuotes.pushByte {k f : Nat} (h : InQuotes st T key acc r) :
    InQuotes st T key (acc ++ [b]) (r.bump.pushByte b.toNat k f) := by
  obtain ⟨hs, htree, hkey, hstr, hc, hb⟩ := h
  exact ⟨hs, htree, hkey, by simp [JsonReader.pushByte, bump, hstr], hc, hb⟩

/-- A byte of a character, and the rest of it. -/
theorem InQuotes.char {k f : Nat} (h : InQuotes st T key acc r) (hst : inString st = true)
    (hhigh : r.unicodeHighSurrogate = 0) (hlow : 32 ≤ b.toNat) (hquote : b.toNat ≠ '"'.toNat)
    (hback : b.toNat ≠ '\\'.toNat)
    (hadd : r.bump.stringAddChar b.toNat = some (r.bump.pushByte b.toNat k f))
    (hrest : Reads may (r.bump.pushByte b.toNat k f) q (AtChar st T key (acc ++ [b] ++ q))) :
    Reads may r (b :: q) (AtChar st T key (acc ++ b :: q)) := by
  have hne : b ≠ 0 := by
    rintro rfl
    exact absurd hlow (by decide)
  rw [append_assoc] at hrest
  refine .cons hne (.char (by rw [← h.1] at hst; exact hst) hhigh hlow hquote hback ?_) hrest
  rw [flagged_self (r := r.bump) h.2.2.2.2.2]
  exact hadd

/-- The bytes after the first one of a character. -/
theorem reads_rest {k f : Nat} (hst : inString st = true)
    (h : InQuotes st T key acc r) (hhigh : r.unicodeHighSurrogate = 0)
    (hrem : r.utf8BytesRemaining = k) (hk : k ≤ 3) (hf : r.utf8FirstByte = f)
    (hq : Utf8.Rest f k q) : Reads may r q (AtChar st T key (acc ++ q)) := by
  induction k generalizing r acc q with
  | zero =>
    rw [rest_zero.1 hq, append_nil]
    exact .nil ⟨h, hrem, hhigh⟩
  | succ k ih =>
    obtain ⟨b, q, rfl, hcont, hq⟩ := rest_succ.1 hq
    obtain ⟨hlow, -⟩ := hcont.1
    have hquote (c : Char) (hc : c.toNat < 0x80) : b.toNat ≠ c.toNat := by omega
    refine h.char hst hhigh (by omega) (hquote '"' (by decide)) (hquote '\\' (by decide))
      (stringAddChar_cont (r := r.bump) hrem hk (hf ▸ hcont)) ?_
    exact ih h.pushByte hhigh rfl (by omega) hf hq

/-- The first byte of a character is the character, or not ASCII. -/
theorem lead_eq_or_le (hn : Utf8.IsScalar n)
    (henc : encode n = b :: q) : b.toNat = n ∨ 0x80 ≤ b.toNat := by
  by_cases hlt : b.toNat < 0x80
  · exact .inl (encode_lead_le hn henc hlt).1.symm
  · exact .inr (by omega)

/-- A character that stands for itself. -/
theorem AtChar.plain (hst : inString st = true) (h : AtChar st T key acc r)
    (hn : Utf8.IsScalar n) (hlow : 0x20 ≤ n) (hquote : n ≠ '"'.toNat) (hback : n ≠ '\\'.toNat) :
    Reads may r (encode n) (AtChar st T key (acc ++ encode n)) := by
  obtain ⟨h, hrem, hhigh⟩ := h
  obtain ⟨b, k, q, henc, hlead, hq⟩ := encode_lead hn
  have hbyte := lead_eq_or_le hn henc
  simp only [Char.reduceToNat] at hquote hback
  rw [henc]
  refine h.char hst hhigh (by omega) (by simp only [Char.reduceToNat]; omega)
    (by simp only [Char.reduceToNat]; omega) (stringAddChar_lead (r := r.bump) hrem hlead) ?_
  exact reads_rest hst h.pushByte hhigh rfl hlead.le rfl hq

def escaping (r : JsonReader) : JsonReader :=
  { r.bump with
    escapedStringWasKey := r.state = .objectKeyString
    state := .stringEscape }

/-- A backslash begins an escape. -/
theorem reads_backslash (hst : inString r.state = true) (h : Reads may r.escaping t Q) :
    Reads may r (ch '\\' :: t) Q :=
  .char (.backslash hst) (by decide) rfl h

/-- After an escape the reader is back in the key or the string. -/
theorem stringState_escaping {r' : JsonReader} (hst : inString r.state = true)
    (h : r'.escapedStringWasKey = decide (r.state = .objectKeyString)) :
    r'.stringState = r.state := by
  unfold inString at hst
  unfold stringState
  split at hst <;> simp_all

/-- The escapes of the grammar are those of the reader. -/
theorem escapedByte_of_mem (h : (e, b) ∈ escapes) :
    escapedByte e.toNat = some b.toNat ∧ b.toNat < 0x80 ∧ e ≠ 0 := by
  have hall : escapes.all (fun p =>
      escapedByte p.1.toNat = some p.2.toNat ∧ p.2.toNat < 0x80 ∧ p.1 ≠ 0) = true := by decide
  exact of_decide_eq_true (all_eq_true.1 hall (e, b) h)

/-- An escape of one letter. -/
theorem AtChar.escape (hst : inString st = true) (h : AtChar st T key acc r)
    (he : (e, b) ∈ escapes) : Reads may r [ch '\\', e] (AtChar st T key (acc ++ [b])) := by
  obtain ⟨⟨rfl, htree, hkey, hstr, hc, hb⟩, hrem, hhigh⟩ := h
  obtain ⟨hesc, hlt, he0⟩ := escapedByte_of_mem he
  have hstate : r.escaping.bump.stringState = r.state := stringState_escaping hst rfl
  have hadd := stringAddChar_lead (r := r.escaping.bump.goto r.state) hrem (.inl ⟨rfl, hlt⟩)
  have htrans : Transition r.escaping.bump e.toNat
      ((r.escaping.bump.goto r.state).pushByte b.toNat 0 b.toNat) :=
    .escape rfl hhigh hesc (by rw [flagged_self (r := r.escaping.bump) hb, hstate]; exact hadd)
  refine reads_backslash hst (.cons he0 htrans (.nil ⟨⟨rfl, htree, hkey, ?_, hc, hb⟩, rfl, hhigh⟩))
  simp [pushByte, goto, bump, escaping, hstr]

/-! ### Hexadecimal escapes -/

/-- The reader before the last digit of an escape. -/
def beforeLast (r : JsonReader) (i m : Nat) : JsonReader :=
  { r with
    index := i
    escapedStringWasKey := r.state = .objectKeyString
    state := .stringEscapeU4
    unicodeChar := m }

theorem ne_zero_of_hexValue (h : hexValue b.toNat = some d) : b ≠ 0 := by
  rintro rfl
  cases h

/-- The last digit of an escape. -/
theorem run_hexEnd (hs : r.state = .stringEscapeU4)
    (hd : hexValue b.toNat = some d) : r.run (b :: s) =
      match (r.bump.unbegun.shift d).endUnicode with
      | .ok r' => r'.run s
      | .error r' => .error r' := by
  rw [run_cons (ne_zero_of_hexValue hd), read_of_other (isOther_of_hexValue hd), readInState,
    show r.bump.unbegun.state = _ from hs]
  simp only [readHex, hd]
  rfl

/-- A hexadecimal escape, up to what becomes of its code unit. -/
theorem run_unicode (hst : inString r.state = true)
    (hb : r.containerJustBegun = false) (hx : hex4 x = some n) :
    ∃ i, ∀ s, r.run (unicodeEscape x ++ s) =
      match (r.beforeLast i n).endUnicode with
      | .ok r' => r'.run s
      | .error r' => .error r' := by
  have hlen := length_of_hex4 hx
  rw [← hexFrom_eq hlen] at hx
  obtain _ | ⟨a, _ | ⟨b, _ | ⟨c, _ | ⟨d, _ | ⟨e, x⟩⟩⟩⟩⟩ := x <;> simp at hlen
  obtain ⟨a', ha, hx⟩ := bind_eq_some_iff.1 hx
  obtain ⟨b', hb', hx⟩ := bind_eq_some_iff.1 hx
  obtain ⟨c', hc, hx⟩ := bind_eq_some_iff.1 hx
  obtain ⟨d', hd, hx⟩ := bind_eq_some_iff.1 hx
  -- the backslash, the letter and three digits
  have hreads : Reads False r (ch '\\' :: ch 'u' :: [a, b, c]) fun r' =>
      ∃ i, r' = r.beforeLast i
        ((((0 <<< 4) % 2 ^ 16 ||| a') <<< 4 % 2 ^ 16 ||| b') <<< 4 % 2 ^ 16 ||| c') := by
    refine reads_backslash hst (.char (.escapeU rfl) (by decide) rfl ?_)
    refine .cons (ne_zero_of_hexValue ha) (.hex rfl ha) ?_
    refine .cons (ne_zero_of_hexValue hb') (.hex rfl hb') ?_
    refine .cons (ne_zero_of_hexValue hc) (.hex rfl hc) (.nil ⟨r.index + 5, ?_⟩)
    simp [beforeLast, goto, shift, unbegun, bump, escaping, hb]
  obtain ⟨r', hrun, i, rfl⟩ := hreads.resolve_right fun h => h.1
  refine ⟨i + 1, fun s => ?_⟩
  refine (hrun (d :: s)).trans ((run_hexEnd rfl hd).trans ?_)
  have hn : (r.beforeLast i ((((0 <<< 4) % 2 ^ 16 ||| a') <<< 4 % 2 ^ 16 ||| b') <<< 4 % 2 ^ 16 |||
      c')).bump.unbegun.shift d' = r.beforeLast (i + 1) n := by
    cases hx
    simp [beforeLast, shift, unbegun, bump, hb]
  rw [hn]

/-- A code unit that is no surrogate, or one at its place, is taken. -/
theorem UnicodeEnd.exists (hlt : r.unicodeChar < 0x10000) (hrem : r.utf8BytesRemaining = 0)
    (h : (r.unicodeHighSurrogate = 0 ∧ ¬ IsLow r.unicodeChar) ∨
      (IsHigh r.unicodeHighSurrogate ∧ IsLow r.unicodeChar)) :
    ∃ r', r.endUnicode = .ok r' ∧ UnicodeEnd r r' := by
  have hhigh : r.unicodeHighSurrogate = 0 ∨ IsHigh r.unicodeHighSurrogate := h.imp And.left And.left
  suffices hok : ∃ r', r.takeUnit = .ok r' by
    obtain ⟨r', hok⟩ := hok
    have hend : r.endUnicode = .ok (r'.goto r'.stringState) := by
      rw [endUnicode, hok]
      rfl
    exact ⟨_, hend, .of_ok hlt hhigh hend⟩
  unfold takeUnit
  rcases h with ⟨h0, hl⟩ | ⟨hh, hl⟩
  · by_cases hh : IsHigh r.unicodeChar
    · rw [if_pos ((mask_high hlt).2 hh), if_neg (not_not.2 h0)]
      exact ⟨_, rfl⟩
    · obtain ⟨f, hadd⟩ := stringAddUtf32_eq hrem (isScalar_of_not_surrogate hlt hh hl)
      rw [if_neg (mt (mask_high hlt).1 hh), if_neg (mt (mask_low hlt).1 hl), if_neg (not_not.2 h0)]
      exact ⟨_, addUtf32_ok.2 hadd⟩
  · obtain ⟨f, hadd⟩ := stringAddUtf32_eq hrem (isScalar_surrogatePair hh hl)
    rw [if_neg (mt (mask_high hlt).1 hl.not_isHigh), if_pos ((mask_low hlt).2 hl),
      if_neg hh.ne_zero]
    refine ⟨{ r.pushBytes (encode (surrogatePair r.unicodeHighSurrogate r.unicodeChar)) f with
      unicodeHighSurrogate := 0 }, ?_⟩
    show (r.addUtf32 (surrogatePair r.unicodeHighSurrogate r.unicodeChar) >>= _) = _
    rw [addUtf32_ok.2 hadd]
    rfl

/-- A surrogate at the wrong place is refused. -/
theorem endUnicode_error (hlt : r.unicodeChar < 0x10000)
    (h : (r.unicodeHighSurrogate = 0 ∧ IsLow r.unicodeChar) ∨
      (r.unicodeHighSurrogate ≠ 0 ∧ ¬ IsLow r.unicodeChar)) : ∃ r', r.endUnicode = .error r' := by
  suffices herr : ∃ r', r.takeUnit = .error r' by
    obtain ⟨r', herr⟩ := herr
    exact ⟨r', by rw [endUnicode, herr]; rfl⟩
  unfold takeUnit
  rcases h with ⟨h0, hl⟩ | ⟨hne, hl⟩
  · rw [if_neg (mt (mask_high hlt).1 hl.not_isHigh), if_pos ((mask_low hlt).2 hl), if_pos h0]
    exact ⟨_, rfl⟩
  · rw [if_neg (mt (mask_low hlt).1 hl), if_pos hne, if_pos hne]
    exact ⟨_, by split <;> rfl⟩

/-- A code unit has 16 bits. -/
theorem hex4_lt (h : hex4 x = some n) : n < 0x10000 := by
  have hlen := length_of_hex4 h
  obtain _ | ⟨a, _ | ⟨b, _ | ⟨c, _ | ⟨d, _ | ⟨e, x⟩⟩⟩⟩⟩ := x <;> simp at hlen
  simp only [hex4, hexDigit_eq] at h
  obtain ⟨a', ha, h⟩ := bind_eq_some_iff.1 h
  obtain ⟨b', hb, h⟩ := bind_eq_some_iff.1 h
  obtain ⟨c', hc, h⟩ := bind_eq_some_iff.1 h
  obtain ⟨d', hd, h⟩ := bind_eq_some_iff.1 h
  have ha := hexValue_lt ha
  have hb := hexValue_lt hb
  have hc := hexValue_lt hc
  have hd := hexValue_lt hd
  cases h
  omega

/-- A hexadecimal escape whose code unit is taken. -/
theorem reads_unicode {Q : JsonReader → Prop} (hst : inString r.state = true)
    (hb : r.containerJustBegun = false) (hrem : r.utf8BytesRemaining = 0) (hx : hex4 x = some n)
    (hunit : (r.unicodeHighSurrogate = 0 ∧ ¬ IsLow n) ∨ (IsHigh r.unicodeHighSurrogate ∧ IsLow n))
    (hQ : ∀ i r', (r.beforeLast i n).stringState = r.state → UnicodeEnd (r.beforeLast i n) r' →
      Q r') : Reads may r (unicodeEscape x) Q := by
  obtain ⟨i, hrun⟩ := run_unicode hst hb hx
  obtain ⟨r', hok, hend⟩ := UnicodeEnd.exists (r := r.beforeLast i n) (hex4_lt hx) hrem hunit
  rw [hok] at hrun
  exact .inl ⟨r', hrun, hQ i r' (stringState_escaping hst rfl) hend⟩

/-- The escape of a character of the first plane. -/
theorem AtChar.unicode (hst : inString st = true) (h : AtChar st T key acc r)
    (hx : hex4 x = some n) (hh : ¬ IsHigh n) (hl : ¬ IsLow n) :
    Reads may r (unicodeEscape x) (AtChar st T key (acc ++ encode n)) := by
  obtain ⟨⟨rfl, htree, hkey, hstr, hc, hb⟩, hrem, hhigh⟩ := h
  refine reads_unicode hst hb hrem hx (.inl ⟨hhigh, hl⟩) fun i r' hstate hend => ?_
  cases hend with
  | high hh' _ => exact absurd hh' hh
  | pair hl' _ _ => exact absurd hl' hl
  | scalar _ _ _ _ =>
    exact ⟨⟨hstate, htree, hkey, congrArg (· ++ encode n) hstr, hc, hb⟩, rfl, hhigh⟩

/-- A high surrogate waits for the low one. -/
def AfterHigh (st : State) (T : Tree) (key acc : Octets) (high : Nat) (r : JsonReader) : Prop :=
  InQuotes st T key acc r ∧ r.utf8BytesRemaining = 0 ∧ r.unicodeHighSurrogate = high

/-- The escape of a high surrogate. -/
theorem AtChar.high (hst : inString st = true) (h : AtChar st T key acc r)
    (hx : hex4 x = some n) (hh : IsHigh n) :
    Reads may r (unicodeEscape x) (AfterHigh st T key acc n) := by
  obtain ⟨⟨rfl, htree, hkey, hstr, hc, hb⟩, hrem, hhigh⟩ := h
  have hl : ¬ IsLow n := fun hl => hl.not_isHigh hh
  refine reads_unicode hst hb hrem hx (.inl ⟨hhigh, hl⟩) fun i r' hstate hend => ?_
  cases hend with
  | high _ _ => exact ⟨⟨hstate, htree, hkey, hstr, hc, hb⟩, hrem, rfl⟩
  | pair hl' _ _ => exact absurd hl' hl
  | scalar hh' _ _ _ => exact absurd hh hh'

/-- The escape of a low surrogate after a high one. -/
theorem AfterHigh.low {high : Nat} (hst : inString st = true)
    (h : AfterHigh st T key acc high r) (hhigh : IsHigh high) (hx : hex4 x = some n)
    (hl : IsLow n) :
    Reads may r (unicodeEscape x)
      (AtChar st T key (acc ++ encode (surrogatePair high n))) := by
  obtain ⟨⟨rfl, htree, hkey, hstr, hc, hb⟩, hrem, rfl⟩ := h
  refine reads_unicode hst hb hrem hx (.inr ⟨hhigh, hl⟩) fun i r' hstate hend => ?_
  have hne := hhigh.ne_zero
  cases hend with
  | high _ h0 => exact absurd h0 hne
  | pair _ _ _ =>
    refine ⟨⟨hstate, htree, hkey, ?_, hc, hb⟩, rfl, rfl⟩
    rw [← hstr]
    rfl
  | scalar _ hl' _ _ => exact absurd hl hl'

/-- The escape of a surrogate at the wrong place. -/
theorem reads_unfit (hmay : may)
    (hst : inString r.state = true) (hb : r.containerJustBegun = false) (hx : hex4 x = some n)
    (h : (r.unicodeHighSurrogate = 0 ∧ IsLow n) ∨ (r.unicodeHighSurrogate ≠ 0 ∧ ¬ IsLow n)) :
    Reads may r (unicodeEscape x ++ t) Q := by
  obtain ⟨i, hrun⟩ := run_unicode hst hb hx
  obtain ⟨r', herr⟩ := endUnicode_error (r := r.beforeLast i n) (hex4_lt hx) h
  refine .inr ⟨hmay, fun s r'' hok => ?_⟩
  rw [append_assoc, hrun, herr] at hok
  cases hok

/-- After a high surrogate only a backslash is no error. -/
theorem read_error_of_high (hst : inString r.state = true)
    (hhigh : r.unicodeHighSurrogate ≠ 0) (hc : c ≠ '\\'.toNat) : ∃ r', r.read c = .error r' := by
  have hst' : r.state = .objectKeyString ∨ r.state = .valueString := by
    unfold inString at hst
    split at hst <;> simp_all
  by_cases hspace : IsSpace c
  · rw [read_of_space hspace, readSpace]
    rcases hst' with hs | hs <;> rw [hs] <;> simp [hhigh]
  by_cases hterm : IsTerminator c
  · rw [read_of_terminator hterm, readTerminator]
    rcases hst' with hs | hs <;> rw [hs] <;> simp [hhigh]
  · rw [read_of_other ⟨hspace, hterm, hc⟩, readInState]
    rcases hst' with hs | hs <;> rw [show r.unbegun.state = _ from hs] <;>
      exact ⟨_, if_pos hhigh⟩

/-- Nor may the escape be one of a letter. -/
theorem read_escape_error {b : Nat} (hs : r.state = .stringEscape)
    (hhigh : r.unicodeHighSurrogate ≠ 0) (hc : escapedByte c = some b) :
    ∃ r', r.read c = .error r' := by
  unfold escapedByte at hc
  split_ifs at hc with hback
  · subst hback
    refine ⟨r, ?_⟩
    show r.readBackslash = _
    rw [readBackslash, hs]
    exact if_pos hhigh
  · have hother : IsOther c ∧ c ≠ 'u'.toNat := by
      unfold escaped at hc
      simp only [IsOther, IsSpace, IsTerminator, Char.reduceToNat] at hc ⊢
      split_ifs at hc <;> omega
    rw [read_of_other hother.1, readInState, show r.unbegun.state = _ from hs]
    exact ⟨_, if_pos ⟨hhigh, hother.2⟩⟩

/-- The first byte of a character that stands for itself. -/
theorem lead_ne (hn : Utf8.IsScalar n)
    (henc : encode n = b :: q) (hlow : 0x20 ≤ n) (hback : n ≠ '\\'.toNat) :
    b ≠ 0 ∧ b.toNat ≠ '\\'.toNat := by
  have hbyte := lead_eq_or_le hn henc
  simp only [Char.reduceToNat] at hback ⊢
  refine ⟨?_, by omega⟩
  rintro rfl
  simp at hbyte
  omega

/-- After a high surrogate everything but a low one is refused. -/
theorem AfterHigh.refuse {high : Nat}
    (hmay : may) (hst : inString st = true) (h : AfterHigh st T key acc high r)
    (hhigh : IsHigh high) (hs : Chars lone s t) (hlow : ¬ StartsLow s) :
    Reads may r (s ++ [ch '"']) Q := by
  obtain ⟨⟨rfl, -, -, -, -, hb⟩, -, rfl⟩ := h
  have hne := hhigh.ne_zero
  have hnot {x t : Octets} {n : Nat} (hx : hex4 x = some n) (hs : s = unicodeEscape x ++ t) :
      ¬ IsLow n := fun hl => hlow ⟨x, n, t, hs, hx, hl⟩
  cases hs with
  | nil => exact .refuse hmay (by decide) (read_error_of_high hst hne (by decide))
  | plain hn h20 hquote hback _ =>
    obtain ⟨b, k, q, henc, -, -⟩ := encode_lead hn
    obtain ⟨hb0, hb'⟩ := lead_ne hn henc h20 hback
    rw [henc]
    exact .refuse hmay hb0 (read_error_of_high hst hne hb')
  | escape he _ =>
    obtain ⟨hesc, -, he0⟩ := escapedByte_of_mem he
    exact reads_backslash hst (.refuse hmay he0 (read_escape_error rfl hne hesc))
  | unicode hx _ _ _ | pair hx _ _ _ _ | loneHigh _ hx _ _ _ =>
    rw [append_assoc]
    exact reads_unfit hmay hst hb hx (.inr ⟨hne, hnot hx rfl⟩)
  | loneLow _ hx hl _ => exact absurd hl (hnot hx rfl)

/-- What stands between quotes is read or refused, by induction on its derivation. -/
theorem reads_chars (hmay : lone = true → may) (hst : inString st = true) (hs : Chars lone s t)
    (h : AtChar st T key acc r)
    (hclose : ∀ r', AtChar st T key (acc ++ t) r' → Reads may r' [ch '"'] Q) :
    Reads may r (s ++ [ch '"']) Q := by
  induction hs generalizing acc r with
  | nil => exact hclose r (by rwa [append_nil])
  | plain hn h20 hquote hback _ ih =>
    rw [append_assoc]
    refine (h.plain hst hn h20 hquote hback).append fun r' h' => ih h' ?_
    rwa [append_assoc]
  | @escape e b s t he _ ih =>
    refine (h.escape hst he).append (u := s ++ [ch '"']) fun r' h' => ih h' ?_
    rwa [append_assoc]
  | unicode hx hh hl _ ih =>
    rw [append_assoc]
    refine (h.unicode hst hx hh hl).append fun r' h' => ih h' ?_
    rwa [append_assoc]
  | pair hx hh hy hl _ ih =>
    rw [append_assoc, append_assoc]
    refine (h.high hst hx hh).append fun r' h' => (h'.low hst hh hy hl).append fun r' h' => ih h' ?_
    rwa [append_assoc]
  | loneHigh hlone hx hh hlow hs _ =>
    rw [append_assoc]
    exact (h.high hst hx hh).append fun r' h' => h'.refuse (hmay hlone) hst hh hs hlow
  | loneLow hlone hx hl _ _ =>
    rw [append_assoc]
    obtain ⟨⟨rfl, -, -, -, -, hb⟩, -, hhigh⟩ := h
    exact reads_unfit (hmay hlone) hst hb hx (.inl ⟨hhigh, hl⟩)

end

end GrpcCore.JsonReader
