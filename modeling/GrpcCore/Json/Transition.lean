import GrpcCore.Json.Steps

/-!
# The transitions of the reader

Every way in which the reader takes a byte without an error, as a relation. `Transition.of_read` and
`Transition.read` say that it is what `read` does; everything about whole texts goes by cases of it.
-/

namespace GrpcCore.JsonReader

open Option JsonText

/-- White space, as `Run` tells it. -/
def IsSpace (c : Nat) : Prop :=
  c = ' '.toNat ∨ c = '\t'.toNat ∨ c = '\n'.toNat ∨ c = '\r'.toNat

def IsTerminator (c : Nat) : Prop := c = ','.toNat ∨ c = '}'.toNat ∨ c = ']'.toNat

/-- A byte of the `default` case. -/
def IsOther (c : Nat) : Prop := ¬ IsSpace c ∧ ¬ IsTerminator c ∧ c ≠ '\\'.toNat

instance (c : Nat) : Decidable (IsSpace c) := by unfold IsSpace; infer_instance

instance (c : Nat) : Decidable (IsTerminator c) := by unfold IsTerminator; infer_instance

instance (c : Nat) : Decidable (IsOther c) := by unfold IsOther; infer_instance

/-- The states in which white space is skipped. -/
def skipsSpace : State → Bool
  | .objectKeyBegin | .objectKeyEnd | .valueBegin | .valueEnd | .stateEnd => true
  | _ => false

def inString : State → Bool
  | .objectKeyString | .valueString => true
  | _ => false

/-- The byte that a literal goes on with, and the state after it. -/
def literalNext : State → Option (Char × State)
  | .valueTrueR => some ('r', .valueTrueU)
  | .valueTrueU => some ('u', .valueTrueE)
  | .valueFalseA => some ('a', .valueFalseL)
  | .valueFalseL => some ('l', .valueFalseS)
  | .valueFalseS => some ('s', .valueFalseE)
  | .valueNullU => some ('u', .valueNullL1)
  | .valueNullL1 => some ('l', .valueNullL2)
  | _ => none

/-- The state after the first byte of a literal. -/
def literalFirst (c : Nat) : Option State :=
  if c = 't'.toNat then some .valueTrueR
  else if c = 'f'.toNat then some .valueFalseA
  else if c = 'n'.toNat then some .valueNullU
  else none

/-- The next state within a hexadecimal escape. -/
def hexNext : State → Option State
  | .stringEscapeU1 => some .stringEscapeU2
  | .stringEscapeU2 => some .stringEscapeU3
  | .stringEscapeU3 => some .stringEscapeU4
  | _ => none

/-- What the byte after a backslash stands for, a backslash included. -/
def escapedByte (c : Nat) : Option Nat := if c = '\\'.toNat then some c else escaped c

/-- The reader after `container_just_begun_` was reset, if the byte does that. -/
def flagged (r : JsonReader) (c : Nat) : JsonReader := if IsOther c then r.unbegun else r

/-- The reader with one more digit of an escape. -/
def shift (r : JsonReader) (d : Nat) : JsonReader :=
  { r with unicodeChar := (r.unicodeChar <<< 4) % 2 ^ 16 ||| d }

/-- The innermost container has ended. -/
def closed (r : JsonReader) : JsonReader :=
  let r := r.withTree (close r.tree)
  r.goto (if r.stack.isEmpty then .stateEnd else .valueEnd)

/-- The number that was collected is put into the tree. -/
def numbered (r : JsonReader) : JsonReader := (r.putScalar (.number r.string)).goto .valueEnd

inductive Transition : JsonReader → Nat → JsonReader → Prop
  /-- White space between tokens. -/
  | space {r : JsonReader} {c : Nat} : IsSpace c → skipsSpace r.state = true → Transition r c r
  /-- A byte of a string. -/
  | char {r r' : JsonReader} {c : Nat} : inString r.state = true → r.unicodeHighSurrogate = 0 →
      32 ≤ c → c ≠ '"'.toNat → c ≠ '\\'.toNat → (r.flagged c).stringAddChar c = some r' →
      Transition r c r'
  /-- A number ends at a byte that is not part of it, which is then read. -/
  | numberEnd {r r' : JsonReader} {c : Nat} : IsSpace c ∨ IsTerminator c →
      numberDone r.state = true → Fresh r.key r.stack → Transition r.numbered c r' →
      Transition r c r'
  | commaObject {r : JsonReader} : r.state = .valueEnd → r.inObject = true →
      Transition r ','.toNat (r.goto .objectKeyBegin)
  | commaArray {r : JsonReader} : r.state = .valueEnd → r.inArray = true →
      Transition r ','.toNat (r.goto .valueBegin)
  | closeObject {r : JsonReader} : r.inObject = true →
      (r.state = .valueEnd ∨ r.state = .valueBegin ∨
        (r.state = .objectKeyBegin ∧ r.containerJustBegun = true)) →
      Transition r '}'.toNat r.closed
  | closeArray {r : JsonReader} : r.inArray = true →
      (r.state = .valueEnd ∨ r.state = .objectKeyBegin ∨
        (r.state = .valueBegin ∧ r.containerJustBegun = true)) →
      Transition r ']'.toNat r.closed
  | backslash {r : JsonReader} : inString r.state = true →
      Transition r '\\'.toNat
        { r with escapedStringWasKey := r.state = .objectKeyString, state := .stringEscape }
  | escape {r r' : JsonReader} {c b : Nat} : r.state = .stringEscape →
      r.unicodeHighSurrogate = 0 → escapedByte c = some b →
      ((r.flagged c).goto r.stringState).stringAddChar b = some r' → Transition r c r'
  | escapeU {r : JsonReader} : r.state = .stringEscape →
      Transition r 'u'.toNat { r.unbegun with state := .stringEscapeU1, unicodeChar := 0 }
  | hex {r : JsonReader} {c d : Nat} {state : State} : hexNext r.state = some state →
      hexValue c = some d → Transition r c ((r.unbegun.shift d).goto state)
  | hexEnd {r r' : JsonReader} {c d : Nat} : r.state = .stringEscapeU4 → hexValue c = some d →
      endUnicode (r.unbegun.shift d) = .ok r' → Transition r c r'
  | openKey {r : JsonReader} : r.state = .objectKeyBegin →
      Transition r '"'.toNat (r.unbegun.goto .objectKeyString)
  | openString {r : JsonReader} : r.state = .valueBegin →
      Transition r '"'.toNat (r.unbegun.goto .valueString)
  | closeKey {r : JsonReader} : r.state = .objectKeyString → r.unicodeHighSurrogate = 0 →
      r.utf8BytesRemaining = 0 → Transition r '"'.toNat (r.unbegun.setKey.goto .objectKeyEnd)
  | closeString {r : JsonReader} : r.state = .valueString → r.unicodeHighSurrogate = 0 →
      r.utf8BytesRemaining = 0 → Fresh r.key r.stack →
      Transition r '"'.toNat ((r.unbegun.putScalar (.string r.string)).goto .valueEnd)
  | colon {r : JsonReader} : r.state = .objectKeyEnd →
      Transition r ':'.toNat (r.unbegun.goto .valueBegin)
  | number {r r' : JsonReader} {c : Nat} {state : State} : numberNext r.state c = some state →
      r.unbegun.stringAddChar c = some r' → Transition r c (r'.goto state)
  | openObject {r : JsonReader} : r.state = .valueBegin → r.stack.length ≠ 255 →
      Fresh r.key r.stack →
      Transition r '{'.toNat ((push { r with containerJustBegun := true } (.object [])).goto
        .objectKeyBegin)
  | openArray {r : JsonReader} : r.state = .valueBegin → r.stack.length ≠ 255 →
      Fresh r.key r.stack →
      Transition r '['.toNat (push { r with containerJustBegun := true } (.array []))
  | literalFirst {r : JsonReader} {c : Nat} {state : State} : r.state = .valueBegin →
      literalFirst c = some state → Transition r c (r.unbegun.goto state)
  | literal {r : JsonReader} {c : Char} {state : State} : literalNext r.state = some (c, state) →
      Transition r c.toNat (r.unbegun.goto state)
  | literalTrue {r : JsonReader} : r.state = .valueTrueE → Fresh r.key r.stack →
      Transition r 'e'.toNat ((r.unbegun.putScalar .jsonTrue).goto .valueEnd)
  | literalFalse {r : JsonReader} : r.state = .valueFalseE → Fresh r.key r.stack →
      Transition r 'e'.toNat ((r.unbegun.putScalar .jsonFalse).goto .valueEnd)
  | literalNull {r : JsonReader} : r.state = .valueNullL2 → Fresh r.key r.stack →
      Transition r 'l'.toNat (r.unbegun.setNull.goto .valueEnd)

/-! ## When the parts of `read` succeed -/

variable {r r' : JsonReader} {c d : Nat} {state : State}
  {next : JsonReader → Except JsonReader JsonReader} {char : Char} {close : JsonReader → JsonReader}

/-- `addChar` succeeds where the byte may come next in UTF-8. -/
theorem addChar_ok : r.addChar c = .ok r' ↔ r.stringAddChar c = some r' := by
  unfold addChar
  split <;> rename_i h <;> simp [h]

theorem addUtf32_ok : r.addUtf32 c = .ok r' ↔ r.stringAddUtf32 c = some r' := by
  unfold addUtf32
  split <;> rename_i h <;> simp [h]

/-- A byte is added before the reader changes its state. -/
theorem addChar_bind_ok : (do let r ← r.addChar c; .ok (r.goto state)) = Except.ok r' ↔
    ∃ r₁, r.stringAddChar c = some r₁ ∧ r₁.goto state = r' := by
  unfold addChar
  cases r.stringAddChar c <;> simp [bind, Except.bind]

theorem expect_ok {next : JsonReader} :
    r.expect c char next = .ok r' ↔ c = char.toNat ∧ next = r' := by
  unfold expect
  split_ifs with hc <;> simp_all

/-- A byte of a number is added, and leads to a state. -/
theorem readNumber_ok {next : Option State} : r.readNumber c next = .ok r' ↔
    ∃ state r₁, next = some state ∧ r.stringAddChar c = some r₁ ∧ r₁.goto state = r' := by
  unfold readNumber addChar
  cases r.stringAddChar c <;> cases next <;> simp [bind, Except.bind]

theorem readHex_ok : r.readHex c next = .ok r' ↔
    ∃ d, hexValue c = some d ∧ next (r.shift d) = .ok r' := by
  unfold readHex
  cases hexValue c <;> simp [shift]

/-- A byte of a string ends the string or is added to it. -/
theorem readString_ok : r.readString c close = .ok r' ↔ r.unicodeHighSurrogate = 0 ∧
    (c = '"'.toNat ∧ r.utf8BytesRemaining = 0 ∧ close r = r' ∨
      c ≠ '"'.toNat ∧ 32 ≤ c ∧ r.stringAddChar c = some r') := by
  unfold readString
  split_ifs <;> simp_all [addChar_ok] <;> omega

/-- The byte after a backslash begins a hexadecimal escape or stands for a byte. -/
theorem readEscape_ok : r.readEscape c = .ok r' ↔
    c = 'u'.toNat ∧ { r with state := .stringEscapeU1, unicodeChar := 0 } = r' ∨
      r.unicodeHighSurrogate = 0 ∧ ∃ b, escaped c = some b ∧
        (r.goto r.stringState).stringAddChar b = some r' := by
  by_cases hc : c = 'u'.toNat
  · subst hc
    simp [readEscape, escaped, goto]
  · by_cases hhigh : r.unicodeHighSurrogate = 0
    · cases he : escaped c <;> simp_all [readEscape, goto, addChar_ok]
    · simp_all [readEscape, goto]

/-- White space is skipped, part of a string, or ends a number. -/
theorem readSpace_ok : r.readSpace c = .ok r' ↔
    skipsSpace r.state = true ∧ r = r' ∨
      inString r.state = true ∧ c = ' '.toNat ∧ r.unicodeHighSurrogate = 0 ∧
        r.stringAddChar c = some r' ∨
      numberDone r.state = true ∧ r.setNumber.goto .valueEnd = r' := by
  unfold readSpace
  cases r.state <;> simp [skipsSpace, inString, numberDone]
  all_goals split_ifs <;> simp_all [addChar_ok]

/-- The end of a container, in terms of the tree. -/
theorem closed_eq :
    r.endContainer.goto (if r.endContainer.stack.isEmpty then .stateEnd else .valueEnd) =
      r.closed := by
  rw [endContainer_eq]
  rfl

theorem inObject_nonempty (h : r.inObject = true) :
    r.stack.isEmpty = false ∧ r.inArray = false := by
  unfold inObject at h
  unfold inArray
  split at h <;> simp_all

theorem inArray_nonempty (h : r.inArray = true) :
    r.stack.isEmpty = false ∧ r.inObject = false := by
  unfold inArray at h
  unfold inObject
  split at h <;> simp_all

/-- After a comma comes a key or a value. -/
theorem endValue_comma : r.endValue ','.toNat = .ok r' ↔ r.state = .valueEnd ∧
    (r.inObject = true ∧ r.goto .objectKeyBegin = r' ∨
      r.inArray = true ∧ r.goto .valueBegin = r') := by
  have harr := inArray_nonempty (r := r)
  unfold endValue
  split_ifs <;> simp_all

/-- A brace ends an object; where a key has to come, only an empty one. -/
theorem endValue_closeObject : r.endValue '}'.toNat = .ok r' ↔ r.inObject = true ∧
    (r.state = .objectKeyBegin → r.containerJustBegun = true) ∧ r.closed = r' := by
  have hobj := inObject_nonempty (r := r)
  rw [endValue, if_neg (by decide)]
  simp only [closed_eq]
  split_ifs <;> simp_all

/-- A bracket ends an array; where a value has to come, only an empty one. -/
theorem endValue_closeArray : r.endValue ']'.toNat = .ok r' ↔ r.inArray = true ∧
    (r.state = .valueBegin → r.containerJustBegun = true) ∧ r.closed = r' := by
  have harr := inArray_nonempty (r := r)
  rw [endValue, if_neg (by decide)]
  simp only [closed_eq]
  split_ifs <;> simp_all

/-- A terminator is part of a string, ends a number, or comes after a value. -/
theorem readTerminator_ok : r.readTerminator c = .ok r' ↔
    inString r.state = true ∧ r.unicodeHighSurrogate = 0 ∧ r.stringAddChar c = some r' ∨
      numberDone r.state = true ∧ r.stack.isEmpty = false ∧ (c = '}'.toNat → r.inObject = true) ∧
        (c = ']'.toNat → r.inArray = true) ∧ (r.setNumber.goto .valueEnd).endValue c = .ok r' ∨
      (r.state = .valueEnd ∨ r.state = .objectKeyBegin ∨ r.state = .valueBegin) ∧
        r.endValue c = .ok r' := by
  unfold readTerminator
  cases r.state <;> simp [inString, numberDone]
  all_goals split_ifs <;> simp_all [addChar_ok]

/-! ## What `read` does is a transition -/

theorem flagged_of_other (hc : IsOther c) : r.flagged c = r.unbegun :=
  if_pos hc

theorem flagged_of_terminator (hc : IsTerminator c) : r.flagged c = r :=
  if_neg fun h => h.2.1 hc

theorem setNumber_goto (h : Fresh r.key r.stack) :
    r.setNumber.goto .valueEnd = r.numbered := by
  rw [setNumber, setValue_eq h, numbered]

/-- No error was reported, so the key is new. -/
theorem fresh_of_clean_goto {f : Json → Json}
    (h : ((r.setValue f).goto state).Clean) : Fresh r.key r.stack :=
  (clean_setValue (f := f) h).1

theorem Transition.of_readSpace (hc : IsSpace c)
    (h : r.readSpace c = .ok r') (hclean : r'.Clean) : Transition r c r' := by
  rcases readSpace_ok.1 h with ⟨hs, rfl⟩ | ⟨hs, rfl, hhigh, hadd⟩ | ⟨hd, rfl⟩
  · exact .space hc hs
  · exact .char hs hhigh (by decide) (by decide) (by decide) hadd
  · have hf := fresh_of_clean_goto hclean
    rw [setNumber_goto hf]
    exact .numberEnd (.inl hc) hd hf (.space hc rfl)

theorem clean_endValue (h : r.endValue c = .ok r') (hc : r'.Clean) :
    r.Clean := by
  unfold endValue at h
  split_ifs at h <;> cases h
  · exact hc
  · exact hc
  · rw [closed_eq] at hc
    exact hc

/-- What a terminator does between values. -/
theorem Transition.of_endValue (hc : IsTerminator c)
    (hs : r.state = .valueEnd ∨ r.state = .objectKeyBegin ∨ r.state = .valueBegin)
    (h : r.endValue c = .ok r') : Transition r c r' := by
  rcases hc with rfl | rfl | rfl
  · obtain ⟨hs, ⟨hin, rfl⟩ | ⟨hin, rfl⟩⟩ := endValue_comma.1 h
    · exact .commaObject hs hin
    · exact .commaArray hs hin
  · obtain ⟨hin, hb, rfl⟩ := endValue_closeObject.1 h
    exact .closeObject hin (by tauto)
  · obtain ⟨hin, hb, rfl⟩ := endValue_closeArray.1 h
    exact .closeArray hin (by tauto)

theorem Transition.of_readTerminator (hc : IsTerminator c)
    (h : r.readTerminator c = .ok r') (hclean : r'.Clean) : Transition r c r' := by
  rcases readTerminator_ok.1 h with ⟨hs, hhigh, hadd⟩ | ⟨hd, -, -, -, h⟩ | ⟨hs, h⟩
  · rw [← flagged_of_terminator (r := r) hc] at hadd
    refine .char hs hhigh ?_ ?_ ?_ hadd <;> rcases hc with rfl | rfl | rfl <;> decide
  · have hf := fresh_of_clean_goto (clean_endValue h hclean)
    rw [setNumber_goto hf] at h
    exact .numberEnd (.inr hc) hd hf (.of_endValue hc (.inl rfl) h)
  · exact .of_endValue hc hs h

/-- The state does not matter for the bytes that are added. -/
theorem stringAddChar_goto :
    (r.goto state).stringAddChar c = (r.stringAddChar c).map (·.goto state) := by
  simp only [stringAddChar, apply_ite (Option.map _), map_some, map_none]
  rfl

theorem stringState_of_add (h : r.stringAddChar c = some r') :
    r'.stringState = r.stringState := by
  unfold stringAddChar at h
  split_ifs at h <;> cases h <;> rfl

theorem Transition.of_readBackslash (h : r.readBackslash = .ok r') :
    Transition r '\\'.toNat r' := by
  unfold readBackslash at h
  split at h
  case h_1 | h_2 =>
    rename_i hs
    cases h
    have := Transition.backslash (r := r) (by rw [hs]; rfl)
    simpa [hs] using this
  case h_3 =>
    rename_i hs
    split_ifs at h with hhigh
    cases hadd : r.addChar '\\'.toNat with
    | error => rw [hadd] at h; cases h
    | ok r₁ =>
      rw [hadd] at h
      cases h
      have hadd := addChar_ok.1 hadd
      refine .escape hs (not_not.1 hhigh) (b := '\\'.toNat) rfl ?_
      show (r.goto r.stringState).stringAddChar _ = _
      rw [stringAddChar_goto, hadd, stringState_of_add hadd]
      rfl
  case h_4 => cases h

/-- A byte of a string that has no case of its own, a quote apart. -/
theorem Transition.of_readString
    (hs : inString r.state = true) (hc : IsOther c) (h : r.unbegun.readString c close = .ok r') :
    Transition r c r' ∨ (c = '"'.toNat ∧ r.unicodeHighSurrogate = 0 ∧ r.utf8BytesRemaining = 0 ∧
      r' = close r.unbegun) := by
  obtain ⟨hhigh, ⟨hquote, hrem, rfl⟩ | ⟨hquote, hlow, hadd⟩⟩ := readString_ok.1 h
  · exact .inr ⟨hquote, hhigh, hrem, rfl⟩
  · exact .inl (.char hs hhigh hlow hquote hc.2.2 (flagged_of_other hc ▸ hadd))

theorem Transition.of_readEscape (hs : r.state = .stringEscape)
    (hc : IsOther c) (h : r.unbegun.readEscape c = .ok r') : Transition r c r' := by
  obtain ⟨rfl, rfl⟩ | ⟨hhigh, b, hb, hadd⟩ := readEscape_ok.1 h
  · exact .escapeU hs
  · refine .escape hs hhigh (by rw [escapedByte, if_neg hc.2.2, hb]) ?_
    rw [flagged_of_other hc]
    exact hadd

/-- The first byte of a value. -/
theorem Transition.of_beginValue (hs : r.state = .valueBegin)
    (h : r.unbegun.beginValue c = .ok r') (hclean : r'.Clean) : Transition r c r' := by
  unfold beginValue at h
  split_ifs at h with ht hf hn hq h0 hd ho ha
  · cases h
    exact .literalFirst hs (by simp [JsonReader.literalFirst, ht])
  · cases h
    exact .literalFirst hs (by simp [JsonReader.literalFirst, hf])
  · cases h
    exact .literalFirst hs (by simp [JsonReader.literalFirst, hn])
  · cases h
    rw [hq]
    exact .openString hs
  · obtain ⟨r₁, hadd, rfl⟩ := addChar_bind_ok.1 h
    exact .number (by simp [hs, numberNext, h0]) hadd
  · obtain ⟨r₁, hadd, rfl⟩ := addChar_bind_ok.1 h
    refine .number ?_ hadd
    rw [hs, numberNext, if_neg h0, if_pos hd]
  · cases hstart : startContainer { r.unbegun with containerJustBegun := true } (.object []) with
    | error => rw [hstart] at h; cases h
    | ok r₁ =>
      rw [hstart] at h
      cases h
      obtain ⟨hlen, hfresh, rfl, -⟩ := startContainer_ok hstart hclean
      rw [ho]
      exact .openObject hs hlen hfresh
  · obtain ⟨hlen, hfresh, rfl, -⟩ := startContainer_ok h hclean
    rw [ha]
    exact .openArray hs hlen hfresh

/-- A byte of the `default` case, by the state. -/
theorem Transition.of_readOther (hc : IsOther c)
    (h : r.readOther c = .ok r') (hclean : r'.Clean) : Transition r c r' := by
  unfold readOther readInState at h
  split at h <;> rename_i hs <;> change r.state = _ at hs
  case h_1 =>
    obtain ⟨rfl, rfl⟩ := expect_ok.1 h
    exact .openKey hs
  case h_2 =>
    rcases of_readString (by rw [hs]; rfl) hc h with h | ⟨rfl, hhigh, hrem, rfl⟩
    · exact h
    · exact .closeKey hs hhigh hrem
  case h_3 =>
    rcases of_readString (by rw [hs]; rfl) hc h with h | ⟨rfl, hhigh, hrem, rfl⟩
    · exact h
    · have hf : Fresh r.unbegun.key r.unbegun.stack := fresh_of_clean_goto hclean
      rw [setString, setValue_eq hf]
      exact .closeString hs hhigh hrem hf
  case h_4 =>
    obtain ⟨rfl, rfl⟩ := expect_ok.1 h
    exact .colon hs
  case h_5 => exact of_beginValue hs h hclean
  case h_6 => exact of_readEscape hs hc h
  case h_7 | h_8 | h_9 =>
    obtain ⟨d, hd, h⟩ := readHex_ok.1 h
    cases h
    exact .hex (by rw [hs]; rfl) hd
  case h_10 =>
    obtain ⟨d, hd, h⟩ := readHex_ok.1 h
    exact .hexEnd hs hd h
  case h_11 | h_12 | h_14 | h_15 | h_16 =>
    obtain ⟨state, r₁, hnext, hadd, rfl⟩ := readNumber_ok.1 h
    exact .number (by rw [hs]; exact hnext) hadd
  case h_13 =>
    split_ifs at h with hdot
    obtain ⟨state, r₁, hnext, hadd, rfl⟩ := readNumber_ok.1 h
    exact .number (by rw [hs, numberNext, if_neg hdot]; exact hnext) hadd
  case h_17 | h_18 | h_20 | h_21 | h_22 | h_24 | h_25 =>
    obtain ⟨rfl, rfl⟩ := expect_ok.1 h
    exact .literal (by rw [hs]; rfl)
  case h_19 =>
    obtain ⟨rfl, rfl⟩ := expect_ok.1 h
    have hf : Fresh r.unbegun.key r.unbegun.stack := fresh_of_clean_goto hclean
    rw [setTrue, setValue_eq hf]
    exact .literalTrue hs hf
  case h_23 =>
    obtain ⟨rfl, rfl⟩ := expect_ok.1 h
    have hf : Fresh r.unbegun.key r.unbegun.stack := fresh_of_clean_goto hclean
    rw [setFalse, setValue_eq hf]
    exact .literalFalse hs hf
  case h_26 =>
    obtain ⟨rfl, rfl⟩ := expect_ok.1 h
    exact .literalNull hs (clean_setNull (r := r.unbegun) hclean).1
  case h_27 | h_28 => cases h

/-- A byte that is read without an error is a transition. -/
theorem Transition.of_read (h : r.read c = .ok r') (hclean : r'.Clean) : Transition r c r' := by
  unfold JsonReader.read at h
  split_ifs at h with hspace hterm hback
  · exact of_readSpace hspace h hclean
  · exact of_readTerminator hterm h hclean
  · rw [hback]
    exact of_readBackslash h
  · exact of_readOther ⟨hspace, hterm, hback⟩ h hclean

/-! ## Every transition is what `read` does -/

theorem read_of_space (h : IsSpace c) : r.read c = r.readSpace c :=
  if_pos h

theorem read_of_terminator (h : IsTerminator c) :
    r.read c = r.readTerminator c := by
  have hspace : ¬ IsSpace c := by
    rcases h with rfl | rfl | rfl <;> decide
  exact (if_neg hspace).trans (if_pos h)

theorem read_of_other (h : IsOther c) :
    r.read c = r.unbegun.readInState c :=
  (if_neg h.1).trans ((if_neg h.2.1).trans (if_neg h.2.2))

/-- A byte of the `default` case is read in a known state. -/
theorem read_in (hs : r.state = state) (h : IsOther c) :
    r.read c = { r.unbegun with state := state }.readInState c := by
  rw [read_of_other h, ← hs]
  rfl

/-- No byte of a number has a case of its own. -/
theorem isOther_of_numberNext {state' : State}
    (h : numberNext state c = some state') : IsOther c := by
  have hc : isDigit c = true ∨ c = '-'.toNat ∨ c = '+'.toNat ∨ c = '.'.toNat ∨ c = 'e'.toNat ∨
      c = 'E'.toNat := by
    unfold numberNext at h
    have h0 : c = '0'.toNat → isDigit c = true := by
      rintro rfl
      rfl
    split at h <;> grind
  rcases hc with hc | rfl | rfl | rfl | rfl | rfl
  · simp only [isDigit, Bool.and_eq_true, decide_eq_true_eq] at hc
    simp only [IsOther, IsSpace, IsTerminator, Char.reduceToNat] at hc ⊢
    omega
  all_goals decide

theorem isOther_of_hexValue (h : hexValue c = some d) : IsOther c := by
  unfold hexValue at h
  simp only [IsOther, IsSpace, IsTerminator, Char.reduceToNat] at h ⊢
  split_ifs at h <;> omega

/-- A terminator is taken in a container of its kind. -/
theorem endValue_in (hc : IsTerminator c) (h : r.endValue c = .ok r') :
    (r.inObject = true ∨ r.inArray = true) ∧ (c = '}'.toNat → r.inObject = true) ∧
      (c = ']'.toNat → r.inArray = true) := by
  rcases hc with rfl | rfl | rfl
  · obtain ⟨-, ⟨hin, -⟩ | ⟨hin, -⟩⟩ := endValue_comma.1 h <;> simp [hin]
  · simp [(endValue_closeObject.1 h).1]
  · simp [(endValue_closeArray.1 h).1]

/-- A value that is added leaves the kind of the container. -/
theorem put_inObject (r : JsonReader) (key : Octets) (v : Json) :
    (r.withTree (put key v r.tree)).inObject = r.inObject ∧
      (r.withTree (put key v r.tree)).inArray = r.inArray := by
  unfold inObject inArray withTree tree
  obtain _ | ⟨⟨k, o | l⟩, stack⟩ := r.stack <;> simp [put]

/-- A terminator ends a number and then does what it does after a value. -/
theorem readTerminator_number (hc : IsTerminator c) (hd : numberDone r.state = true)
    (hf : Fresh r.key r.stack) (h : r.numbered.endValue c = .ok r') :
    r.readTerminator c = .ok r' := by
  obtain ⟨hobj, harr⟩ := put_inObject r r.key (.number r.string)
  obtain ⟨hin, hobj', harr'⟩ := endValue_in hc h
  change r.numbered.inObject = _ at hobj
  change r.numbered.inArray = _ at harr
  rw [hobj] at hin hobj'
  rw [harr] at hin harr'
  have hempty := hin.elim (fun h => (inObject_nonempty h).1) fun h => (inArray_nonempty h).1
  rw [← setNumber_goto hf] at h
  exact readTerminator_ok.2 (.inr (.inl ⟨hd, hempty, hobj', harr', h⟩))

/-- A byte of a string is added, in whichever case of the switch it is. -/
theorem Transition.read_char (hs : inString r.state = true)
    (hhigh : r.unicodeHighSurrogate = 0) (hlow : 32 ≤ c) (hquote : c ≠ '"'.toNat)
    (hback : c ≠ '\\'.toNat) (hadd : (r.flagged c).stringAddChar c = some r') :
    r.read c = .ok r' := by
  by_cases hc : IsOther c
  · have hs' : r.state = .objectKeyString ∨ r.state = .valueString := by
      unfold inString at hs
      split at hs <;> simp_all
    rw [flagged_of_other hc] at hadd
    rw [read_of_other hc, readInState]
    rcases hs' with hs | hs <;> rw [show r.unbegun.state = _ from hs] <;>
      exact readString_ok.2 ⟨hhigh, .inr ⟨hquote, hlow, hadd⟩⟩
  · rw [flagged, if_neg hc] at hadd
    by_cases hterm : IsTerminator c
    · rw [read_of_terminator hterm]
      exact readTerminator_ok.2 (.inl ⟨hs, hhigh, hadd⟩)
    · have hspace : IsSpace c := by
        by_contra hspace
        exact hc ⟨hspace, hterm, hback⟩
      have hsp : c = ' '.toNat := by
        simp only [IsSpace, Char.reduceToNat] at hspace ⊢
        omega
      rw [read_of_space hspace]
      exact readSpace_ok.2 (.inr (.inl ⟨hs, hsp, hhigh, hadd⟩))

/-- The same for the byte after a backslash. -/
theorem Transition.read_escape {b : Nat} (hs : r.state = .stringEscape)
    (hhigh : r.unicodeHighSurrogate = 0) (hb : escapedByte c = some b)
    (hadd : ((r.flagged c).goto r.stringState).stringAddChar b = some r') : r.read c = .ok r' := by
  unfold escapedByte at hb
  split_ifs at hb with hback
  · cases hb
    subst hback
    rw [show r.flagged '\\'.toNat = r from rfl, stringAddChar_goto] at hadd
    obtain ⟨r₁, hadd', rfl⟩ := map_eq_some_iff.1 hadd
    show r.readBackslash = _
    rw [readBackslash, hs]
    simp only
    rw [if_neg (not_not.2 hhigh), addChar_ok.2 hadd', ← stringState_of_add hadd']
    rfl
  · have hc : IsOther c := by
      unfold escaped at hb
      simp only [IsOther, IsSpace, IsTerminator, Char.reduceToNat] at hb ⊢
      split_ifs at hb <;> omega
    rw [flagged_of_other hc] at hadd
    rw [read_of_other hc, readInState, show r.unbegun.state = _ from hs]
    exact readEscape_ok.2 (.inr ⟨hhigh, b, hb, hadd⟩)

/-- The first byte of a number. -/
theorem beginValue_number
    (hnext : numberNext .valueBegin c = some state) (hadd : r.stringAddChar c = some r') :
    r.beginValue c = .ok (r'.goto state) := by
  rw [numberNext] at hnext
  have hc : c = 45 ∨ (48 ≤ c ∧ c ≤ 57) := by
    simp only [isDigit, Char.reduceToNat, Bool.and_eq_true, decide_eq_true_eq] at hnext
    split_ifs at hnext <;> omega
  rw [beginValue]
  simp only [Char.reduceToNat] at hnext ⊢
  rw [if_neg (by omega), if_neg (by omega), if_neg (by omega), if_neg (by omega),
    addChar_ok.2 hadd]
  split_ifs at hnext ⊢ <;> cases hnext <;> rfl

theorem Transition.read_number
    (hnext : numberNext r.state c = some state) (hadd : r.unbegun.stringAddChar c = some r') :
    r.read c = .ok (r'.goto state) := by
  rw [read_of_other (isOther_of_numberNext hnext), readInState]
  split <;> rename_i hs <;> rw [show r.state = _ from hs] at hnext
  case h_5 => exact beginValue_number hnext hadd
  case h_11 | h_12 | h_14 | h_15 | h_16 =>
    rw [numberNext] at hnext
    exact readNumber_ok.2 ⟨_, _, hnext, hadd, rfl⟩
  case h_13 =>
    rw [numberNext] at hnext
    split_ifs at hnext ⊢
    exact readNumber_ok.2 ⟨_, _, hnext, hadd, rfl⟩
  all_goals cases hnext

/-- Every transition is what `read` does. -/
theorem Transition.read (h : Transition r c r') :
    r.read c = .ok r' := by
  induction h with
  | @space r c hc hs =>
    rw [read_of_space hc]
    exact readSpace_ok.2 (.inl ⟨hs, rfl⟩)
  | char hs hhigh hlow hquote hback hadd => exact read_char hs hhigh hlow hquote hback hadd
  | @numberEnd r r' c hc hd hf _ ih =>
    rcases hc with hc | hc
    · rw [read_of_space hc] at ih ⊢
      rw [← ih, ← setNumber_goto hf]
      exact readSpace_ok.2 (.inr (.inr ⟨hd, rfl⟩))
    · rw [read_of_terminator hc] at ih ⊢
      exact readTerminator_number hc hd hf ih
  | commaObject hs hin =>
    rw [read_of_terminator (.inl rfl)]
    exact readTerminator_ok.2 (.inr (.inr ⟨.inl hs, endValue_comma.2 ⟨hs, .inl ⟨hin, rfl⟩⟩⟩))
  | commaArray hs hin =>
    rw [read_of_terminator (.inl rfl)]
    exact readTerminator_ok.2 (.inr (.inr ⟨.inl hs, endValue_comma.2 ⟨hs, .inr ⟨hin, rfl⟩⟩⟩))
  | closeObject hin hs =>
    rw [read_of_terminator (.inr (.inl rfl))]
    have hb := endValue_closeObject.2 ⟨hin, fun hs' => by simpa [hs'] using hs, rfl⟩
    exact readTerminator_ok.2 (.inr (.inr ⟨by tauto, hb⟩))
  | closeArray hin hs =>
    rw [read_of_terminator (.inr (.inr rfl))]
    have hb := endValue_closeArray.2 ⟨hin, fun hs' => by simpa [hs'] using hs, rfl⟩
    exact readTerminator_ok.2 (.inr (.inr ⟨by tauto, hb⟩))
  | @backslash r hs =>
    show r.readBackslash = _
    unfold readBackslash
    split <;> simp_all [inString]
  | escape hs hhigh hb hadd => exact read_escape hs hhigh hb hadd
  | escapeU hs =>
    rw [read_in hs (by decide)]
    exact readEscape_ok.2 (.inl ⟨rfl, rfl⟩)
  | @hex r c d state hs hd =>
    rw [read_of_other (isOther_of_hexValue hd), readInState]
    split <;> rename_i hs' <;> rw [show r.state = _ from hs'] at hs <;> cases hs <;>
      exact readHex_ok.2 ⟨d, hd, rfl⟩
  | @hexEnd r r' c d hs hd hend =>
    rw [read_of_other (isOther_of_hexValue hd), readInState, show r.unbegun.state = _ from hs]
    exact readHex_ok.2 ⟨d, hd, hend⟩
  | openKey hs =>
    rw [read_in hs (by decide)]
    exact expect_ok.2 ⟨rfl, rfl⟩
  | openString hs =>
    rw [read_in hs (by decide)]
    rfl
  | @closeKey r hs hhigh hrem =>
    rw [read_of_other (by decide), readInState, show r.unbegun.state = _ from hs]
    exact (readString_ok (r := r.unbegun)).2 ⟨hhigh, .inl ⟨rfl, hrem, rfl⟩⟩
  | @closeString r hs hhigh hrem hf =>
    rw [read_of_other (by decide), readInState, show r.unbegun.state = _ from hs]
    rw [← setValue_eq (r := r.unbegun) hf]
    exact (readString_ok (r := r.unbegun)).2 ⟨hhigh, .inl ⟨rfl, hrem, rfl⟩⟩
  | colon hs =>
    rw [read_in hs (by decide)]
    exact expect_ok.2 ⟨rfl, rfl⟩
  | number hnext hadd => exact read_number hnext hadd
  | @openObject r hs hlen hf =>
    rw [read_of_other (by decide), readInState, show r.unbegun.state = _ from hs]
    show (startContainer { r with containerJustBegun := true } (.object []) >>= _) = _
    rw [startContainer_eq (r := { r with containerJustBegun := true }) hlen hf]
    rfl
  | @openArray r hs hlen hf =>
    rw [read_of_other (by decide), readInState, show r.unbegun.state = _ from hs]
    exact startContainer_eq (r := { r with containerJustBegun := true }) hlen hf
  | @literalFirst r c state hs hc =>
    unfold JsonReader.literalFirst at hc
    split_ifs at hc with ht hf hn <;> subst c <;> cases hc <;>
      rw [read_in hs (by decide)] <;> rfl
  | @literal r c state hs =>
    cases hst : r.state <;> rw [hst] at hs <;> cases hs <;>
      rw [read_in hst (by decide)] <;> exact expect_ok.2 ⟨rfl, rfl⟩
  | @literalTrue r hs hf =>
    rw [read_of_other (by decide), readInState, show r.unbegun.state = _ from hs]
    rw [← setValue_eq (r := r.unbegun) hf]
    exact expect_ok.2 ⟨rfl, rfl⟩
  | @literalFalse r hs hf =>
    rw [read_of_other (by decide), readInState, show r.unbegun.state = _ from hs]
    rw [← setValue_eq (r := r.unbegun) hf]
    exact expect_ok.2 ⟨rfl, rfl⟩
  | @literalNull r hs hf =>
    rw [read_of_other (by decide), readInState, show r.unbegun.state = _ from hs]
    exact expect_ok.2 ⟨rfl, rfl⟩

end GrpcCore.JsonReader
