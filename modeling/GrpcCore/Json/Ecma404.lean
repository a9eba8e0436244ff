import GrpcCore.Json.Complete

/-!
# The reader and ECMA-404

`Run` calls its state machine "a strict implementation of ECMA-404". It is one on the texts that
`Dialect.reader` and `Dialect.ecma404` agree on, and on no others. The two differ in both
directions: the standard alone has exponents right after a `0` and lone surrogates, the reader alone
further numbers, a comma after an empty container, a member without a value, and texts that a zero
byte ends.
-/

namespace GrpcCore.JsonReader

open List JsonText

section
variable {s t w w' x k : Octets} {j j' : Json} {d : Dialect} {e : Bool} {n : Nat}

theorem text_unique (h : Text .reader s j) (h' : Text .ecma404 s j') : j' = j := by
  have hp := parse_iff.2 h
  rcases parse_complete covered_ecma404 h' with hp' | ⟨-, hno⟩
  · cases hp.symm.trans hp'
    rfl
  · exact absurd hp (hno j)

/-- `parse` decides and evaluates the texts of ECMA-404 exactly where the dialect of the reader has
the text if and only if the standard has it. -/
theorem parse_ecma404_iff (s : Octets) :
    (∀ j, parse s = .ok j ↔ Text .ecma404 s j) ↔
      ((∃ j, Text .reader s j) ↔ ∃ j, Text .ecma404 s j) := by
  constructor
  · intro h
    simp only [← parse_iff, h]
  · intro h j
    rw [parse_iff]
    constructor
    · intro hj
      obtain ⟨j', hj'⟩ := h.1 ⟨j, hj⟩
      rwa [← text_unique hj hj']
    · intro hj
      obtain ⟨j', hj'⟩ := h.2 ⟨j, hj⟩
      rwa [text_unique hj' hj]

/-! ## Where the dialects differ -/

/-- A text of the one dialect that is none of the other. -/
def OnlyIn (d d' : Dialect) (s : Octets) (j : Json) : Prop :=
  Text d s j ∧ ∀ j', ¬ Text d' s j'

theorem text_of_value (h : Value d 255 s j e) : Text d s j :=
  ⟨[], s, [], e, (append_nil s).symm, ws_nil, h, [], [], rfl, ws_nil, .inl rfl⟩

theorem onlyIn_ecma404 (h : Text .ecma404 s j) (hno : Reads True {} s fun _ => False) :
    OnlyIn .ecma404 .reader s j := by
  refine ⟨h, fun j' => ?_⟩
  obtain ⟨_, _, hf⟩ | ⟨-, hno⟩ := hno
  · exact hf.elim
  · rw [← parse_iff, ← append_nil s]
    exact parse_ne_ok (hno []) j'

theorem onlyIn_reader (h : Text .reader s j) (hno : ¬ Text .ecma404 s j) :
    OnlyIn .reader .ecma404 s j :=
  ⟨h, fun _ hj => hno (text_unique h hj ▸ hj)⟩

theorem onlyIn_zeroExponent (h : Exponent t) :
    OnlyIn .ecma404 .reader (ch '0' :: t) (.number (ch '0' :: t)) := by
  refine onlyIn_ecma404 (text_of_value (.number
    ⟨[], octets "0", [], t, rfl, .inl rfl, .inl rfl, .inl rfl, .inr h⟩)) ?_
  obtain ⟨l, sign, b, u, rfl, hl, -⟩ := h
  exact atValue_init.zeroExponent trivial hl

/-- An escaped surrogate that is not one of a pair. -/
theorem onlyIn_loneSurrogate (hx : hex4 x = some n) (hs : Chars true s t)
    (hn : IsLow n ∨ IsHigh n ∧ ¬ StartsLow s) :
    OnlyIn .ecma404 .reader (ch '"' :: (unicodeEscape x ++ s ++ [ch '"']))
      (.string (Utf8.encode n ++ t)) := by
  refine onlyIn_ecma404 (text_of_value (.string ?_)) (atValue_init.openString fun r hr => ?_)
  · rcases hn with hl | ⟨hh, hlow⟩
    · exact .loneLow rfl hx hl hs
    · exact .loneHigh rfl hx hh hlow hs
  · rw [append_assoc]
    rcases hn with hl | ⟨hh, hlow⟩
    · obtain ⟨⟨hst, -, -, -, -, hb⟩, -, hhigh⟩ := hr
      exact reads_unfit trivial (by rw [hst]; rfl) hb hx (.inl ⟨hhigh, hl⟩)
    · exact (hr.high rfl hx hh).append fun r hr => hr.refuse trivial rfl hh hs hlow

theorem onlyIn_number (h : ReaderNumber s) (hno : ¬ Number s) :
    OnlyIn .reader .ecma404 s (.number s) := by
  refine onlyIn_reader (text_of_value (.number h)) fun hj => ?_
  obtain ⟨_, _, _, _, _, _, hv, _⟩ := hj
  cases hv with
  | number hn => exact hno hn

/-- A sign that no digit follows is such a number. -/
theorem onlyIn_sign (h : t = [] ∨ Fraction t) :
    OnlyIn .reader .ecma404 (ch '-' :: t) (.number (ch '-' :: t)) := by
  refine onlyIn_number ⟨octets "-", t, [], (append_nil _).symm,
    .inr ⟨_, [], rfl, by decide, .inr rfl, forall_mem_nil _⟩, h, .inl rfl⟩ ?_
  rintro ⟨sign, int, frac, exp, hs, hsign, hint, -, -⟩
  obtain ⟨b, u, rfl, hb⟩ : ∃ b u, int = b :: u ∧ Digit b := by
    rcases hint with rfl | ⟨b, u, rfl, -, hd⟩
    · exact ⟨_, _, rfl, by decide⟩
    · exact ⟨b, u, rfl, hd b mem_cons_self⟩
  rcases hsign with rfl | rfl
  · cases (cons.inj hs).1
    exact absurd hb (by decide)
  · rcases h with rfl | ⟨c, u', rfl, -⟩
    · cases (cons.inj hs).2
    · cases (cons.inj (cons.inj hs).2).1
      exact absurd hb (by decide)

theorem text_split (h : Text .ecma404 s j) :
    ∃ w v w' e, s = w ++ v ++ w' ∧ Ws w ∧ Ws w' ∧ Value .ecma404 255 v j e := by
  obtain ⟨w, v, _, e, rfl, hw, hv, w', _, rfl, hw', rfl | ⟨h, -⟩⟩ := h
  · exact ⟨w, v, w', e, by rw [append_nil, append_assoc], hw, hw', hv⟩
  · cases h

theorem value_of_text {b : UInt8} (hb : b ∉ octets " \t\n\r") (h : Text .ecma404 s j)
    (hs : b ∈ s) : ∃ v e, Value .ecma404 255 v j e ∧ b ∈ v := by
  obtain ⟨w, v, w', e, rfl, hw, hw', hv⟩ := text_split h
  simp only [mem_append, mt (hw b) hb, mt (hw' b) hb, or_false, false_or] at hs
  exact ⟨v, e, hv, hs⟩

/-- A comma after the last element of an array, where it is an empty one. -/
theorem onlyIn_trailingComma (hw : Ws w) (hw' : Ws w') :
    OnlyIn .reader .ecma404 (ch '[' :: (octets "[]" ++ (w ++ ch ',' :: w' ++ [ch ']'])))
      (.array [.array []]) := by
  refine onlyIn_reader (text_of_value (.array (w := []) ws_nil (.emptyArray (w := []) ws_nil)
    (.trailing rfl hw hw'))) fun hj => ?_
  obtain ⟨v, e, hv, hmem⟩ := value_of_text (b := ch ',') (by decide) hj (by simp)
  have hno (w : Octets) (hw : Ws w) : ch ',' ∉ w := mt (hw _) (by decide)
  -- the standard writes this value with brackets and white space
  cases hv with
  | array hw hv hm =>
    cases hm with
    | trailing h _ _ => cases h
    | done hw' =>
      cases hv with
      | emptyArray hw'' =>
        have := hno _ hw
        have := hno _ hw'
        have := hno _ hw''
        simp_all [ch]

theorem ofMembers_ne_nil {m : List (Octets × Json)} (h : m ≠ []) : ofMembers m ≠ [] := by
  rw [ofMembers, ← dropLast_concat_getLast h, foldl_append, foldl_cons, foldl_nil]
  cases foldl _ _ m.dropLast with
  | nil => simp [Json.Object.insert]
  | cons p o =>
    rw [Json.Object.insert]
    split_ifs <;> simp

/-- A member without a value. -/
theorem onlyIn_missingValue {w₁ w₂ w₃ : Octets} (hw₁ : Ws w₁) (hw₂ : Ws w₂) (hw₃ : Ws w₃)
    (hs : Chars false s k) :
    OnlyIn .reader .ecma404
      (ch '{' :: (w₁ ++ ch '"' :: (s ++ ch '"' :: (w₂ ++ ch ':' :: w₃)) ++ [ch '}']))
      (.object []) := by
  refine onlyIn_reader (text_of_value (.object (m := []) (.missing rfl hw₁ hw₂ hw₃ hs) .nil))
    fun hj => ?_
  obtain ⟨v, e, hv, hmem⟩ := value_of_text (b := ch ':') (by decide) hj (by simp)
  generalize hj' : Json.object [] = j at hv
  cases hv with
  | emptyObject hw =>
    have hno : ch ':' ∉ _ := mt (hw _) (by decide)
    simp_all [ch]
  | object hm _ =>
    cases hm with
    | missing h => cases h
    | member => exact ofMembers_ne_nil (by simp) (Json.object.inj hj').symm
  | _ => cases hj'

theorem run_zero {r : JsonReader} : r.run (s ++ 0 :: t) = r.run (s ++ [0]) := by
  induction s generalizing r with
  | nil => rfl
  | cons b s ih =>
    simp only [cons_append, run]
    split
    · rfl
    · split
      · exact ih
      · rfl

/-- A letter behind a value is an error. -/
theorem Ended.run_letter {T : Tree} {r : JsonReader} (h : Ended T e r) (r' : JsonReader) :
    r.run [ch 'x'] ≠ .ok r' := by
  have hs : r.state = .valueEnd ∨ r.state = .stateEnd ∨ numberDone r.state = true := by
    rcases h with ⟨hs | ⟨hs, -⟩, -⟩ | ⟨hd, -⟩
    · exact .inl hs
    · exact .inr (.inl hs)
    · exact .inr (.inr hd)
  have hread : ∃ r', r.bump.read 'x'.toNat = .error r' := by
    rw [read_of_other (by decide), readInState]
    cases hst : r.state <;> simp [hst, numberDone] at hs <;>
      simp [show r.bump.unbegun.state = _ from hst, readNumber, isDigit]
    -- a number keeps the letter before it fails
    all_goals cases r.bump.unbegun.addChar 120 <;> exact ⟨_, rfl⟩
  obtain ⟨r'', hread⟩ := hread
  rw [run_cons (by decide), show (ch 'x').toNat = 'x'.toNat from rfl, hread]
  rintro ⟨⟩

/-- A text, a zero byte and anything. -/
theorem onlyIn_zero (h : Text .reader s j) : OnlyIn .reader .ecma404 (s ++ 0 :: t) j := by
  have hreader : Text .reader (s ++ 0 :: t) j := by
    obtain ⟨w, v, rest, e, rfl, hw, hv, w', z, rfl, hw', hz⟩ := h
    refine ⟨w, v, w' ++ (z ++ 0 :: t), e, by simp, hw, hv, w', z ++ 0 :: t, rfl, hw',
      .inr ⟨rfl, ?_⟩⟩
    rcases hz with rfl | ⟨-, u, rfl⟩
    · exact ⟨t, rfl⟩
    · exact ⟨u ++ 0 :: t, rfl⟩
  refine onlyIn_reader hreader fun hj => ?_
  obtain ⟨w, v, w', e, hs, hw, hw', hv⟩ := text_split hj
  have hreads := (reads_text covered_ecma404 hw hv).append fun r hr => hr.ws hw'
  rw [← hs] at hreads
  rcases hreads with ⟨r, hrun, hr⟩ | ⟨-, hno⟩
  · -- a letter at the end of the text would not be read
    have hx : r.run [ch 'x'] = r.run [] := by
      rw [← hrun, ← hrun, append_assoc, append_nil, cons_append, run_zero, run_zero (t := t)]
    obtain ⟨r', heof, -⟩ := hr.eof
    exact hr.run_letter r' (hx.trans heof)
  · have := parse_ne_ok (hno []) j
    rw [append_nil] at this
    exact this (parse_iff.2 hreader)

end

/-- `0e1` is a number of the standard, which the reader refuses. A single `-` is none, and the
reader takes it for a number. -/
theorem parse_differs_from_ecma404 :
    (Text .ecma404 (octets "0e1") (.number (octets "0e1")) ∧ ∀ v, parse (octets "0e1") ≠ .ok v) ∧
      parse (octets "-") = .ok (.number (octets "-")) ∧ ∀ j, ¬ Text .ecma404 (octets "-") j := by
  have hexp : Exponent (octets "e1") :=
    ⟨ch 'e', [], ch '1', [], rfl, by decide, .inl rfl, forall_mem_singleton.2 (by decide)⟩
  obtain ⟨htext, hno⟩ := onlyIn_zeroExponent hexp
  obtain ⟨hread, hno'⟩ := onlyIn_sign (.inl rfl)
  exact ⟨⟨htext, fun v hv => hno v (parse_iff.1 hv)⟩, parse_iff.2 hread, hno'⟩

end GrpcCore.JsonReader
