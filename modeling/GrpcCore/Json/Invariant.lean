import GrpcCore.Json.Transition

/-!
# The invariant of the reader

What the fields that a state does not use hold: no part of a character, no surrogate and no bytes
wait outside of strings, a key is read only in an object, and the root is still `null` while the
first value is read.
-/

namespace GrpcCore.JsonReader

open JsonText

/-! ## Hexadecimal escapes -/

variable {c d n : Nat} {r r' : JsonReader} {state : State}

theorem mask_surrogate (h : n < 0x10000) : n &&& 0xfc00 = n / 1024 * 1024 := by
  have hmod : (n &&& 0xfc00) % 2 ^ 10 = 0 := by
    rw [Nat.and_mod_two_pow]
    exact Nat.and_zero _
  have hdiv : (n &&& 0xfc00) / 2 ^ 10 = n / 1024 := by
    rw [Nat.and_div_two_pow]
    exact (Nat.and_two_pow_sub_one_eq_mod _ 6).trans (Nat.mod_eq_of_lt (by omega))
  omega

theorem mask_high (h : n < 0x10000) : n &&& 0xfc00 = 0xd800 ↔ IsHigh n := by
  rw [mask_surrogate h, IsHigh]
  omega

theorem mask_low (h : n < 0x10000) : n &&& 0xfc00 = 0xdc00 ↔ IsLow n := by
  rw [mask_surrogate h, IsLow]
  omega

theorem hexValue_lt (h : hexValue c = some d) : d < 16 := by
  unfold hexValue at h
  simp only [Char.reduceToNat] at h
  split_ifs at h <;> cases h <;> omega

theorem shift_lt (h : d < 16) : (r.shift d).unicodeChar < 0x10000 :=
  Nat.or_lt_two_pow (n := 16) (Nat.mod_lt _ (by decide)) (by omega)

theorem isScalar_surrogatePair {high low : Nat} (hh : IsHigh high) (hl : IsLow low) :
    Utf8.IsScalar (surrogatePair high low) := by
  unfold IsHigh at hh
  unfold IsLow at hl
  unfold Utf8.IsScalar surrogatePair
  omega

theorem stringAddUtf32_some (hn : Utf8.IsScalar n) (h : r.stringAddUtf32 n = some r') :
    r.utf8BytesRemaining = 0 ∧ ∃ f, r' = r.pushBytes (Utf8.encode n) f := by
  have hrem : r.utf8BytesRemaining = 0 := by
    by_contra hne
    rw [stringAddUtf32_none hne] at h
    cases h
  obtain ⟨f, hf⟩ := stringAddUtf32_eq hrem hn
  rw [hf] at h
  exact ⟨hrem, f, (Option.some.inj h).symm⟩

/-- The end of an escape: a high surrogate waits, a low one completes a pair, and anything else is a
character. -/
inductive UnicodeEnd : JsonReader → JsonReader → Prop
  | high {r : JsonReader} : IsHigh r.unicodeChar → r.unicodeHighSurrogate = 0 →
      UnicodeEnd r { r with unicodeHighSurrogate := r.unicodeChar, state := r.stringState }
  | pair {r : JsonReader} {f : Nat} : IsLow r.unicodeChar → r.unicodeHighSurrogate ≠ 0 →
      r.utf8BytesRemaining = 0 →
      UnicodeEnd r
        { r.pushBytes (Utf8.encode (surrogatePair r.unicodeHighSurrogate r.unicodeChar)) f with
          unicodeHighSurrogate := 0, state := r.stringState }
  | scalar {r : JsonReader} {f : Nat} : ¬ IsHigh r.unicodeChar → ¬ IsLow r.unicodeChar →
      r.unicodeHighSurrogate = 0 → r.utf8BytesRemaining = 0 →
      UnicodeEnd r ((r.pushBytes (Utf8.encode r.unicodeChar) f).goto r.stringState)

theorem UnicodeEnd.frame (h : UnicodeEnd r r') :
    r'.state = r.stringState ∧ r'.tree = r.tree ∧ r'.key = r.key ∧ (r'.Clean → r.Clean) := by
  cases h <;> exact ⟨rfl, rfl, rfl, id⟩

theorem isScalar_of_not_surrogate (hlt : n < 0x10000) (hh : ¬ IsHigh n) (hl : ¬ IsLow n) :
    Utf8.IsScalar n := by
  unfold IsHigh at hh
  unfold IsLow at hl
  unfold Utf8.IsScalar
  omega

theorem bind_ok {x : Except JsonReader JsonReader} {f : JsonReader → Except JsonReader JsonReader}
    (h : x >>= f = .ok r) : ∃ r₁, x = .ok r₁ ∧ f r₁ = .ok r := by
  cases x with
  | error => cases h
  | ok r₁ => exact ⟨r₁, rfl, h⟩

theorem UnicodeEnd.of_ok (hlt : r.unicodeChar < 0x10000)
    (hhigh : r.unicodeHighSurrogate = 0 ∨ IsHigh r.unicodeHighSurrogate)
    (h : r.endUnicode = .ok r') : UnicodeEnd r r' := by
  unfold endUnicode at h
  obtain ⟨r₁, hu, hr'⟩ := bind_ok h
  cases hr'
  unfold takeUnit at hu
  split_ifs at hu with hh h0 hl h0' h0''
  · cases hu
    exact .high ((mask_high hlt).1 hh) (not_not.1 h0)
  · obtain ⟨r₂, hadd, hr₁⟩ := bind_ok hu
    cases hr₁
    have hl := (mask_low hlt).1 hl
    obtain ⟨hrem, f, rfl⟩ := stringAddUtf32_some
      (isScalar_surrogatePair (hhigh.resolve_left h0') hl) (addUtf32_ok.1 hadd)
    exact .pair hl h0' hrem
  · have hh := mt (mask_high hlt).2 hh
    have hl := mt (mask_low hlt).2 hl
    obtain ⟨hrem, f, rfl⟩ := stringAddUtf32_some
      (isScalar_of_not_surrogate hlt hh hl) (addUtf32_ok.1 hu)
    exact .scalar hh hl (not_not.1 h0'') hrem

/-! ## The invariant -/

def inText : State → Bool
  | .objectKeyString | .valueString | .stringEscape | .stringEscapeU1 | .stringEscapeU2
  | .stringEscapeU3 | .stringEscapeU4 => true
  | _ => false

def inNumber : State → Bool
  | .valueNumber | .valueNumberWithDecimal | .valueNumberZero | .valueNumberDot | .valueNumberE
  | .valueNumberEpm => true
  | _ => false

def atKey (r : JsonReader) : Bool :=
  match r.state with
  | .objectKeyBegin | .objectKeyString | .objectKeyEnd => true
  | .stringEscape | .stringEscapeU1 | .stringEscapeU2 | .stringEscapeU3 | .stringEscapeU4 =>
    r.escapedStringWasKey
  | _ => false

def ended : State → Bool
  | .valueEnd | .stateEnd => true
  | _ => false

structure Inv (r : JsonReader) : Prop where
  depth : r.stack.length ≤ 255
  surrogate : r.unicodeHighSurrogate = 0 ∨ IsHigh r.unicodeHighSurrogate
  quiet : inText r.state = false → r.utf8BytesRemaining = 0 ∧ r.unicodeHighSurrogate = 0
  empty : inText r.state = false → inNumber r.state = false → r.string = []
  begun : inNumber r.state = true → r.containerJustBegun = false
  key : r.atKey = true → r.inObject = true
  root : ended r.state = false → r.stack = [] → r.rootValue = .jsonNull

theorem Inv.start : Inv {} where
  depth := by decide
  surrogate := .inl rfl
  quiet _ := ⟨rfl, rfl⟩
  empty _ _ := rfl
  begun := by decide
  key := by decide
  root _ _ := rfl

theorem Inv.of_ended (hs : ended r.state = true) (hdepth : r.stack.length ≤ 255)
    (hrem : r.utf8BytesRemaining = 0) (hhigh : r.unicodeHighSurrogate = 0) (hstr : r.string = []) :
    Inv r := by
  have hs' : r.state = .valueEnd ∨ r.state = .stateEnd := by
    unfold ended at hs
    split at hs <;> simp_all
  refine ⟨hdepth, .inl hhigh, fun _ => ⟨hrem, hhigh⟩, fun _ _ => hstr, ?_, ?_, ?_⟩
  · rcases hs' with hs | hs <;> simp [hs, inNumber]
  · rcases hs' with hs | hs <;> simp [hs, atKey]
  · simp [hs]

theorem length_close {t : Tree} : (close t).2.length = t.2.length - 1 := by
  obtain ⟨root, _ | ⟨⟨k, c⟩, stack⟩⟩ := t
  · rfl
  · simp [close]

theorem Inv.scalar {v : Json} (hdepth : r.stack.length ≤ 255)
    (hrem : r.utf8BytesRemaining = 0) (hhigh : r.unicodeHighSurrogate = 0) :
    Inv ((r.putScalar v).goto .valueEnd) :=
  .of_ended rfl (by simpa [putScalar, goto, withTree, tree] using hdepth) hrem hhigh rfl

theorem Inv.closed (h : Inv r) (hs : inText r.state = false)
    (hs' : inNumber r.state = false) : Inv r.closed := by
  refine .of_ended ?_ ?_ (h.quiet hs).1 (h.quiet hs).2 (h.empty hs hs')
  · simp only [JsonReader.closed, goto]
    split <;> rfl
  · show (close r.tree).2.length ≤ 255
    rw [length_close]
    exact Nat.le_trans (Nat.sub_le _ _) h.depth

/-- The string of a key or of a value, with some more bytes. The state is one inside of it. -/
theorem Inv.text (h : Inv r) (hs : inText r'.state = true)
    (hkey : r'.atKey = true → r.atKey = true) (hstack : r'.stack = r.stack)
    (hroot : r'.rootValue = r.rootValue) (hs' : ended r.state = false)
    (hhigh : r'.unicodeHighSurrogate = 0 ∨ IsHigh r'.unicodeHighSurrogate) : Inv r' := by
  have hnum : inNumber r'.state = false := by
    unfold inText at hs
    unfold inNumber
    split at hs <;> simp_all
  refine ⟨hstack ▸ h.depth, hhigh, fun hc => ?_, fun hc => ?_, fun hc => ?_, fun hc => ?_,
    fun _ hc => ?_⟩
  · rw [hs] at hc
    cases hc
  · rw [hs] at hc
    cases hc
  · rw [hnum] at hc
    cases hc
  · have := h.key (hkey hc)
    rw [inObject] at this ⊢
    rwa [hstack]
  · rw [hroot]
    exact h.root hs' (hstack ▸ hc)

theorem Inv.between {begun : Bool} (h : Inv r)
    (ht : inText r.state = false) (hn : inNumber r.state = false) (hn' : inNumber state = false)
    (hkey : atKey { r with state := state } = true → r.inObject = true)
    (hended : ended r.state = false ∨ r.stack ≠ [] ∨ ended state = true) :
    Inv { r with state := state, containerJustBegun := begun } :=
  ⟨h.depth, .inl (h.quiet ht).2, fun _ => h.quiet ht, fun _ _ => h.empty ht hn,
    fun hc => absurd (hn'.symm.trans hc) (by decide), hkey, fun hc hs => by
      rcases hended with hended | hended | hended
      · exact h.root hended hs
      · exact absurd hs hended
      · exact absurd (hended.symm.trans hc) (by decide)⟩

theorem exists_pushByte (h : r.stringAddChar c = some r') :
    ∃ k f, r' = r.pushByte c k f := by
  unfold stringAddChar at h
  split_ifs at h <;> cases h <;> exact ⟨_, _, rfl⟩

theorem inText_stringState : inText r.stringState = true := by
  unfold stringState
  split <;> rfl

theorem atKey_stringState (hs : r'.state = r.stringState)
    (h : r'.atKey = true) : r.escapedStringWasKey = true := by
  by_contra hne
  simp [atKey, hs, stringState, hne] at h

theorem numberNext_states {state' : State} (h : numberNext state c = some state') :
    c < 0x80 ∧ inNumber state' = true ∧ inText state = false ∧ ended state = false := by
  have hdigit : isDigit c = true → c < 0x80 := by
    simp only [isDigit, Char.reduceToNat, Bool.and_eq_true, decide_eq_true_eq]
    omega
  unfold numberNext at h
  simp only [Char.reduceToNat] at h
  split at h
  case h_8 => cases h
  all_goals split_ifs at h <;> cases h <;> refine ⟨?_, rfl, rfl, rfl⟩ <;> grind

theorem Inv.number (h : Inv r)
    (hnext : numberNext r.state c = some state) (hadd : r.unbegun.stringAddChar c = some r') :
    Inv (r'.goto state) := by
  obtain ⟨hc, hn, ht, he⟩ := numberNext_states hnext
  obtain ⟨hrem, hhigh⟩ := h.quiet ht
  rw [stringAddChar_lead (r := r.unbegun) hrem (.inl ⟨rfl, hc⟩)] at hadd
  cases hadd
  have hstate : inText state = false ∧ (goto (r.unbegun.pushByte c 0 c) state).atKey = false := by
    unfold inNumber at hn
    unfold atKey
    split at hn <;> simp_all [inText, goto]
  refine ⟨h.depth, .inl hhigh, fun _ => ⟨rfl, hhigh⟩, fun _ hc => ?_, fun _ => rfl, fun hc => ?_,
    fun _ hs => h.root he hs⟩
  · exact absurd (hn.symm.trans hc) (by decide)
  · exact absurd (hstate.2.symm.trans hc) (by decide)

theorem flagged_eq :
    ∃ begun, r.flagged c = { r with containerJustBegun := begun } := by
  unfold flagged
  split
  · exact ⟨false, rfl⟩
  · exact ⟨r.containerJustBegun, rfl⟩

theorem atKey_of_escape (hs : inText r.state = true) (hs' : inString r.state = false)
    (h : r.escapedStringWasKey = true) : r.atKey = true := by
  unfold inText at hs
  unfold inString at hs'
  unfold atKey
  split at hs <;> simp_all

theorem Inv.unicodeEnd (h : Inv r) (hs : inText r.state = true)
    (hs' : inString r.state = false) (he : ended r.state = false) (hend : UnicodeEnd r r') :
    Inv r' := by
  have hkey {r' : JsonReader} (hst : r'.state = r.stringState) (hk : r'.atKey = true) :
      r.atKey = true := atKey_of_escape hs hs' (atKey_stringState hst hk)
  cases hend with
  | high hh _ => exact h.text inText_stringState (hkey rfl) rfl rfl he (.inr hh)
  | pair _ _ _ => exact h.text inText_stringState (hkey rfl) rfl rfl he (.inl rfl)
  | scalar _ _ hhigh _ => exact h.text inText_stringState (hkey rfl) rfl rfl he (.inl hhigh)

theorem Inv.step (h : Inv r) (ht : Transition r c r') : Inv r' := by
  induction ht with
  | space => exact h
  | @char r r' c hs hhigh _ _ _ hadd =>
    obtain ⟨begun, hb⟩ := flagged_eq (r := r) (c := c)
    rw [hb] at hadd
    obtain ⟨k, f, rfl⟩ := exists_pushByte hadd
    have hs' : inText r.state = true ∧ ended r.state = false := by
      unfold inString at hs
      split at hs <;> simp_all [inText, ended]
    exact h.text hs'.1 id rfl rfl hs'.2 (.inl hhigh)
  | @numberEnd r r' c _ hd _ _ ih =>
    have ht : inText r.state = false := by
      unfold numberDone at hd
      split at hd <;> simp_all [inText]
    exact ih (.scalar h.depth (h.quiet ht).1 (h.quiet ht).2)
  | @commaObject r hs hin =>
    exact h.between (by simp [hs, inText]) (by simp [hs, inNumber]) rfl (fun _ => hin)
      (.inr (.inl (by simpa using (inObject_nonempty hin).1)))
  | @commaArray r hs hin =>
    exact h.between (by simp [hs, inText]) (by simp [hs, inNumber]) rfl (fun hc => by cases hc)
      (.inr (.inl (by simpa using (inArray_nonempty hin).1)))
  | closeObject hin hs =>
    rcases hs with hs | hs | ⟨hs, -⟩ <;> exact h.closed (by simp [hs, inText])
      (by simp [hs, inNumber])
  | closeArray hin hs =>
    rcases hs with hs | hs | ⟨hs, -⟩ <;> exact h.closed (by simp [hs, inText])
      (by simp [hs, inNumber])
  | @backslash r hs =>
    have hs' : ended r.state = false := by
      unfold inString at hs
      split at hs <;> simp_all [ended]
    refine h.text rfl (fun hk => ?_) rfl rfl hs' h.surrogate
    have hk : r.state = .objectKeyString := by simpa [atKey] using hk
    simp [atKey, hk]
  | @escape r r' c b hs hhigh _ hadd =>
    obtain ⟨begun, hb⟩ := flagged_eq (r := r) (c := c)
    rw [hb] at hadd
    obtain ⟨k, f, rfl⟩ := exists_pushByte hadd
    refine h.text inText_stringState (fun hk => ?_) rfl rfl (by simp [hs, ended]) (.inl hhigh)
    exact atKey_of_escape (by simp [hs, inText]) (by simp [hs, inString]) (atKey_stringState rfl hk)
  | @escapeU r hs =>
    refine h.text rfl (fun hk => ?_) rfl rfl (by simp [hs, ended]) h.surrogate
    exact atKey_of_escape (by simp [hs, inText]) (by simp [hs, inString]) hk
  | @hex r c d state hs hd =>
    cases hst : r.state <;> rw [hst] at hs <;> cases hs <;>
      refine h.text rfl (fun hk => ?_) rfl rfl (by simp [hst, ended]) h.surrogate <;>
      exact atKey_of_escape (by simp [hst, inText]) (by simp [hst, inString]) hk
  | @hexEnd r r' c d hs hd hend =>
    have h' : Inv (r.unbegun.shift d) :=
      h.text (by simp [shift, unbegun, hs, inText]) id rfl rfl (by simp [hs, ended]) h.surrogate
    have hs' : (r.unbegun.shift d).state = .stringEscapeU4 := hs
    exact h'.unicodeEnd (by simp [hs', inText]) (by simp [hs', inString]) (by simp [hs', ended])
      (.of_ok (shift_lt (hexValue_lt hd)) h.surrogate hend)
  | @openKey r hs =>
    exact h.text rfl (fun _ => by simp [atKey, hs]) rfl rfl (by simp [hs, ended]) h.surrogate
  | @openString r hs =>
    exact h.text rfl (fun hk => by cases hk) rfl rfl (by simp [hs, ended]) h.surrogate
  | @closeKey r hs hhigh hrem =>
    refine ⟨h.depth, .inl hhigh, fun _ => ⟨hrem, hhigh⟩, fun _ _ => rfl, (fun hc => by cases hc),
      fun _ => h.key (by simp [atKey, hs]), fun _ => h.root (by simp [hs, ended])⟩
  | @closeString r hs hhigh hrem hf =>
    exact .scalar h.depth hrem hhigh
  | @colon r hs =>
    exact h.between (by simp [hs, inText]) (by simp [hs, inNumber]) rfl (fun hc => by cases hc)
      (.inl (by simp [hs, ended]))
  | number hnext hadd => exact h.number hnext hadd
  | @openObject r hs hlen hf =>
    have hq := h.quiet (by simp [hs, inText])
    exact ⟨Nat.succ_le_of_lt (Nat.lt_of_le_of_ne h.depth hlen), .inl hq.2, fun _ => hq,
      fun _ _ => h.empty (by simp [hs, inText]) (by simp [hs, inNumber]),
      (fun hc => by cases hc), fun _ => rfl, fun _ hc => by cases hc⟩
  | @openArray r hs hlen hf =>
    have hq := h.quiet (by simp [hs, inText])
    exact ⟨Nat.succ_le_of_lt (Nat.lt_of_le_of_ne h.depth hlen), .inl hq.2, fun _ => hq,
      fun _ _ => h.empty (by simp [hs, inText]) (by simp [hs, inNumber]),
      fun hc => by simp [push, hs, inNumber] at hc, fun hc => by simp [push, hs, atKey] at hc,
      fun _ hc => by cases hc⟩
  | @literalFirst r c state hs hc =>
    unfold JsonReader.literalFirst at hc
    split_ifs at hc <;> cases hc <;>
      exact h.between (by simp [hs, inText]) (by simp [hs, inNumber]) rfl (fun hc => by cases hc)
        (.inl (by simp [hs, ended]))
  | @literal r c state hs =>
    cases hst : r.state <;> rw [hst] at hs <;> cases hs <;>
      exact h.between (by simp [hst, inText]) (by simp [hst, inNumber]) rfl (fun hc => by cases hc)
        (.inl (by simp [hst, ended]))
  | @literalTrue r hs hf =>
    have hq := h.quiet (by simp [hs, inText])
    exact .scalar h.depth hq.1 hq.2
  | @literalFalse r hs hf =>
    have hq := h.quiet (by simp [hs, inText])
    exact .scalar h.depth hq.1 hq.2
  | @literalNull r hs hf =>
    have hq := h.quiet (by simp [hs, inText])
    rw [setNull_eq (r := r.unbegun) hf (h.root (by simp [hs, ended]))]
    exact .of_ended rfl (by simpa [goto, withTree, tree, unbegun] using h.depth) hq.1 hq.2
      (h.empty (by simp [hs, inText]) (by simp [hs, inNumber]))

end GrpcCore.JsonReader
