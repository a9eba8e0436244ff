import GrpcCore.Json.Demand

/-!
# What the reader reads is in the grammar

`parse_sound`: a text that `parse` takes is a text of `Dialect.reader`, and it denotes the value
that `parse` returns.
-/

namespace GrpcCore.JsonReader

open Option JsonText

/-- What a literal still needs, and the value that it is. -/
def literalRest : State → Option (Octets × Json)
  | .valueTrueR => some (octets "rue", .jsonTrue)
  | .valueTrueU => some (octets "ue", .jsonTrue)
  | .valueTrueE => some (octets "e", .jsonTrue)
  | .valueFalseA => some (octets "alse", .jsonFalse)
  | .valueFalseL => some (octets "lse", .jsonFalse)
  | .valueFalseS => some (octets "se", .jsonFalse)
  | .valueFalseE => some (octets "e", .jsonFalse)
  | .valueNullU => some (octets "ull", .jsonNull)
  | .valueNullL1 => some (octets "ll", .jsonNull)
  | .valueNullL2 => some (octets "l", .jsonNull)
  | _ => none

/-- The text after the quote that ends a string. -/
def TextEnds (r : JsonReader) (u s : Octets) (v : Json) : Prop :=
  if r.atKey then AfterKey r.tree u s v else ScalarEnds r.tree r.key (.string u) s v

/-- The text that leads from a reader to a value. -/
def Demand (r : JsonReader) (s : Octets) (v : Json) : Prop :=
  if inText r.state then
    ∃ t u s', s = t ++ ch '"' :: s' ∧ InString r t u ∧ TextEnds r (r.string ++ u) s' v
  else if inNumber r.state then
    ∃ t s', s = t ++ s' ∧ NumberRest r.state t ∧
      ScalarEnds r.tree r.key (.number (r.string ++ t)) s' v
  else
    match r.state with
    | .objectKeyBegin => KeyBegins r.tree r.containerJustBegun s v
    | .objectKeyEnd => AfterKey r.tree r.key s v
    | .valueBegin => Begins r.tree r.key r.containerJustBegun s v
    | .valueEnd | .stateEnd => Closes r.tree r.containerJustBegun s v
    | state =>
      ∃ x j s', literalRest state = some (x, j) ∧ s = x ++ s' ∧ ScalarEnds r.tree r.key j s' v

variable {r r' : JsonReader} {s x : Octets} {j v : Json} {b : UInt8} {c n : Nat} {state : State}

/-- Inside a string, the rest of it and its quote come first. -/
theorem demand_text (h : inText r.state = true) :
    Demand r s v ↔
      ∃ t u s', s = t ++ ch '"' :: s' ∧ InString r t u ∧ TextEnds r (r.string ++ u) s' v := by
  rw [Demand, if_pos h]

/-- Inside a number, the rest of it comes first. -/
theorem demand_number (h : inNumber r.state = true) :
    Demand r s v ↔ ∃ t s', s = t ++ s' ∧ NumberRest r.state t ∧
      ScalarEnds r.tree r.key (.number (r.string ++ t)) s' v := by
  have ht : ¬ inText r.state = true := by
    unfold inNumber at h
    split at h <;> simp_all [inText]
  rw [Demand, if_neg ht, if_pos h]

/-- Where a key begins. -/
theorem demand_keyBegin (h : r.state = .objectKeyBegin) :
    Demand r s v ↔ KeyBegins r.tree r.containerJustBegun s v := by
  simp [Demand, h, inText, inNumber]

/-- After a key. -/
theorem demand_keyEnd (h : r.state = .objectKeyEnd) :
    Demand r s v ↔ AfterKey r.tree r.key s v := by
  simp [Demand, h, inText, inNumber]

/-- Where a value begins. -/
theorem demand_begin (h : r.state = .valueBegin) :
    Demand r s v ↔ Begins r.tree r.key r.containerJustBegun s v := by
  simp [Demand, h, inText, inNumber]

/-- After a value. -/
theorem demand_ended (h : ended r.state = true) :
    Demand r s v ↔ Closes r.tree r.containerJustBegun s v := by
  unfold ended at h
  split at h <;> simp_all [Demand, inText, inNumber]

/-- Inside a literal, the rest of it comes first. -/
theorem demand_literal (h : literalRest r.state = some (x, j)) :
    Demand r s v ↔ ∃ s', s = x ++ s' ∧ ScalarEnds r.tree r.key j s' v := by
  unfold Demand
  cases hs : r.state <;> rw [hs] at h <;> cases h <;> simp [inText, inNumber, literalRest]

/-! ## One byte -/

/-- The byte of an ASCII character. -/
theorem byte_eq {c : Char} (h : b.toNat = c.toNat) : b = ch c := by
  rw [ch, ← h, UInt8.ofNat_toNat]

/-- The reader skips white space of the grammar only. -/
theorem ws_of_isSpace (h : IsSpace b.toNat) : Ws [b] := by
  have : IsSpace b.toNat → b ∈ octets " \t\n\r" :=
    forall_byte (P := fun b => IsSpace b.toNat → b ∈ octets " \t\n\r") (by decide +kernel) b
  simpa [Ws] using this h

/-- A byte inside a string. -/
theorem Demand.text (h : Demand r' s v)
    (hs : inText r.state = true) (hs' : inText r'.state = true) (hkey : r'.atKey = r.atKey)
    (htree : r'.tree = r.tree) (hk : r'.key = r.key)
    (hin : ∀ t u, InString r' t u →
      ∃ u', InString r (b :: t) u' ∧ r.string ++ u' = r'.string ++ u) : Demand r (b :: s) v := by
  obtain ⟨t, u, s', rfl, hstr, hends⟩ := (demand_text hs').1 h
  obtain ⟨u', hstr', heq⟩ := hin t u hstr
  refine (demand_text hs).2 ⟨b :: t, u', s', rfl, hstr', ?_⟩
  rw [TextEnds, hkey, htree, hk] at hends
  rwa [TextEnds, heq]

/-- After a bracket, the text of the closed container follows. -/
theorem Demand.closed (h : Demand r.closed s v) :
    Closes (close r.tree) r.containerJustBegun s v := by
  refine (demand_ended ?_).1 h
  simp only [JsonReader.closed, goto]
  split <;> rfl

theorem inObject_iff :
    r.inObject = true ↔ ∃ k o stack, r.stack = ⟨k, .object o⟩ :: stack := by
  unfold inObject
  split <;> simp_all

theorem inArray_iff :
    r.inArray = true ↔ ∃ k l stack, r.stack = ⟨k, .array l⟩ :: stack := by
  unfold inArray
  split <;> simp_all

/-- A brace that closes an object, after a value, a missing value or its opening brace. -/
theorem Demand.closeObject (hinv : Inv r) (hin : r.inObject = true)
    (hs : r.state = .valueEnd ∨ r.state = .valueBegin ∨
      (r.state = .objectKeyBegin ∧ r.containerJustBegun = true)) (h : Demand r.closed s v) :
    Demand r (ch '}' :: s) v := by
  obtain ⟨k, o, stack, hstack⟩ := inObject_iff.1 hin
  have hlen := hinv.depth
  have h := h.closed
  simp only [tree, hstack, close, Container.toJson] at h
  rw [hstack, List.length_cons] at hlen
  rcases hs with hs | hs | ⟨hs, hb⟩
  · rw [demand_ended (by rw [hs]; rfl), tree, hstack]
    exact h.closeObject hlen
  · rw [demand_begin hs, tree, hstack]
    exact .closeObject (w := []) ws_nil h
  · rw [demand_keyBegin hs, tree, hstack, hb]
    rw [hb] at h
    exact .close (w := []) ws_nil h

/-- A bracket that closes an array. -/
theorem Demand.closeArray (hinv : Inv r) (hin : r.inArray = true)
    (hs : r.state = .valueEnd ∨ r.state = .objectKeyBegin ∨
      (r.state = .valueBegin ∧ r.containerJustBegun = true)) (h : Demand r.closed s v) :
    Demand r (ch ']' :: s) v := by
  obtain ⟨k, l, stack, hstack⟩ := inArray_iff.1 hin
  have hlen := hinv.depth
  have h := h.closed
  simp only [tree, hstack, close, Container.toJson] at h
  rw [hstack, List.length_cons] at hlen
  rcases hs with hs | hs | ⟨hs, hb⟩
  · rw [demand_ended (by rw [hs]; rfl), tree, hstack]
    exact h.closeArray hlen
  · have hobj := hinv.key (by simp [atKey, hs])
    exact absurd ((inArray_nonempty hin).2.symm.trans hobj) (by decide)
  · rw [demand_begin hs, tree, hstack, hb]
    rw [hb] at h
    exact .closeArray (w := []) ws_nil h

/-- A value that is not a container. -/
theorem Begins.scalar {T : Tree} {key : Octets} {b : Bool}
    (hn : n + T.2.length = 255) (hv : Value .reader n x j false) (h : ScalarEnds T key j s v) :
    Begins T key b (x ++ s) v :=
  .value (w := []) hn ws_nil hv h.1 h.2

/-- Below the limit there is room for containers. -/
theorem Inv.exists_depth (h : Inv r) : ∃ n, n + r.tree.2.length = 255 :=
  ⟨255 - r.stack.length, Nat.sub_add_cancel h.depth⟩

/-- A byte of a number, its first one or another. -/
theorem Demand.number (hinv : Inv r) (hnext : numberNext r.state b.toNat = some state)
    (hadd : r.unbegun.stringAddChar b.toNat = some r') (h : Demand (r'.goto state) s v) :
    Demand r (b :: s) v := by
  obtain ⟨hc, hn, ht, -⟩ := numberNext_states hnext
  obtain ⟨k, f, rfl⟩ := exists_pushByte hadd
  obtain ⟨t, s', rfl, hrest, hends⟩ := (demand_number (r := goto _ state) hn).1 h
  have hrest' : NumberRest r.state (b :: t) := numberRest_cons.2 ⟨state, hnext, hrest⟩
  have hstr : ((r.unbegun.pushByte b.toNat k f).goto state).string ++ t = r.string ++ b :: t := by
    simp [goto, pushByte, unbegun]
  rw [hstr] at hends
  by_cases hbegin : r.state = .valueBegin
  · rw [hbegin] at hrest'
    rw [hinv.empty (by simp [hbegin, inText]) (by simp [hbegin, inNumber])] at hends
    obtain ⟨n, hlen⟩ := hinv.exists_depth
    rw [demand_begin hbegin]
    exact Begins.scalar hlen (.number (readerNumber_iff.2 hrest')) hends
  · have hin : inNumber r.state = true := by
      unfold numberNext at hnext
      split at hnext <;> simp_all [inNumber]
    exact (demand_number hin).2 ⟨b :: t, s', rfl, hrest', hends⟩

/-- The quote that begins a key. -/
theorem Demand.openKey (hinv : Inv r)
    (hs : r.state = .objectKeyBegin) (h : Demand (r.unbegun.goto .objectKeyString) s v) :
    Demand r (ch '"' :: s) v := by
  obtain ⟨k, o, stack, hstack⟩ := inObject_iff.1 (hinv.key (by simp [atKey, hs]))
  obtain ⟨hrem, hhigh⟩ := hinv.quiet (by simp [hs, inText])
  have hstr := hinv.empty (by simp [hs, inText]) (by simp [hs, inNumber])
  have hlen := hinv.depth
  rw [hstack, List.length_cons] at hlen
  obtain ⟨t, u, s', rfl, hin, hends⟩ := (demand_text rfl).1 h
  have hchars := (inString_clean (r := r.unbegun.goto .objectKeyString) rfl hhigh hrem).1 hin
  have hends : AfterKey r.tree (r.string ++ u) s' v := hends
  rw [demand_keyBegin hs, tree, hstack]
  rw [hstr, tree, hstack] at hends
  exact .key hlen hchars hends

/-- The quote that begins a string. -/
theorem Demand.openString (hinv : Inv r)
    (hs : r.state = .valueBegin) (h : Demand (r.unbegun.goto .valueString) s v) :
    Demand r (ch '"' :: s) v := by
  obtain ⟨hrem, hhigh⟩ := hinv.quiet (by simp [hs, inText])
  have hstr := hinv.empty (by simp [hs, inText]) (by simp [hs, inNumber])
  obtain ⟨n, hlen⟩ := hinv.exists_depth
  obtain ⟨t, u, s', rfl, hin, hends⟩ := (demand_text rfl).1 h
  have hchars := (inString_clean (r := r.unbegun.goto .valueString) rfl hhigh hrem).1 hin
  have hends : ScalarEnds r.tree r.key (.string (r.string ++ u)) s' v := hends
  rw [demand_begin hs]
  rw [hstr] at hends
  have := Begins.scalar (b := r.containerJustBegun) hlen (.string hchars) hends
  simpa using this

/-- The first letter of a literal. -/
theorem Demand.literalFirst
    (hinv : Inv r) (hs : r.state = .valueBegin) (hb : literalFirst b.toNat = some state)
    (h : Demand (r.unbegun.goto state) s v) : Demand r (b :: s) v := by
  obtain ⟨n, hlen⟩ := hinv.exists_depth
  rw [demand_begin hs]
  unfold JsonReader.literalFirst at hb
  split_ifs at hb with ht hf hn <;> cases hb <;>
    obtain ⟨s', rfl, hends⟩ := (demand_literal rfl).1 h
  · rw [byte_eq ht]
    exact Begins.scalar hlen .jsonTrue hends
  · rw [byte_eq hf]
    exact Begins.scalar hlen .jsonFalse hends
  · rw [byte_eq hn]
    exact Begins.scalar hlen .jsonNull hends

/-- A letter that the reader expects is the next one of the literal. -/
theorem literalRest_cons {state' : State} {c : Char} (h : literalNext state = some (c, state')) :
    ∃ x j, literalRest state' = some (x, j) ∧ literalRest state = some (ch c :: x, j) := by
  unfold literalNext at h
  split at h <;> cases h <;> exact ⟨_, _, rfl, rfl⟩

/-- The last letter of a literal. -/
theorem Demand.literalEnd (hlit : literalRest r.state = some ([b], j)) (hf : Fresh r.key r.stack)
    (hs : r'.state = .valueEnd) (hb : r'.containerJustBegun = false)
    (ht : r'.tree = put r.key j r.tree) (h : Demand r' s v) : Demand r (b :: s) v := by
  rw [demand_ended (by rw [hs]; rfl), hb, ht] at h
  exact (demand_literal hlit).2 ⟨s, rfl, hf, h⟩

/-- Whatever leads on from the next state leads, after the byte, from this one. -/
theorem Demand.step (ht : Transition r c r') (hb : b.toNat = c) (hinv : Inv r) (h : Demand r' s v) :
    Demand r (b :: s) v := by
  induction ht with
  | @space r c hc hs =>
    have hw := ws_of_isSpace (hb ▸ hc)
    unfold skipsSpace at hs
    split at hs <;> rename_i hst
    · exact (demand_keyBegin hst).2 (((demand_keyBegin hst).1 h).space hw)
    · exact (demand_keyEnd hst).2 (((demand_keyEnd hst).1 h).space hw)
    · exact (demand_begin hst).2 (((demand_begin hst).1 h).space hw)
    · have he : ended r.state = true := by rw [hst]; rfl
      exact (demand_ended he).2 (((demand_ended he).1 h).space hw)
    · have he : ended r.state = true := by rw [hst]; rfl
      exact (demand_ended he).2 (((demand_ended he).1 h).space hw)
    · cases hs
  | @char r r' c hs hhigh hlow hquote hback hadd =>
    subst hb
    obtain ⟨begun, hb⟩ := flagged_eq (r := r) (c := b.toNat)
    rw [hb] at hadd
    have hs' : inText r.state = true := by
      unfold inString at hs
      split at hs <;> simp_all [inText]
    have hin (t u : Octets) (h : InString r' t u) :=
      InString.char (r := { r with containerJustBegun := begun }) hs hhigh hlow hquote hback hadd h
    obtain ⟨k, f, rfl⟩ := exists_pushByte hadd
    exact h.text hs' hs' rfl rfl rfl hin
  | @numberEnd r r' c _ hd hf _ ih =>
    have hnum : inNumber r.state = true ∧ inText r.state = false := by
      unfold numberDone at hd
      split at hd <;> simp_all [inNumber, inText]
    obtain ⟨hrem, hhigh⟩ := hinv.quiet hnum.2
    have h := ih hb (.scalar hinv.depth hrem hhigh) h
    rw [demand_ended rfl] at h
    refine (demand_number hnum.1).2 ⟨[], b :: s, rfl, numberRest_nil.2 hd, hf, ?_⟩
    rw [List.append_nil, ← hinv.begun hnum.1]
    exact h
  | @commaObject r hs hin =>
    have h := (demand_keyBegin (r := r.goto .objectKeyBegin) rfl).1 h
    rw [byte_eq hb, demand_ended (by rw [hs]; rfl)]
    exact .commaObject hinv.depth h
  | @commaArray r hs hin =>
    obtain ⟨k, l, stack, hstack⟩ := inArray_iff.1 hin
    have hlen := hinv.depth
    have h : Begins r.tree r.key r.containerJustBegun s v :=
      (demand_begin (r := r.goto .valueBegin) rfl).1 h
    rw [hstack, List.length_cons] at hlen
    rw [tree, hstack] at h
    rw [byte_eq hb, demand_ended (by rw [hs]; rfl), tree, hstack]
    exact .commaArray hlen h
  | closeObject hin hs =>
    rw [byte_eq hb]
    exact h.closeObject hinv hin hs
  | closeArray hin hs =>
    rw [byte_eq hb]
    exact h.closeArray hinv hin hs
  | @backslash r hs =>
    rw [byte_eq hb]
    have hs' : inText r.state = true ∧ r.atKey = decide (r.state = .objectKeyString) := by
      unfold inString at hs
      split at hs <;> simp_all [inText, atKey]
    exact h.text hs'.1 rfl hs'.2.symm rfl rfl fun t u hin => ⟨u, .backslash hs rfl hin, rfl⟩
  | @escape r r' c e hs hhigh he hadd =>
    subst hb
    obtain ⟨begun, hb⟩ := flagged_eq (r := r) (c := b.toNat)
    rw [hb] at hadd
    have hin (t u : Octets) (h : InString r' t u) :=
      InString.escape (r := { r with containerJustBegun := begun }) hs hhigh he hadd h
    obtain ⟨k, f, rfl⟩ := exists_pushByte hadd
    refine h.text (by simp [hs, inText]) inText_stringState ?_ rfl rfl hin
    simp only [atKey, hs, goto, pushByte, stringState]
    cases r.escapedStringWasKey <;> rfl
  | @escapeU r hs =>
    rw [byte_eq hb]
    exact h.text (by simp [hs, inText]) rfl (by simp [atKey, hs, unbegun]) rfl rfl
      fun t u hin => ⟨u, .escapeU hs hin, rfl⟩
  | @hex r c d state hs hd =>
    subst hb
    refine h.text ?_ ?_ ?_ rfl rfl fun t u hin => ⟨u, .hex hs hd hin, rfl⟩ <;>
      cases hst : r.state <;> rw [hst] at hs <;> cases hs <;>
      simp [inText, atKey, hst, goto, shift, unbegun]
  | @hexEnd r r' c d hs hd hend =>
    subst hb
    have hend := UnicodeEnd.of_ok (r := r.unbegun.shift d) (shift_lt (hexValue_lt hd))
      hinv.surrogate hend
    obtain ⟨hstate, htree, hkey, -⟩ := hend.frame
    change r'.state = r.stringState at hstate
    refine h.text (by simp [hs, inText]) (hstate ▸ inText_stringState) ?_ htree hkey
      fun t u hin => InString.hexEnd hs hd hend hin
    simp only [atKey, hs, hstate, stringState]
    cases r.escapedStringWasKey <;> rfl
  | openKey hs =>
    rw [byte_eq hb]
    exact h.openKey hinv hs
  | openString hs =>
    rw [byte_eq hb]
    exact h.openString hinv hs
  | @closeKey r hs hhigh hrem =>
    have h : AfterKey r.tree r.string s v :=
      (demand_keyEnd (r := r.unbegun.setKey.goto .objectKeyEnd) rfl).1 h
    refine (demand_text (by simp [hs, inText])).2 ⟨[], [], s, by rw [byte_eq hb]; rfl, ?_, ?_⟩
    · exact (inString_clean (by simp [hs, inString]) hhigh hrem).2 .nil
    · rw [TextEnds, if_pos (by simp [atKey, hs]), List.append_nil]
      exact h
  | @closeString r hs hhigh hrem hf =>
    have h : Closes (put r.key (.string r.string) r.tree) false s v :=
      (demand_ended (r := goto _ .valueEnd) rfl).1 h
    refine (demand_text (by simp [hs, inText])).2 ⟨[], [], s, by rw [byte_eq hb]; rfl, ?_, ?_⟩
    · exact (inString_clean (by simp [hs, inString]) hhigh hrem).2 .nil
    · rw [TextEnds, if_neg (by simp [atKey, hs]), List.append_nil]
      exact ⟨hf, h⟩
  | @colon r hs =>
    have h : Begins r.tree r.key false s v :=
      (demand_begin (r := r.unbegun.goto .valueBegin) rfl).1 h
    rw [byte_eq hb, demand_keyEnd hs]
    exact ⟨[], s, rfl, ws_nil, h⟩
  | number hnext hadd =>
    subst hb
    exact h.number hinv hnext hadd
  | @openObject r hs hlen hf =>
    rw [byte_eq hb, demand_begin hs]
    have h := (demand_keyBegin (r := goto _ .objectKeyBegin) rfl).1 h
    exact .openObject hf (Nat.lt_of_le_of_ne hinv.depth hlen) h
  | @openArray r hs hlen hf =>
    rw [byte_eq hb, demand_begin hs]
    have h := (demand_begin (r := push { r with containerJustBegun := true } (.array [])) hs).1 h
    exact .openArray hf (Nat.lt_of_le_of_ne hinv.depth hlen) h
  | literalFirst hs hc =>
    subst hb
    exact h.literalFirst hinv hs hc
  | @literal r c state hs =>
    obtain ⟨x, j, hx', hx⟩ := literalRest_cons hs
    obtain ⟨s', rfl, hends⟩ := (demand_literal (r := r.unbegun.goto state) hx').1 h
    rw [byte_eq hb]
    exact (demand_literal hx).2 ⟨s', rfl, hends⟩
  | literalTrue hs hf | literalFalse hs hf =>
    rw [byte_eq hb]
    exact h.literalEnd (by rw [hs]; rfl) hf rfl rfl rfl
  | @literalNull r hs hf =>
    rw [setNull_eq (r := r.unbegun) hf (hinv.root (by simp [hs, ended]))] at h
    rw [byte_eq hb]
    exact h.literalEnd (by rw [hs]; rfl) hf rfl rfl rfl

/-! ## A whole text -/

/-- A reader that adds a byte without an error had none before. -/
theorem clean_of_stringAddChar (h : r.stringAddChar c = some r') (hc : r'.Clean) : r.Clean := by
  obtain ⟨k, f, rfl⟩ := exists_pushByte h
  exact hc

/-- A byte, and then more. -/
theorem clean_of_bind {f : JsonReader → Option JsonReader}
    (h : (r.stringAddChar c).bind f = some r') (hf : ∀ r₁, f r₁ = some r' → r₁.Clean) :
    r.Clean := by
  obtain ⟨r₁, h₁, h₂⟩ := bind_eq_some_iff.1 h
  exact clean_of_stringAddChar h₁ (hf r₁ h₂)

/-- The same for a code point. -/
theorem clean_of_stringAddUtf32 (h : r.stringAddUtf32 n = some r') (hc : r'.Clean) : r.Clean := by
  unfold stringAddUtf32 at h
  simp only [bind_eq_bind] at h
  split_ifs at h
  · exact clean_of_stringAddChar h hc
  · exact clean_of_bind h fun _ h => clean_of_stringAddChar h hc
  · exact clean_of_bind h fun _ h => clean_of_bind h fun _ h => clean_of_stringAddChar h hc
  · exact clean_of_bind h fun _ h => clean_of_bind h fun _ h => clean_of_bind h fun _ h =>
      clean_of_stringAddChar h hc

/-- The same for the end of an escape. -/
theorem clean_endUnicode (h : r.endUnicode = .ok r') (hc : r'.Clean) : r.Clean := by
  unfold endUnicode at h
  obtain ⟨r₁, hu, hr'⟩ := bind_ok h
  cases hr'
  unfold takeUnit at hu
  split_ifs at hu
  · cases hu
    exact hc
  · obtain ⟨r₂, hadd, hr₁⟩ := bind_ok hu
    cases hr₁
    exact clean_of_stringAddUtf32 (addUtf32_ok.1 hadd) hc
  · exact clean_of_stringAddUtf32 (addUtf32_ok.1 hu) hc

/-- Errors stay: a reader without errors had none before. -/
theorem Transition.clean (h : Transition r c r') (hc : r'.Clean) : r.Clean := by
  induction h with
  | space => exact hc
  | @char r r' c _ _ _ _ _ hadd | @escape r r' c b _ _ _ hadd =>
    obtain ⟨begun, hb⟩ := flagged_eq (r := r) (c := c)
    rw [hb] at hadd
    have := clean_of_stringAddChar hadd hc
    exact this
  | numberEnd _ _ _ _ ih => exact ih hc
  | @hexEnd r r' c d _ _ hend => exact clean_endUnicode (r := r.unbegun.shift d) hend hc
  | @number r r' c state _ hadd => exact clean_of_stringAddChar (r := r.unbegun) hadd hc
  | @literalNull r _ _ => exact (clean_setNull (r := r.unbegun) hc).2
  | _ => exact hc

theorem Inv.index {i : Nat} (h : Inv r) : Inv { r with index := i } :=
  ⟨h.depth, h.surrogate, h.quiet, h.empty, h.begun, h.key, h.root⟩

/-- The end of the text ends a number, and nothing else. -/
theorem endNumber_cases :
    (numberDone r.state = true ∧ r.endNumber = r.setNumber.goto .valueEnd) ∨
      (numberDone r.state = false ∧ r.endNumber = r) := by
  unfold endNumber
  split <;> rename_i hs <;> simp [numberDone, *]

/-- Where the text may end: after a value, or after a number at the root. -/
theorem readEof_ok (h : r.readEof = .ok r') (hc : r'.Clean) :
    r.Clean ∧ r'.stack = [] ∧ ((ended r.state = true ∧ r' = r) ∨
      (numberDone r.state = true ∧ Fresh r.key r.stack ∧ r' = r.numbered)) := by
  unfold readEof at h
  simp only at h
  split_ifs at h with hcomplete
  cases h
  obtain ⟨hstack, hstate⟩ : r.endNumber.stack = [] ∧
      (r.endNumber.state = .stateEnd ∨ r.endNumber.state = .valueEnd) := by
    simpa [isComplete] using hcomplete
  rcases endNumber_cases (r := r) with ⟨hd, heq⟩ | ⟨hd, heq⟩ <;> rw [heq] at hc hstate hstack ⊢
  · obtain ⟨hf, hclean⟩ := clean_setValue (f := fun _ => .number r.string) hc
    exact ⟨hclean, hstack, .inr ⟨hd, hf, setNumber_goto hf⟩⟩
  · refine ⟨hc, hstack, .inl ⟨?_, rfl⟩⟩
    rcases hstate with hs | hs <;> rw [hs] <;> rfl

/-- Errors stay along a run. -/
theorem run_clean (h : r.run s = .ok r') (hc : r'.Clean) : r.Clean := by
  induction s generalizing r with
  | nil => exact (readEof_ok h hc).1
  | cons b s ih =>
    rw [run] at h
    split_ifs at h with hb
    · exact (readEof_ok h hc).1
    · split at h
      · rename_i r₁ hread
        exact (Transition.of_read hread (ih h)).clean (ih h)
      · cases h

/-- At the end of the text nothing more is needed. -/
theorem Demand.eof (hinv : Inv r) (h : r.readEof = .ok r')
    (hc : r'.Clean) (hs : End .reader s) : Demand r s r'.rootValue := by
  obtain ⟨-, hstack, ⟨he, rfl⟩ | ⟨hd, hf, rfl⟩⟩ := readEof_ok h hc
  · rw [demand_ended he, tree, hstack]
    exact .done hs
  · have hnum : inNumber r.state = true := by
      unfold numberDone at hd
      split at hd <;> simp_all [inNumber]
    refine (demand_number hnum).2 ⟨[], s, rfl, numberRest_nil.2 hd, hf, ?_⟩
    have htree : put r.key (.number (r.string ++ [])) r.tree = r.numbered.tree := by
      rw [List.append_nil]
      rfl
    rw [htree, tree, hstack]
    exact .done hs

/-- A run without errors has read what its first state demands, by induction on the text. -/
theorem run_demand (hinv : Inv r) (h : r.run s = .ok r')
    (hc : r'.Clean) : Demand r s r'.rootValue := by
  induction s generalizing r with
  | nil => exact .eof hinv h hc ⟨[], [], rfl, ws_nil, .inl rfl⟩
  | cons b s ih =>
    rw [run] at h
    split_ifs at h with hb
    · exact Demand.eof (r := { r with index := r.index + 1 }) hinv.index h hc
        ⟨[], b :: s, rfl, ws_nil, .inr ⟨rfl, s, by rw [hb]⟩⟩
    · split at h
      · rename_i r₁ hread
        have ht := Transition.of_read hread (run_clean h hc)
        exact Demand.step (r := { r with index := r.index + 1 }) ht rfl hinv.index
          (ih (hinv.index.step ht) h)
      · cases h

/-- At the root, the demand is a text of the dialect. -/
theorem Begins.text (h : Begins (.jsonNull, []) [] false s v) : Text .reader s v := by
  cases h with
  | @value _ _ w x rest _ e j _ n hn hw hv _ h =>
    cases h with
    | done hend =>
      obtain rfl : n = 255 := hn
      exact ⟨w, x, rest, e, rfl, hw, hv, hend⟩

/-- A text that is read is in the grammar and denotes the value. -/
theorem parse_sound (h : parse s = .ok v) : Text .reader s v := by
  unfold parse at h
  split at h
  · rename_i r hrun
    split_ifs at h with hempty
    cases h
    have := run_demand .start hrun (reported_isEmpty_iff.1 hempty)
    exact ((demand_begin rfl).1 this).text
  · cases h

end GrpcCore.JsonReader
