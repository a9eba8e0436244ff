import GrpcCore.Json.Tokens

/-!
# The reader reads the grammar

`parse_complete`: a text that is derived in a dialect is read, with the value that it denotes, or it
is one that may be refused. For `Dialect.reader` there are none, and with `parse_sound` it is
exactly the language of the reader: `parse_iff`.
-/

namespace GrpcCore.JsonReader

open JsonText Json

/-- The dialect has no tokens that the reader refuses, except where it `may`. -/
structure Covered (d : Dialect) (may : Prop) : Prop where
  number : ∀ t, d.number t →
    ReaderNumber t ∨ (may ∧ ∃ l u, t = ch '0' :: l :: u ∧ l ∈ octets "eE")
  lone : d.loneSurrogate = true → may

section
variable {d : Dialect} {may : Prop} {T : Tree} {key s t : Octets} {e : Bool} {r : JsonReader}

/-! ## Strings and keys -/

theorem AtValue.openString {Q : JsonReader → Prop} (h : AtValue T key e r)
    (hrest : ∀ r', AtChar .valueString T key [] r' → Reads may r' t Q) :
    Reads may r (ch '"' :: t) Q := by
  obtain ⟨hst, ⟨htree, hrem, hhigh, hstr, hc⟩, hkey, -, -⟩ := h
  exact .char (.openString hst) (by decide) rfl
    (hrest _ ⟨⟨rfl, htree, hkey, hstr, hc, rfl⟩, hrem, hhigh⟩)

theorem AtValue.string (hd : Covered d may) (h : AtValue T key e r)
    (hf : Fresh key T.2) (hs : Chars d.loneSurrogate s t) :
    Reads may r (ch '"' :: (s ++ [ch '"'])) (Ended (put key (.string t) T) false) := by
  refine h.openString fun r hr => reads_chars hd.lone rfl hs hr fun r' h => ?_
  obtain ⟨⟨hst, rfl, rfl, rfl, hc, -⟩, hrem, hhigh⟩ := h
  refine .char (.closeString hst hhigh hrem hf) (by decide) rfl (.nil (.inl ?_))
  exact Idle.scalar (r := r'.bump.unbegun) rfl hrem hhigh hc rfl

def AtKeyEnd (T : Tree) (key : Octets) (r : JsonReader) : Prop :=
  r.state = .objectKeyEnd ∧ Idle T r ∧ r.key = key

/-- A key. -/
theorem AtKeyBegin.readsKey (hd : Covered d may) (h : AtKeyBegin T e r)
    (hs : Chars d.loneSurrogate s t) :
    Reads may r (ch '"' :: (s ++ [ch '"'])) (AtKeyEnd T t) := by
  obtain ⟨hst, ⟨htree, hrem, hhigh, hstr, hc⟩, -⟩ := h
  have hopen : AtChar .objectKeyString T r.key [] (r.bump.unbegun.goto .objectKeyString) :=
    ⟨⟨rfl, htree, rfl, hstr, hc, rfl⟩, hrem, hhigh⟩
  refine .char (.openKey hst) (by decide) rfl (reads_chars hd.lone rfl hs hopen fun r' h => ?_)
  obtain ⟨⟨hst, htree, -, rfl, hc, -⟩, hrem, hhigh⟩ := h
  exact .char (.closeKey hst hhigh hrem) (by decide) rfl
    (.nil ⟨rfl, ⟨htree, hrem, hhigh, rfl, hc⟩, rfl⟩)

theorem AtKeyEnd.colon {w w' : Octets} (hw : Ws w) (hw' : Ws w') (hT : T.2 ≠ [])
    (h : AtKeyEnd T key r) : Reads may r (w ++ ch ':' :: w') (AtValue T key false) := by
  have hspace : Reads may r w (AtKeyEnd T key) :=
    reads_ws hw (fun r c hc h => ⟨r.bump, .space hc (by rw [show r.bump.state = _ from h.1]; rfl),
      h⟩) h
  refine hspace.append fun r' h => .char (.colon h.1) (by decide) rfl ?_
  exact AtValue.ws hw' ⟨rfl, h.2.1, h.2.2, rfl, fun hnil => absurd hnil hT⟩

/-! ## Brackets and commas -/

/-- The innermost container can be closed by a bracket. -/
def ClosableArray (T : Tree) (e : Bool) (r : JsonReader) : Prop :=
  Ended T e r ∨ (e = true ∧ ∃ key, AtValue T key true r)

/-- The innermost container can be closed by a brace. -/
def ClosableObject (T : Tree) (e : Bool) (r : JsonReader) : Prop :=
  Ended T e r ∨ (∃ key, AtValue T key e r) ∨ (e = true ∧ AtKeyBegin T true r)

theorem Idle.closed (h : Idle T r) (hb : r.containerJustBegun = e) :
    Stopped (close T) e r.closed := by
  obtain ⟨rfl, hrem, hhigh, hstr, hc⟩ := h
  refine ⟨?_, ⟨rfl, hrem, hhigh, hstr, hc⟩, hb⟩
  by_cases hempty : (close r.tree).2 = []
  · exact .inr ⟨by simp [JsonReader.closed, goto, withTree, hempty], hempty⟩
  · exact .inl (by simp [JsonReader.closed, goto, withTree, hempty])

theorem Stopped.valueEnd (h : Stopped T e r) (hT : T.2 ≠ []) :
    r.state = .valueEnd :=
  h.1.resolve_right fun h => hT h.2

section
variable {root : Json} {k : Octets} {l : List Json} {o : Object} {stack : List Frame}
  {Q : JsonReader → Prop}

theorem inArray_of_tree (h : Idle (root, ⟨k, .array l⟩ :: stack) r) :
    r.inArray = true := inArray_iff.2 ⟨k, l, stack, congrArg Prod.snd h.1⟩

theorem inObject_of_tree (h : Idle (root, ⟨k, .object o⟩ :: stack) r) :
    r.inObject = true := inObject_iff.2 ⟨k, o, stack, congrArg Prod.snd h.1⟩

theorem Ended.reads {c : Char} {T : Tree} (h : Ended T e r) (hc : IsTerminator c.toNat)
    (h0 : ch c ≠ 0) (hn : (ch c).toNat = c.toNat)
    (hstep : ∀ r, Stopped T e r → ∃ r', Transition r c.toNat r' ∧ Q r') : Reads may r [ch c] Q := by
  obtain ⟨r', ht, hQ⟩ := h.step (.inr hc) hstep
  exact .char ht h0 hn (.nil hQ)

theorem ClosableArray.close (h : ClosableArray (root, ⟨k, .array l⟩ :: stack) e r) :
    Reads may r [ch ']'] (Ended (put k (.array l) (root, stack)) e) := by
  rcases h with h | ⟨rfl, key, h⟩
  · exact h.reads (.inr (.inr rfl)) (by decide) rfl fun r h => ⟨_, .closeArray
      (inArray_of_tree h.2.1) (.inl (h.valueEnd (by simp))), .inl (h.2.1.closed h.2.2)⟩
  · have hidle : Idle (root, ⟨k, .array l⟩ :: stack) r.bump := h.2.1
    exact .char (.closeArray (inArray_of_tree hidle) (.inr (.inr ⟨h.1, h.2.2.2.1⟩))) (by decide) rfl
      (.nil (.inl (hidle.closed h.2.2.2.1)))

/-- The brace after an object. -/
theorem ClosableObject.close (h : ClosableObject (root, ⟨k, .object o⟩ :: stack) e r) :
    Reads may r [ch '}'] (Ended (put k (.object o) (root, stack)) e) := by
  rcases h with h | ⟨key, h⟩ | ⟨rfl, h⟩
  · exact h.reads (.inr (.inl rfl)) (by decide) rfl fun r h => ⟨_, .closeObject
      (inObject_of_tree h.2.1) (.inl (h.valueEnd (by simp))), .inl (h.2.1.closed h.2.2)⟩
  · have hidle : Idle (root, ⟨k, .object o⟩ :: stack) r.bump := h.2.1
    exact .char (.closeObject (inObject_of_tree hidle) (.inr (.inl h.1))) (by decide) rfl
      (.nil (.inl (hidle.closed h.2.2.2.1)))
  · have hidle : Idle (root, ⟨k, .object o⟩ :: stack) r.bump := h.2.1
    exact .char (.closeObject (inObject_of_tree hidle) (.inr (.inr ⟨h.1, h.2.2⟩))) (by decide) rfl
      (.nil (.inl (hidle.closed h.2.2)))

theorem Ended.commaArray (h : Ended (root, ⟨k, .array l⟩ :: stack) e r) :
    Reads may r [ch ','] fun r' => ∃ key, AtValue (root, ⟨k, .array l⟩ :: stack) key e r' :=
  h.reads (.inl rfl) (by decide) rfl fun r h => ⟨_, .commaArray (h.valueEnd (by simp))
    (inArray_of_tree h.2.1), r.key, rfl, h.2.1, rfl, h.2.2, by simp⟩

theorem Ended.commaObject (h : Ended (root, ⟨k, .object o⟩ :: stack) e r) :
    Reads may r [ch ','] (AtKeyBegin (root, ⟨k, .object o⟩ :: stack) e) :=
  h.reads (.inl rfl) (by decide) rfl fun r h => ⟨_, .commaObject (h.valueEnd (by simp))
    (inObject_of_tree h.2.1), rfl, h.2.1, h.2.2⟩

theorem AtValue.push (h : AtValue (root, stack) key e r) (c : Container) :
    Idle (root, ⟨key, c⟩ :: stack)
      (JsonReader.push { r.bump with containerJustBegun := true } c) := by
  obtain ⟨-, ⟨htree, hrem, hhigh, hstr, hc⟩, rfl, -, -⟩ := h
  obtain ⟨rfl, rfl⟩ := Prod.mk.inj htree
  exact ⟨rfl, hrem, hhigh, hstr, hc⟩

theorem AtValue.openArray (h : AtValue (root, stack) key e r)
    (hlen : stack.length ≠ 255) (hf : Fresh key stack)
    (hrest : ∀ r', AtValue (root, ⟨key, .array []⟩ :: stack) key true r' → Reads may r' t Q) :
    Reads may r (ch '[' :: t) Q := by
  have hpush := h.push (.array [])
  obtain ⟨hs, ⟨htree, -⟩, rfl, -, -⟩ := h
  obtain rfl : r.stack = stack := congrArg Prod.snd htree
  exact .char (.openArray hs hlen hf) (by decide) rfl (hrest _ ⟨hs, hpush, rfl, rfl, by simp⟩)

theorem AtValue.openObject (h : AtValue (root, stack) key e r)
    (hlen : stack.length ≠ 255) (hf : Fresh key stack)
    (hrest : ∀ r', AtKeyBegin (root, ⟨key, .object []⟩ :: stack) true r' → Reads may r' t Q) :
    Reads may r (ch '{' :: t) Q := by
  have hpush := h.push (.object [])
  obtain ⟨hs, ⟨htree, -⟩, rfl, -, -⟩ := h
  obtain rfl : r.stack = stack := congrArg Prod.snd htree
  exact .char (.openObject hs hlen hf) (by decide) rfl (hrest _ ⟨rfl, hpush, rfl⟩)

end

end

/-! ## Values -/

section
variable {d : Dialect} {may : Prop}

mutual

/-- A value, by induction on its derivation with what follows elements and members. -/
theorem reads_value (hd : Covered d may) {n : Nat} {s : Octets} {j : Json} {e : Bool}
    (h : Value d n s j e) {T : Tree} {key : Octets} {b : Bool} {r : JsonReader}
    (hlen : n + T.2.length ≤ 255) (hr : AtValue T key b r) (hf : Fresh key T.2) :
    Reads may r s (Ended (put key j T) e) := by
  cases h with
  | jsonNull => exact hr.literal (c := 'n') hf rfl rfl (by decide) rfl
  | jsonTrue => exact hr.literal (c := 't') hf rfl rfl (by decide) rfl
  | jsonFalse => exact hr.literal (c := 'f') hf rfl rfl (by decide) rfl
  | number hs =>
    rcases hd.number _ hs with hs | ⟨hmay, l, u, rfl, hl⟩
    · exact hr.number hf hs
    · exact hr.zeroExponent hmay hl
  | string hs => exact hr.string hd hf hs
  | emptyArray hw =>
    obtain ⟨root, stack⟩ := T
    refine hr.openArray (by simp only at hlen; omega) hf fun r hr =>
      (hr.ws hw).append fun r hr => ?_
    exact ClosableArray.close (.inr ⟨rfl, key, hr⟩)
  | array hw hv hm =>
    obtain ⟨root, stack⟩ := T
    simp only at hlen
    refine hr.openArray (by omega) hf fun r hr => (hr.ws hw).append fun r hr => ?_
    refine (reads_value hd hv (by simp only [List.length_cons]; omega) hr trivial).append
      fun r hr => ?_
    exact (reads_moreElements hd hm (by omega) hr).append fun r hr => hr.close
  | emptyObject hw =>
    obtain ⟨root, stack⟩ := T
    refine hr.openObject (by simp only at hlen; omega) hf fun r hr =>
      (hr.ws hw).append fun r hr => ?_
    exact ClosableObject.close (.inr (.inr ⟨rfl, hr⟩))
  | object hm hnodup =>
    obtain ⟨root, stack⟩ := T
    simp only at hlen
    refine hr.openObject (by omega) hf fun r hr => ?_
    exact (reads_members hd hm (by omega) ⟨fun _ _ => rfl, hnodup⟩ hr).append fun r hr => hr.close

theorem reads_moreElements (hd : Covered d may) {n : Nat} {t : Octets} {l : List Json} {e e' : Bool}
    (h : MoreElements d n e t l e') {root : Json} {k : Octets} {acc : List Json}
    {stack : List Frame} {r : JsonReader} (hlen : n + (stack.length + 1) ≤ 255)
    (hr : Ended (root, ⟨k, .array acc⟩ :: stack) e r) :
    Reads may r t (ClosableArray (root, ⟨k, .array (acc ++ l)⟩ :: stack) e') := by
  cases h with
  | done hw =>
    rw [List.append_nil]
    exact (hr.ws hw).mono fun r hr => .inl hr
  | trailing _ hw hw' =>
    rw [List.append_nil]
    refine (hr.ws hw).append fun r hr => hr.commaArray.append (u := _) fun r ⟨key, hr⟩ => ?_
    exact (hr.ws hw').mono fun r hr => .inr ⟨rfl, key, hr⟩
  | @comma _ _ _ _ _ j l _ _ _ hw hw' hv hm =>
    refine (hr.ws hw).append fun r hr => hr.commaArray.append (u := _) fun r ⟨key, hr⟩ => ?_
    refine (hr.ws hw').append fun r hr => ?_
    refine (reads_value hd hv (T := (root, _ :: stack)) hlen hr trivial).append fun r hr => ?_
    have := reads_moreElements hd hm hlen hr
    rwa [List.append_assoc] at this

theorem reads_members (hd : Covered d may) {n : Nat} {t : Octets} {m : List (Octets × Json)}
    {e : Bool} (h : Members d n t m e) {root : Json} {k : Octets} {o : Object} {b : Bool}
    {stack : List Frame} {r : JsonReader} (hlen : n + (stack.length + 1) ≤ 255) (ha : Addable o m)
    (hr : AtKeyBegin (root, ⟨k, .object o⟩ :: stack) b r) :
    Reads may r t (ClosableObject (root, ⟨k, .object (addMembers o m)⟩ :: stack) e) := by
  cases h with
  | @missing _ w₁ w₂ w₃ s key _ hw₁ hw₂ hw₃ hk =>
    refine (hr.ws hw₁).append fun r hr => ?_
    have := (hr.readsKey hd hk).append fun r hr => hr.colon hw₂ hw₃ (by simp)
    rw [show ch '"' :: (s ++ ch '"' :: (w₂ ++ ch ':' :: w₃)) =
      ch '"' :: (s ++ [ch '"']) ++ (w₂ ++ ch ':' :: w₃) by simp]
    exact this.mono fun r hr => .inr (.inl ⟨key, hr⟩)
  | @member _ w₁ w₂ w₃ s key s' t j m e _ hw₁ hw₂ hw₃ hk hv hm =>
    obtain ⟨hfresh, ha⟩ := addable_cons.1 ha
    refine (hr.ws hw₁).append fun r hr => ?_
    rw [show ch '"' :: (s ++ ch '"' :: (w₂ ++ ch ':' :: (w₃ ++ (s' ++ t)))) =
      ch '"' :: (s ++ [ch '"']) ++ ((w₂ ++ ch ':' :: w₃) ++ (s' ++ t)) by simp]
    refine (hr.readsKey hd hk).append fun r hr => (hr.colon hw₂ hw₃ (by simp)).append fun r hr => ?_
    refine (reads_value hd hv (T := (root, _ :: stack)) hlen hr hfresh).append fun r hr => ?_
    exact reads_moreMembers hd hm hlen ha hr

theorem reads_moreMembers (hd : Covered d may) {n : Nat} {t : Octets} {m : List (Octets × Json)}
    {e e' : Bool} (h : MoreMembers d n e t m e') {root : Json} {k : Octets} {o : Object}
    {stack : List Frame} {r : JsonReader} (hlen : n + (stack.length + 1) ≤ 255) (ha : Addable o m)
    (hr : Ended (root, ⟨k, .object o⟩ :: stack) e r) :
    Reads may r t (ClosableObject (root, ⟨k, .object (addMembers o m)⟩ :: stack) e') := by
  cases h with
  | done hw => exact (hr.ws hw).mono fun r hr => .inl hr
  | trailing _ hw hw' =>
    refine (hr.ws hw).append fun r hr => hr.commaObject.append (u := _) fun r hr => ?_
    exact (hr.ws hw').mono fun r hr => .inr (.inr ⟨rfl, hr⟩)
  | comma hw hm =>
    refine (hr.ws hw).append fun r hr => hr.commaObject.append (u := _) fun r hr => ?_
    exact reads_members hd hm hlen ha hr

end

end

/-! ## Texts -/

variable {v : Json} {e : Bool} {r : JsonReader} {s : Octets}

/-- The text ends after its value. -/
theorem Ended.eof (h : Ended (v, []) e r) :
    ∃ r', r.readEof = .ok r' ∧ r'.Clean ∧ r'.rootValue = v := by
  have hstop : ∃ r', Stopped (v, []) e r' ∧ r.endNumber = r' := by
    rcases endNumber_cases (r := r) with ⟨hd, heq⟩ | ⟨hd, heq⟩ <;> rw [heq]
    · rcases h with h | ⟨-, hf, h⟩
      · exfalso
        rcases h.1 with hs | ⟨hs, -⟩ <;> rw [hs] at hd <;> cases hd
      · exact ⟨_, h, setNumber_goto hf⟩
    · rcases h with h | ⟨hd', -, -⟩
      · exact ⟨r, h, rfl⟩
      · exact absurd (hd.symm.trans hd') (by decide)
  obtain ⟨r', h, heq⟩ := hstop
  obtain ⟨htree, -, -, -, hc⟩ := h.2.1
  obtain ⟨hroot, hstack⟩ := Prod.mk.inj htree
  refine ⟨r', ?_, hc, hroot⟩
  have hcomplete : r'.isComplete = true := by
    rcases h.1 with hs | ⟨hs, -⟩ <;> simp [isComplete, hs, hstack]
  simp only [readEof, heq, if_pos hcomplete]

theorem Ended.end {d : Dialect} (h : Ended (v, []) e r) (hs : End d s) :
    ∃ r', r.run s = .ok r' ∧ r'.Clean ∧ r'.rootValue = v := by
  obtain ⟨w, rest, rfl, hw, hrest⟩ := hs
  have hreads : Reads False r w (Ended (v, []) e) := h.ws hw
  obtain ⟨r', hrun, h⟩ := hreads.resolve_right fun h => h.1
  rw [hrun]
  rcases hrest with rfl | ⟨-, t, rfl⟩
  · exact h.eof
  · exact Ended.eof (r := r'.bump) h

theorem parse_eq (h : run {} s = .ok r) (hc : r.Clean) :
    parse s = .ok r.rootValue := by
  rw [parse, h]
  simp only [if_pos (reported_isEmpty_iff.2 hc)]

theorem parse_ne_ok (h : ∀ r, run {} s = .ok r → ¬ r.Clean) (v : Json) : parse s ≠ .ok v := by
  intro hv
  unfold parse at hv
  split at hv
  · rename_i r hrun
    split_ifs at hv with hempty
    exact h r hrun (reported_isEmpty_iff.1 hempty)
  · cases hv

theorem atValue_init : AtValue (.jsonNull, []) [] false {} :=
  ⟨rfl, ⟨rfl, rfl, rfl, rfl, rfl, rfl⟩, rfl, rfl, fun _ => rfl⟩

theorem reads_text {d : Dialect} {may : Prop} (hd : Covered d may) {w x : Octets} {j : Json}
    (hw : Ws w) (hv : Value d 255 x j e) : Reads may {} (w ++ x) (Ended (j, []) e) :=
  (atValue_init.ws hw).append fun _ hr => reads_value hd hv (by simp) hr trivial

theorem parse_complete {d : Dialect} {may : Prop} (hd : Covered d may) {s : Octets} {j : Json}
    (h : Text d s j) : parse s = .ok j ∨ (may ∧ ∀ v, parse s ≠ .ok v) := by
  obtain ⟨w, x, rest, e, rfl, hw, hv, hend⟩ := h
  rw [← List.append_assoc]
  rcases reads_text hd hw hv with ⟨r, hrun, hr⟩ | ⟨hmay, hno⟩
  · obtain ⟨r', hok, hc, rfl⟩ := Ended.end hr hend
    exact .inl (parse_eq ((hrun rest).trans hok) hc)
  · exact .inr ⟨hmay, parse_ne_ok (hno rest)⟩

theorem covered_reader : Covered .reader False := ⟨fun _ h => .inl h, fun h => nomatch h⟩

theorem covered_ecma404 : Covered .ecma404 True :=
  ⟨fun _ h => (Number.reader_or_refused h).imp_right fun h => ⟨trivial, h⟩, fun _ => trivial⟩

theorem parse_iff {j : Json} : parse s = .ok j ↔ Text .reader s j :=
  ⟨parse_sound, fun h => (parse_complete covered_reader h).resolve_right fun h => h.1⟩

end GrpcCore.JsonReader
