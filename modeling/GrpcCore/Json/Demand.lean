import GrpcCore.Json.Invariant

/-!
# What the reader still has to be given

For each state of the reader, the texts that lead from it to a value, in terms of the grammar:
`Demand`. A byte that the reader takes gives back the demand before it from the demand after it, so
that a text that is read to its end is derived from the grammar.
-/

namespace GrpcCore.JsonReader

open List JsonText Json

/-! ## Members of an object -/

variable {o : Object} {k s t u x : Octets} {root v : Json} {b : UInt8} {T : Tree} {e : Bool}
  {d n : Nat} {l : List Json} {stack : List Frame} {r r' : JsonReader}

theorem find_insert {key : Octets} :
    (o.insert key v).find k = if k = key then some v else o.find k := by
  unfold Object.find
  induction o with
  | nil => by_cases h : k = key <;> simp [Object.insert, lookup_cons, h, beq_false_of_ne]
  | cons p o ih =>
    obtain ⟨k', v'⟩ := p
    simp only [Object.insert]
    by_cases hk : k = key
    · subst hk
      rw [if_pos rfl] at ih ⊢
      split_ifs with hlt heq
      · simp
      · simp [heq]
      · simp [lookup_cons, beq_false_of_ne heq, ih]
    · rw [if_neg hk] at ih ⊢
      split_ifs with hlt heq
      · simp [lookup_cons, beq_false_of_ne hk]
      · subst heq
        simp [lookup_cons, beq_false_of_ne hk]
      · simp [lookup_cons, ih]

/-- Members that are put into an object, one after the other. -/
def addMembers (o : Object) (m : List (Octets × Json)) : Object :=
  m.foldl (fun o p => o.insert p.1 p.2) o

def Addable (o : Object) (m : List (Octets × Json)) : Prop :=
  (∀ p ∈ m, o.find p.1 = none) ∧ (m.map Prod.fst).Nodup

theorem addable_cons {m : List (Octets × Json)} :
    Addable o ((k, v) :: m) ↔ o.find k = none ∧ Addable (o.insert k v) m := by
  simp only [Addable, mem_cons, forall_eq_or_imp, map_cons, nodup_cons, find_insert]
  constructor
  · rintro ⟨⟨hk, hm⟩, hmem, hnodup⟩
    refine ⟨hk, fun p hp => ?_, hnodup⟩
    have hne : p.1 ≠ k := fun h => hmem (h ▸ mem_map_of_mem hp)
    rw [if_neg hne, hm p hp]
  · rintro ⟨hk, hm, hnodup⟩
    have hne (p) (hp : p ∈ m) : p.1 ≠ k := by
      rintro rfl
      simpa using hm p hp
    refine ⟨⟨hk, fun p hp => ?_⟩, ?_, hnodup⟩
    · have := hm p hp
      rwa [if_neg (hne p hp)] at this
    · intro hmem
      obtain ⟨p, hp, rfl⟩ := mem_map.1 hmem
      exact hne p hp rfl

/-! ## After a value -/

/-- The text after a value, up to the end of all containers that are open. The value is in the tree
already; the flag says that an empty container ended it. -/
inductive Closes : Tree → Bool → Octets → Json → Prop
  | done {v : Json} {e : Bool} {s : Octets} : End .reader s → Closes (v, []) e s v
  | array {root v : Json} {k t rest : Octets} {acc l : List Json} {stack : List Frame} {n : Nat}
      {e e' : Bool} : n + (stack.length + 1) = 255 → MoreElements .reader n e t l e' →
      Closes (put k (.array (acc ++ l)) (root, stack)) e' rest v →
      Closes (root, ⟨k, .array acc⟩ :: stack) e (t ++ ch ']' :: rest) v
  | object {root v : Json} {k t rest : Octets} {o : Object} {m : List (Octets × Json)}
      {stack : List Frame} {n : Nat} {e e' : Bool} : n + (stack.length + 1) = 255 →
      MoreMembers .reader n e t m e' → Addable o m →
      Closes (put k (.object (addMembers o m)) (root, stack)) e' rest v →
      Closes (root, ⟨k, .object o⟩ :: stack) e (t ++ ch '}' :: rest) v

/-- The text where a value may begin: a value, or the end of the container instead. -/
inductive Begins : Tree → Octets → Bool → Octets → Json → Prop
  | value {T : Tree} {key w s rest : Octets} {b e : Bool} {j v : Json} {n : Nat} :
      n + T.2.length = 255 → Ws w → Value .reader n s j e → Fresh key T.2 →
      Closes (put key j T) e rest v → Begins T key b (w ++ (s ++ rest)) v
  | closeArray {root v : Json} {k w rest key : Octets} {l : List Json} {stack : List Frame} : Ws w →
      Closes (put k (.array l) (root, stack)) true rest v →
      Begins (root, ⟨k, .array l⟩ :: stack) key true (w ++ ch ']' :: rest) v
  | closeObject {root v : Json} {k w rest key : Octets} {o : Object} {stack : List Frame}
      {b : Bool} : Ws w → Closes (put k (.object o) (root, stack)) b rest v →
      Begins (root, ⟨k, .object o⟩ :: stack) key b (w ++ ch '}' :: rest) v

/-- The text where a key may begin: members, or the end of the object instead. -/
inductive KeyBegins : Tree → Bool → Octets → Json → Prop
  | members {root v : Json} {k t rest : Octets} {o : Object} {m : List (Octets × Json)}
      {stack : List Frame} {n : Nat} {b e : Bool} : n + (stack.length + 1) = 255 →
      Members .reader n t m e → Addable o m →
      Closes (put k (.object (addMembers o m)) (root, stack)) e rest v →
      KeyBegins (root, ⟨k, .object o⟩ :: stack) b (t ++ ch '}' :: rest) v
  | close {root v : Json} {k w rest : Octets} {o : Object} {stack : List Frame} : Ws w →
      Closes (put k (.object o) (root, stack)) true rest v →
      KeyBegins (root, ⟨k, .object o⟩ :: stack) true (w ++ ch '}' :: rest) v

def AfterKey (T : Tree) (key s : Octets) (v : Json) : Prop :=
  ∃ w s', s = w ++ ch ':' :: s' ∧ Ws w ∧ Begins T key false s' v

/-- The text after a scalar, which is not in the tree yet. -/
def ScalarEnds (T : Tree) (key : Octets) (j : Json) (s : Octets) (v : Json) : Prop :=
  Fresh key T.2 ∧ Closes (put key j T) false s v

/-! ### White space -/

theorem ws_cons {w : Octets} (hb : Ws [b]) (hw : Ws w) : Ws (b :: w) := by
  intro x hx
  rcases mem_cons.1 hx with rfl | hx
  · exact hb _ mem_cons_self
  · exact hw x hx

theorem Closes.space (hb : Ws [b]) (h : Closes T e s v) : Closes T e (b :: s) v := by
  cases h with
  | done h =>
    obtain ⟨w, rest, rfl, hw, hrest⟩ := h
    exact .done ⟨b :: w, rest, rfl, ws_cons hb hw, hrest⟩
  | array hn hm h =>
    refine .array (t := b :: _) hn ?_ h
    cases hm with
    | done hw => exact .done (ws_cons hb hw)
    | trailing hd hw hw' => exact .trailing (w := b :: _) hd (ws_cons hb hw) hw'
    | comma hw hw' hv hm => exact .comma (w := b :: _) (ws_cons hb hw) hw' hv hm
  | object hn hm ha h =>
    refine .object (t := b :: _) hn ?_ ha h
    cases hm with
    | done hw => exact .done (ws_cons hb hw)
    | trailing hd hw hw' => exact .trailing (w := b :: _) hd (ws_cons hb hw) hw'
    | comma hw hm => exact .comma (w := b :: _) (ws_cons hb hw) hm

theorem Begins.space {key : Octets} (hb : Ws [b])
    (h : Begins T key e s v) : Begins T key e (b :: s) v := by
  cases h with
  | value hn hw hv hf h => exact .value (w := b :: _) hn (ws_cons hb hw) hv hf h
  | closeArray hw h => exact .closeArray (w := b :: _) (ws_cons hb hw) h
  | closeObject hw h => exact .closeObject (w := b :: _) (ws_cons hb hw) h

theorem KeyBegins.space (hb : Ws [b]) (h : KeyBegins T e s v) : KeyBegins T e (b :: s) v := by
  cases h with
  | members hn hm ha h =>
    refine .members (t := b :: _) hn ?_ ha h
    cases hm with
    | missing hd h1 h2 h3 hk => exact Members.missing hd (ws_cons hb h1) h2 h3 hk
    | member h1 h2 h3 hk hv hm => exact Members.member (ws_cons hb h1) h2 h3 hk hv hm
  | close hw h => exact .close (w := b :: _) (ws_cons hb hw) h

theorem AfterKey.space {key : Octets} (hb : Ws [b])
    (h : AfterKey T key s v) : AfterKey T key (b :: s) v := by
  obtain ⟨w, s', rfl, hw, h⟩ := h
  exact ⟨b :: w, s', rfl, ws_cons hb hw, h⟩

theorem ws_nil : Ws [] := fun _ h => nomatch h

/-! ### Commas, brackets and keys -/

theorem exists_add (h : n + 1 ≤ 255) : ∃ m, m + (n + 1) = 255 := ⟨254 - n, by omega⟩

theorem Closes.commaArray {key : Octets} (hlen : stack.length + 1 ≤ 255)
    (h : Begins (root, ⟨k, .array l⟩ :: stack) key e s v) :
    Closes (root, ⟨k, .array l⟩ :: stack) e (ch ',' :: s) v := by
  cases h with
  | value hn hw hv _ h =>
    cases h with
    | array hn' hm h =>
      cases Nat.add_right_cancel (hn.trans hn'.symm)
      rw [append_assoc] at h
      have := Closes.array hn' (.comma (e := e) ws_nil hw hv hm) h
      simpa using this
  | closeArray hw h =>
    obtain ⟨n, hn⟩ := exists_add hlen
    rw [← append_nil l] at h
    exact .array hn (.trailing rfl ws_nil hw) h

theorem Closes.commaObject (hlen : T.2.length ≤ 255)
    (h : KeyBegins T e s v) : Closes T e (ch ',' :: s) v := by
  cases h with
  | members hn hm ha h => exact .object hn (.comma ws_nil hm) ha h
  | close hw h =>
    obtain ⟨n, hn⟩ := exists_add hlen
    exact .object (m := []) hn (.trailing rfl ws_nil hw) ⟨by simp, by simp⟩ h

theorem Closes.closeArray (hlen : stack.length + 1 ≤ 255)
    (h : Closes (put k (.array l) (root, stack)) e s v) :
    Closes (root, ⟨k, .array l⟩ :: stack) e (ch ']' :: s) v := by
  obtain ⟨n, hn⟩ := exists_add hlen
  rw [← append_nil l] at h
  exact .array hn (.done ws_nil) h

theorem Closes.closeObject (hlen : stack.length + 1 ≤ 255)
    (h : Closes (put k (.object o) (root, stack)) e s v) :
    Closes (root, ⟨k, .object o⟩ :: stack) e (ch '}' :: s) v := by
  obtain ⟨n, hn⟩ := exists_add hlen
  exact .object (m := []) hn (.done ws_nil) ⟨by simp, by simp⟩ h

theorem Begins.openArray {key key' : Octets} (hf : Fresh key stack) (hlen : stack.length + 1 ≤ 255)
    (h : Begins (root, ⟨key, .array []⟩ :: stack) key' true s v) :
    Begins (root, stack) key e (ch '[' :: s) v := by
  cases h with
  | value hn hw hv _ h =>
    cases h with
    | array hn' hm h =>
      cases Nat.add_right_cancel (hn.trans hn'.symm)
      have := Begins.value (b := e) ((Nat.succ_add_eq_add_succ _ _).trans hn') ws_nil
        (.array hw hv hm) hf h
      simpa using this
  | closeArray hw h =>
    obtain ⟨n, hn⟩ := exists_add hlen
    have := Begins.value (b := e) ((Nat.succ_add_eq_add_succ _ _).trans hn) ws_nil
      (.emptyArray hw) hf h
    simpa using this

theorem Begins.openObject {key : Octets} (hf : Fresh key stack) (hlen : stack.length + 1 ≤ 255)
    (h : KeyBegins (root, ⟨key, .object []⟩ :: stack) true s v) :
    Begins (root, stack) key e (ch '{' :: s) v := by
  cases h with
  | members hn hm ha h =>
    have := Begins.value (b := e) ((Nat.succ_add_eq_add_succ _ _).trans hn) ws_nil
      (.object hm ha.2) hf h
    simpa using this
  | close hw h =>
    obtain ⟨n, hn⟩ := exists_add hlen
    have := Begins.value (b := e) ((Nat.succ_add_eq_add_succ _ _).trans hn) ws_nil
      (.emptyObject hw) hf h
    simpa using this

theorem KeyBegins.key {key : Octets} (hlen : stack.length + 1 ≤ 255) (hk : Chars false t key)
    (h : AfterKey (root, ⟨k, .object o⟩ :: stack) key s v) :
    KeyBegins (root, ⟨k, .object o⟩ :: stack) e (ch '"' :: (t ++ ch '"' :: s)) v := by
  obtain ⟨w, s', rfl, hw, h⟩ := h
  cases h with
  | value hn hw' hv hf h =>
    cases h with
    | object hn' hm ha h =>
      cases Nat.add_right_cancel (hn.trans hn'.symm)
      have := KeyBegins.members (b := e) hn' (.member ws_nil hw hw' hk hv hm)
        (addable_cons.2 ⟨hf, ha⟩) h
      simpa using this
  | closeObject hw' h =>
    obtain ⟨n, hn⟩ := exists_add hlen
    have := KeyBegins.members (b := e) (m := []) hn (.missing rfl ws_nil hw hw' hk)
      ⟨by simp, by simp⟩ h
    simpa using this

/-! ## Inside of a string -/

theorem hexDigit_eq : hexDigit b = hexValue b.toNat :=
  forall_byte (P := fun b => hexDigit b = hexValue b.toNat) (by decide +kernel) b

/-- Hexadecimal digits that are shifted into a number of 16 bits. -/
def hexFrom (n : Nat) : Octets → Option Nat
  | [] => some n
  | b :: x => (hexValue b.toNat).bind fun d => hexFrom ((n <<< 4) % 2 ^ 16 ||| d) x

theorem shift_eq (hn : n < 4096) (hd : d < 16) :
    (n <<< 4) % 2 ^ 16 ||| d = n * 16 + d := by
  rw [Nat.shiftLeft_eq, Nat.mod_eq_of_lt (by omega), Nat.mul_comm]
  exact mark_or (i := 4) hd

theorem hexFrom_eq (h : x.length = 4) : hexFrom 0 x = hex4 x := by
  obtain _ | ⟨a, _ | ⟨b, _ | ⟨c, _ | ⟨d, _ | ⟨e, x⟩⟩⟩⟩⟩ := x <;> simp at h
  simp only [hexFrom, hex4, hexDigit_eq, Option.bind_eq_bind]
  refine Option.bind_congr fun i hi => Option.bind_congr fun j hj => Option.bind_congr fun k hk =>
    Option.bind_congr fun l hl => ?_
  have hi := hexValue_lt hi
  have hj := hexValue_lt hj
  have hk := hexValue_lt hk
  have hl := hexValue_lt hl
  rw [shift_eq (n := 0) (by omega) hi, shift_eq (by omega) hj, shift_eq (by omega) hk,
    shift_eq (by omega) hl, Nat.zero_mul, Nat.zero_add]

theorem length_of_hex4 (h : hex4 x = some n) : x.length = 4 := by
  unfold hex4 at h
  split at h
  · rfl
  · cases h

/-- A high surrogate waits for the low one. -/
def LowRest (high : Nat) (t u : Octets) : Prop :=
  ∃ x n t' u', t = unicodeEscape x ++ t' ∧ hex4 x = some n ∧ IsLow n ∧ Chars false t' u' ∧
    u = Utf8.encode (surrogatePair high n) ++ u'

/-- The text after a unit of UTF-16. -/
def UnitRest (high n : Nat) (t u : Octets) : Prop :=
  if high = 0 then
    (IsHigh n ∧ LowRest n t u) ∨
      (¬ IsHigh n ∧ ¬ IsLow n ∧ ∃ u', Chars false t u' ∧ u = Utf8.encode n ++ u')
  else IsLow n ∧ ∃ u', Chars false t u' ∧ u = Utf8.encode (surrogatePair high n) ++ u'

/-- The text in a hexadecimal escape of which `k` digits are missing. -/
def HexRest (r : JsonReader) (k : Nat) (t u : Octets) : Prop :=
  ∃ x n t', t = x ++ t' ∧ x.length = k ∧ hexFrom r.unicodeChar x = some n ∧
    UnitRest r.unicodeHighSurrogate n t' u

/-- The rest `t` of what stands between quotes, and what it adds to the string. -/
def InString (r : JsonReader) (t u : Octets) : Prop :=
  match r.state with
  | .objectKeyString | .valueString =>
    if r.unicodeHighSurrogate = 0 then
      ∃ q t' u', t = q ++ t' ∧ u = q ++ u' ∧ Utf8.Rest r.utf8FirstByte r.utf8BytesRemaining q ∧
        Chars false t' u'
    else r.utf8BytesRemaining = 0 ∧ LowRest r.unicodeHighSurrogate t u
  | .stringEscape =>
    r.utf8BytesRemaining = 0 ∧
      if r.unicodeHighSurrogate = 0 then Chars false (ch '\\' :: t) u
      else LowRest r.unicodeHighSurrogate (ch '\\' :: t) u
  | .stringEscapeU1 => r.utf8BytesRemaining = 0 ∧ HexRest r 4 t u
  | .stringEscapeU2 => r.utf8BytesRemaining = 0 ∧ HexRest r 3 t u
  | .stringEscapeU3 => r.utf8BytesRemaining = 0 ∧ HexRest r 2 t u
  | .stringEscapeU4 => r.utf8BytesRemaining = 0 ∧ HexRest r 1 t u
  | _ => False

theorem inString_eq (hs : inString r.state = true) (hhigh : r.unicodeHighSurrogate = 0) :
    InString r t u ↔ ∃ q t' u', t = q ++ t' ∧ u = q ++ u' ∧
      Utf8.Rest r.utf8FirstByte r.utf8BytesRemaining q ∧ Chars false t' u' := by
  unfold InString
  unfold inString at hs
  split at hs <;> simp_all

theorem inString_clean (hs : inString r.state = true)
    (hhigh : r.unicodeHighSurrogate = 0) (hrem : r.utf8BytesRemaining = 0) :
    InString r t u ↔ Chars false t u := by
  rw [inString_eq hs hhigh, hrem]
  constructor
  · rintro ⟨q, t', u', rfl, rfl, hq, h⟩
    rw [Utf8.rest_zero.1 hq]
    exact h
  · exact fun h => ⟨[], t, u, rfl, rfl, by simp, h⟩

theorem inString_high (hs : inString r.state = true) (hhigh : r.unicodeHighSurrogate ≠ 0) :
    InString r t u ↔ r.utf8BytesRemaining = 0 ∧ LowRest r.unicodeHighSurrogate t u := by
  unfold InString
  unfold inString at hs
  split at hs <;> simp_all

theorem InString.char (hs : inString r.state = true)
    (hhigh : r.unicodeHighSurrogate = 0) (hlow : 32 ≤ b.toNat) (hquote : b.toNat ≠ '"'.toNat)
    (hback : b.toNat ≠ '\\'.toNat) (hadd : r.stringAddChar b.toNat = some r')
    (h : InString r' t u) : ∃ u', InString r (b :: t) u' ∧ r.string ++ u' = r'.string ++ u := by
  have hb : UInt8.ofNat b.toNat = b := UInt8.ofNat_toNat
  refine ⟨b :: u, ?_⟩
  rcases stringAddChar_some b.toNat_lt hadd with ⟨hrem, k, hlead, rfl⟩ | ⟨k, hrem, hcont, rfl⟩
  · refine ⟨?_, by simp [pushByte, hb]⟩
    obtain ⟨q, t', u', rfl, rfl, hq, hchars⟩ :=
      (inString_eq (r := r.pushByte b.toNat k b.toNat) hs hhigh).1 h
    obtain ⟨n, hn, henc⟩ := Utf8.exists_encode hlead hq
    have hascii : n < 0x80 → n = b.toNat := fun hlt => by
      rw [Utf8.encode_ascii hlt] at henc
      rw [← (List.cons.inj henc).1, Utf8.toNat_ofNat (by omega)]
    rw [inString_clean hs hhigh hrem]
    have := Chars.plain hn (by omega) (fun h => hquote (by rw [← hascii (h ▸ by decide), h]))
      (fun h => hback (by rw [← hascii (h ▸ by decide), h])) hchars
    rwa [henc] at this
  · refine ⟨?_, by simp [pushByte, hb]⟩
    obtain ⟨q, t', u', rfl, rfl, hq, hchars⟩ :=
      (inString_eq (r := r.pushByte b.toNat k r.utf8FirstByte) hs hhigh).1 h
    rw [inString_eq hs hhigh, hrem]
    exact ⟨b :: q, t', u', rfl, rfl, ⟨hcont, hq⟩, hchars⟩

theorem InString.backslash (hs : inString r.state = true)
    (hr' : r' = { r with
      escapedStringWasKey := r.state = .objectKeyString, state := .stringEscape })
    (h : InString r' t u) : InString r (ch '\\' :: t) u := by
  subst hr'
  obtain ⟨hrem, h⟩ := h
  by_cases hhigh : r.unicodeHighSurrogate = 0
  · rw [inString_clean hs hhigh hrem]
    simpa [hhigh] using h
  · rw [inString_high hs hhigh]
    exact ⟨hrem, by simpa [hhigh] using h⟩

theorem mem_escapes :
    ∀ e, escapedByte b.toNat = some e → (b, UInt8.ofNat e) ∈ escapes ∧ e < 0x80 := by
  have : (escapedByte b.toNat).all fun e => (b, UInt8.ofNat e) ∈ escapes ∧ e < 0x80 :=
    forall_byte (P := fun b => (escapedByte b.toNat).all fun e =>
      (b, UInt8.ofNat e) ∈ escapes ∧ e < 0x80) (by decide +kernel) b
  intro e he
  simpa [he] using this

theorem inString_stringState : inString r.stringState = true := by
  unfold stringState
  split <;> rfl

theorem InString.escape {e : Nat}
    (hs : r.state = .stringEscape) (hhigh : r.unicodeHighSurrogate = 0)
    (he : escapedByte b.toNat = some e) (hadd : (r.goto r.stringState).stringAddChar e = some r')
    (h : InString r' t u) : ∃ u', InString r (b :: t) u' ∧ r.string ++ u' = r'.string ++ u := by
  obtain ⟨hmem, hlt⟩ := mem_escapes e he
  rcases stringAddChar_some (by omega) hadd with ⟨hrem, k, hlead, rfl⟩ | ⟨k, hrem, hcont, rfl⟩
  · obtain rfl : k = 0 := hlead.unique (.inl ⟨rfl, hlt⟩)
    have hchars := (inString_clean (r := (r.goto r.stringState).pushByte e 0 e)
      inString_stringState hhigh rfl).1 h
    refine ⟨UInt8.ofNat e :: u, ?_, by simp [pushByte, goto]⟩
    simp only [InString, hs, hhigh, if_pos]
    exact ⟨hrem, .escape hmem hchars⟩
  · have := hcont.1
    omega

theorem UnitRest.chars (hx : hex4 x = some n) (h : UnitRest 0 n t u) :
    Chars false (unicodeEscape x ++ t) u := by
  rw [UnitRest, if_pos rfl] at h
  rcases h with ⟨hh, y, m, t', u', rfl, hy, hl, hchars, hu⟩ | ⟨hh, hl, u', hchars, hu⟩
  · rw [hu]
    exact .pair hx hh hy hl hchars
  · rw [hu]
    exact .unicode hx hh hl hchars

theorem InString.escapeU (hs : r.state = .stringEscape)
    (h : InString { r.unbegun with state := .stringEscapeU1, unicodeChar := 0 } t u) :
    InString r (ch 'u' :: t) u := by
  obtain ⟨hrem, x, n, t', rfl, hlen, hx, hunit⟩ := h
  change hexFrom 0 x = some n at hx
  rw [hexFrom_eq hlen] at hx
  simp only [InString, hs]
  refine ⟨hrem, ?_⟩
  split_ifs with hhigh
  · exact UnitRest.chars hx (hhigh ▸ hunit)
  · change UnitRest r.unicodeHighSurrogate n t' u at hunit
    rw [UnitRest, if_neg hhigh] at hunit
    obtain ⟨hl, u', hchars, hu⟩ := hunit
    exact ⟨x, n, t', u', rfl, hx, hl, hchars, hu⟩

theorem HexRest.cons {k : Nat} (hd : hexValue b.toNat = some d) (h : HexRest (r.shift d) k t u) :
    HexRest r (k + 1) (b :: t) u := by
  obtain ⟨x, n, t', rfl, rfl, hx, h⟩ := h
  refine ⟨b :: x, n, t', rfl, rfl, ?_, h⟩
  rw [hexFrom, hd]
  exact hx

theorem InString.hex {state : State}
    (hs : hexNext r.state = some state) (hd : hexValue b.toNat = some d)
    (h : InString ((r.unbegun.shift d).goto state) t u) : InString r (b :: t) u := by
  unfold InString
  cases hst : r.state <;> rw [hst] at hs <;> cases hs <;>
    exact ⟨h.1, HexRest.cons (r := r) hd h.2⟩

theorem InString.hexEnd (hs : r.state = .stringEscapeU4) (hd : hexValue b.toNat = some d)
    (hend : UnicodeEnd (r.unbegun.shift d) r') (h : InString r' t u) :
    ∃ u', InString r (b :: t) u' ∧ r.string ++ u' = r'.string ++ u := by
  have hin {u' : Octets} (hrem : r.utf8BytesRemaining = 0)
      (hunit : UnitRest r.unicodeHighSurrogate (r.shift d).unicodeChar t u') :
      InString r (b :: t) u' := by
    simp only [InString, hs]
    exact ⟨hrem, .cons hd ⟨[], _, t, rfl, rfl, rfl, hunit⟩⟩
  cases hend with
  | high hh hzero =>
    have hne : (r.unbegun.shift d).unicodeChar ≠ 0 := by
      have := hh.1
      omega
    obtain ⟨hrem, hlow⟩ := (inString_high inString_stringState hne).1 h
    refine ⟨u, hin hrem ?_, rfl⟩
    rw [UnitRest, if_pos (show r.unicodeHighSurrogate = 0 from hzero)]
    exact .inl ⟨hh, hlow⟩
  | pair hl hne hrem =>
    have hchars := (inString_clean inString_stringState rfl rfl).1 h
    refine ⟨_, hin hrem ?_, (append_assoc _ _ _).symm⟩
    rw [UnitRest, if_neg (show r.unicodeHighSurrogate ≠ 0 from hne)]
    exact ⟨hl, u, hchars, rfl⟩
  | @scalar f hh hl hzero hrem =>
    have hchars := (inString_clean (r := ((r.unbegun.shift d).pushBytes _ f).goto _)
      inString_stringState hzero rfl).1 h
    refine ⟨_, hin hrem ?_, (append_assoc _ _ _).symm⟩
    rw [UnitRest, if_pos (show r.unicodeHighSurrogate = 0 from hzero)]
    exact .inr ⟨hh, hl, u, hchars, rfl⟩

end GrpcCore.JsonReader
