import GrpcCore.Json.Complete
import GrpcCore.Json.Writer

/-!
# What the writer writes is read back

`parse_dump`: the text that `dump` makes of a value is a text of the reader's dialect that denotes
the value, whatever the indentation.
-/

namespace GrpcCore

open List Option JsonText Utf8

namespace Json

mutual

def depth : Json → Nat
  | .object m => depthMembers m + 1
  | .array l => depthElements l + 1
  | _ => 0

def depthMembers : List (Octets × Json) → Nat
  | [] => 0
  | (_, j) :: m => max (depth j) (depthMembers m)

def depthElements : List Json → Nat
  | [] => 0
  | j :: l => max (depth j) (depthElements l)

end

/-- Valid UTF-8 without a zero byte. -/
def IsText (s : Octets) : Prop :=
  ∃ ns : List Nat, (∀ n ∈ ns, Utf8.IsScalar n ∧ n ≠ 0) ∧ s = ns.flatMap encode

/-- The values that can be written and read: strings and keys are UTF-8 without zero bytes, numbers
are texts that the reader takes, and the members of an object are in the order of their keys. -/
inductive Writable : Json → Prop
  | jsonNull : Writable .jsonNull
  | jsonTrue : Writable .jsonTrue
  | jsonFalse : Writable .jsonFalse
  | number {text : Octets} : ReaderNumber text → Writable (.number text)
  | string {s : Octets} : IsText s → Writable (.string s)
  | array {l : List Json} : (∀ j ∈ l, Writable j) → Writable (.array l)
  | object {m : List (Octets × Json)} : (m.map Prod.fst).Pairwise (· < ·) →
      (∀ p ∈ m, IsText p.1) → (∀ p ∈ m, Writable p.2) → Writable (.object m)

variable {n : Nat} {m : List (Octets × Json)}

theorem depth_le_of_mem {l : List Json} (h : depthElements l ≤ n) :
    ∀ j ∈ l, depth j ≤ n := by
  induction l with
  | nil => simp
  | cons j l ih =>
    rw [depthElements, Nat.max_le] at h
    simpa using ⟨h.1, ih h.2⟩

theorem depth_le_of_mem_members (h : depthMembers m ≤ n) :
    ∀ p ∈ m, depth p.2 ≤ n := by
  induction m with
  | nil => simp
  | cons p m ih =>
    rw [depthMembers, Nat.max_le] at h
    intro q hq
    rcases mem_cons.1 hq with rfl | hq
    · exact h.1
    · exact ih h.2 q hq

theorem insert_last {o : Object} {k : Octets} {v : Json} (h : ∀ p ∈ o, p.1 < k) :
    o.insert k v = o ++ [(k, v)] := by
  induction o with
  | nil => rfl
  | cons p o ih =>
    have hp := h p mem_cons_self
    have hne : k ≠ p.1 := by
      rintro rfl
      exact List.lt_irrefl _ hp
    rw [Object.insert, if_neg (List.lt_asymm hp), if_neg hne,
      ih fun q hq => h q (mem_cons_of_mem _ hq)]
    rfl

/-- Members in the order of their keys are the object. -/
theorem ofMembers_eq (h : (m.map Prod.fst).Pairwise (· < ·)) :
    ofMembers m = m := by
  suffices hgen : ∀ o : Object, (∀ p ∈ o, ∀ q ∈ m, p.1 < q.1) →
      m.foldl (fun o p => o.insert p.1 p.2) o = o ++ m from hgen [] (by simp)
  induction m with
  | nil => simp
  | cons p m ih =>
    obtain ⟨hp, hm⟩ := pairwise_cons.1 h
    intro o ho
    rw [foldl_cons, insert_last fun q hq => ho q hq p mem_cons_self, ih hm]
    · simp
    · intro q hq q' hq'
      rcases mem_append.1 hq with hq | hq
      · exact ho q hq q' (mem_cons_of_mem _ hq')
      · rw [mem_singleton.1 hq]
        exact hp _ (mem_map_of_mem hq')

end Json

namespace JsonWriter

open JsonReader Json

/-! ## Strings -/

theorem hexDigit_hex : ∀ i < 16, hexDigit (hex.getD i 0) = some i := by decide

variable {indent k n u : Nat} {p s t : Octets} {w : JsonWriter} {v : Json} {e : Bool}
  {l : List Json} {m : List (Octets × Json)}

/-- The escape of a code unit has the digits of its number. -/
theorem escapeUtf16_eq (h : u < 0x10000) :
    ∃ x, escapeUtf16 u = unicodeEscape x ∧ hex4 x = some u := by
  refine ⟨[hex.getD ((u >>> 12) &&& 0x0f) 0, hex.getD ((u >>> 8) &&& 0x0f) 0,
    hex.getD ((u >>> 4) &&& 0x0f) 0, hex.getD (u &&& 0x0f) 0], rfl, ?_⟩
  have hmod (a : Nat) : a &&& 0x0f = a % 16 := Nat.and_two_pow_sub_one_eq_mod a 4
  simp only [hmod, Nat.shiftRight_eq_div_pow, hex4]
  rw [hexDigit_hex _ (Nat.mod_lt _ (by decide)), hexDigit_hex _ (Nat.mod_lt _ (by decide)),
    hexDigit_hex _ (Nat.mod_lt _ (by decide)), hexDigit_hex _ (Nat.mod_lt _ (by decide))]
  simp only [bind_eq_bind, bind_some, some.injEq]
  omega

theorem continuation_succ {x : Nat} (hx : x < 64) :
    continuation (k + 1) u (UInt8.ofNat (0x80 + x) :: s) = continuation k (u * 64 + x) s := by
  have hc : (UInt8.ofNat (0x80 + x)).toNat = 0x80 + x := toNat_ofNat (by omega)
  have hmask : (0x80 + x) &&& 0x3f = x := by
    rw [Nat.and_two_pow_sub_one_eq_mod _ 6]
    omega
  rw [continuation, hc, if_neg (not_not.2 ((masks _ (by omega)).2.2.2.2.2 (by omega))), hmask,
    Nat.shiftLeft_eq, Nat.mul_comm u, mark_or (i := 6) hx]

theorem continuation_lastBytes :
    continuation k u (lastBytes n k ++ s) = some (u * 64 ^ k + n % 64 ^ k, s) := by
  induction k generalizing u with
  | zero => simp [lastBytes, continuation, Nat.mod_one]
  | succ k ih =>
    rw [lastBytes, cons_append, continuation_succ (Nat.mod_lt _ (by decide)), ih, Nat.mod_pow_succ]
    congr 2
    grind

theorem leadByte_mark : ∀ k ≤ 2, ∀ u < 2 ^ (5 - k), leadByte (mark k + u) = some (u, k + 1) ∧
    0x80 ≤ mark k + u ∧ mark k + u < 256 := by decide

theorem decode_form (hk : k ≤ 2) (hn : n < bound (k + 1)) :
    ∃ b q u, form n k = b :: q ∧ 0x80 ≤ b.toNat ∧ leadByte b.toNat = some (u, k + 1) ∧
      ∀ s, continuation (k + 1) u (q ++ s) = some (n, s) := by
  rw [bound_succ k hk] at hn
  obtain ⟨hlead, hle, hlt⟩ := leadByte_mark k hk _ (Nat.div_lt_of_lt_mul hn)
  have hb := toNat_ofNat hlt
  refine ⟨_, _, n / 64 ^ (k + 1), form_eq hk, by omega, by rw [hb, hlead], fun s => ?_⟩
  rw [continuation_lastBytes, Nat.div_add_mod']

/-- A character in any of its forms is escaped as the code point. -/
theorem escapeChars_form (s : Octets) (hk : k ≤ 2) (hn : Utf8.IsScalar n)
    (hlt : n < bound (k + 1)) :
    escapeChars (form n k ++ s) = escapeUtf32 n ++ escapeChars s := by
  obtain ⟨b, q, u, hform, hb, hlead, hcont⟩ := decode_form hk hlt
  have hne : b ≠ 0 := by
    rintro rfl
    exact absurd hb (by decide)
  have hne' : b ≠ 127 := by
    rintro rfl
    exact absurd hb (by decide)
  rw [hform, cons_append, escapeChars, if_neg hne, if_neg (by omega),
    if_neg (fun h => h.elim (by omega) hne'), hlead]
  simp only
  split <;> rename_i heq <;> rw [hcont] at heq <;> cases heq
  rw [if_neg (by unfold Utf8.IsScalar at hn; omega)]

/-- The escape of a scalar value denotes its encoding. -/
theorem chars_escapeUtf32 (hn : Utf8.IsScalar n) (h : Chars false s t) :
    Chars false (escapeUtf32 n ++ s) (encode n ++ t) := by
  unfold Utf8.IsScalar at hn
  unfold escapeUtf32
  split_ifs with hbig
  · have hhi : 0xd800 ||| (n - 0x10000) >>> 10 = 0xd800 + (n - 0x10000) / 1024 := by
      rw [Nat.shiftRight_eq_div_pow]
      exact mark_or (i := 10) (a := 54) (by omega)
    have hlo : 0xdc00 ||| ((n - 0x10000) &&& 0x3ff) = 0xdc00 + (n - 0x10000) % 1024 := by
      rw [Nat.and_two_pow_sub_one_eq_mod _ 10]
      exact mark_or (i := 10) (a := 55) (Nat.mod_lt _ (by decide))
    obtain ⟨x, hx, hx'⟩ := escapeUtf16_eq (u := 0xd800 + (n - 0x10000) / 1024) (by omega)
    obtain ⟨y, hy, hy'⟩ := escapeUtf16_eq (u := 0xdc00 + (n - 0x10000) % 1024) (by omega)
    rw [hhi, hlo, hx, hy, append_assoc]
    have hpair : surrogatePair (0xd800 + (n - 0x10000) / 1024)
        (0xdc00 + (n - 0x10000) % 1024) = n := by
      unfold surrogatePair
      omega
    have := Chars.pair hx' (by unfold IsHigh; omega) hy' (by unfold IsLow; omega) h
    rwa [hpair] at this
  · obtain ⟨x, hx, hx'⟩ := escapeUtf16_eq (u := n) (by omega)
    rw [hx]
    exact .unicode hx' (by unfold IsHigh; omega) (by unfold IsLow; omega) h

/-- A control character is escaped by a letter or by its number. -/
theorem chars_escapeControl (hn : n < 32 ∨ n = 127)
    (h : Chars false s t) : Chars false (escapeControl n ++ s) (UInt8.ofNat n :: t) := by
  unfold escapeControl
  split_ifs with h1 h2 h3 h4 h5
  · subst h1
    exact .escape (e := ch 'b') (by decide) h
  · subst h2
    exact .escape (e := ch 'f') (by decide) h
  · subst h3
    exact .escape (e := ch 'n') (by decide) h
  · subst h4
    exact .escape (e := ch 'r') (by decide) h
  · subst h5
    exact .escape (e := ch 't') (by decide) h
  · obtain ⟨x, hx, hx'⟩ := escapeUtf16_eq (u := n) (by omega)
    have := Chars.unicode hx' (by unfold IsHigh; omega) (by unfold IsLow; omega) h
    rw [hx]
    rwa [encode_ascii (by omega)] at this

/-- What is written for one character denotes it. -/
theorem chars_escapeChars_cons (hn : Utf8.IsScalar n) (h0 : n ≠ 0)
    (h : Chars false (escapeChars s) t) :
    Chars false (escapeChars (encode n ++ s)) (encode n ++ t) := by
  by_cases h80 : n < 0x80
  · rw [encode_ascii h80, singleton_append, singleton_append, escapeChars]
    have hb : (UInt8.ofNat n).toNat = n := toNat_ofNat (by omega)
    have hne : UInt8.ofNat n ≠ 0 := fun h => h0 (by rw [← hb, h]; rfl)
    rw [if_neg hne, hb]
    split_ifs with hplain hspecial hctl
    · rcases hspecial with heq | heq
      · rw [heq]
        exact .escape (e := ch '\\') (by decide) h
      · rw [heq]
        exact .escape (e := ch '"') (by decide) h
    · have := Chars.plain hn hplain.1 (fun h => hspecial (.inr (by rw [h]; rfl)))
        (fun h => hspecial (.inl (by rw [h]; rfl))) h
      rwa [encode_ascii h80] at this
    · refine chars_escapeControl ?_ h
      omega
    · exfalso
      have : n = 127 := by omega
      exact hctl (.inr (by rw [this]; rfl))
  · obtain ⟨k, hk, hle, hlt⟩ := exists_bound hn (Nat.le_of_not_lt h80)
    have := chars_escapeUtf32 hn h
    rwa [encode_eq_form hk hle hlt, escapeChars_form s hk hn hlt,
      ← encode_eq_form hk hle hlt]

theorem chars_escapeChars_append (hp : IsText p)
    (h : Chars false (escapeChars s) t) : Chars false (escapeChars (p ++ s)) (p ++ t) := by
  obtain ⟨ns, hns, rfl⟩ := hp
  induction ns with
  | nil => exact h
  | cons n ns ih =>
    obtain ⟨⟨hn, h0⟩, hns⟩ := forall_mem_cons.1 hns
    rw [flatMap_cons, append_assoc, append_assoc]
    exact chars_escapeChars_cons hn h0 (ih hns)

theorem chars_escapeChars (h : IsText s) : Chars false (escapeChars s) s := by
  have hnil : Chars false (escapeChars []) [] := by
    rw [escapeChars]
    exact .nil
  have := chars_escapeChars_append h hnil
  rwa [append_nil] at this

/-! ## Separators and indentation -/

theorem outputString_outputString :
    (w.outputString s).outputString t = w.outputString (s ++ t) := by
  simp [outputString]

theorem ws_replicate : Ws (List.replicate n 32) := by
  intro b hb
  rw [eq_of_mem_replicate hb]
  decide

theorem ws_newline : Ws [10] := forall_mem_singleton.2 (by decide)

theorem ws_append (hs : Ws s) (ht : Ws t) : Ws (s ++ t) := by
  intro b hb
  exact (mem_append.1 hb).elim (hs b) (ht b)

theorem exists_outputSpaces :
    ∃ t, Ws t ∧ w.outputSpaces n = w.outputString t := by
  induction n using Nat.strongRecOn generalizing w with
  | ind n ih =>
    rw [outputSpaces]
    split_ifs with h64 h0
    · have hlen : spacesstr.length = 64 := rfl
      obtain ⟨t, ht, heq⟩ := ih (n - spacesstr.length) (by omega) (w := w.outputString spacesstr)
      exact ⟨spacesstr ++ t, ws_append ws_replicate ht, by rw [heq, outputString_outputString]⟩
    · exact ⟨[], ws_nil, by simp [outputString]⟩
    · refine ⟨_, ?_, rfl⟩
      rw [spacesstr, drop_replicate]
      exact ws_replicate

theorem exists_outputIndent : ∃ t, Ws t ∧ w.outputIndent = w.outputString t := by
  unfold outputIndent
  split_ifs
  · exact ⟨[], ws_nil, by simp [outputString]⟩
  · exact ⟨[32], ws_replicate (n := 1), rfl⟩
  · exact exists_outputSpaces

def comma (w : JsonWriter) : Octets := if w.gotKey ∨ w.containerEmpty then [] else [ch ',']

theorem exists_valueEnd (h : w.gotKey = false) :
    ∃ t, Ws t ∧ w.valueEnd = outputString { w with containerEmpty := false } (w.comma ++ t) := by
  unfold valueEnd comma
  simp only [h, Bool.false_eq_true, false_or]
  split_ifs
  · exact ⟨[], ws_nil, by simp [outputString]⟩
  · exact ⟨[10], ws_newline, rfl⟩
  · exact ⟨[], ws_nil, by simp_all [outputString, outputChar]⟩
  · exact ⟨[10], ws_newline, by simp_all [outputString, outputChar]⟩

/-- The writer between the values of a container. -/
structure Ready (w : JsonWriter) : Prop where
  key : w.gotKey = true → w.containerEmpty = false

/-- What is written before a value. -/
theorem exists_beginValue (h : Ready w) :
    ∃ t, Ws t ∧ w.beginValue = outputString { w with containerEmpty := false } (w.comma ++ t) := by
  unfold beginValue
  by_cases hk : w.gotKey = true
  · obtain ⟨t, ht, heq⟩ := exists_outputIndent (w := w)
    refine ⟨t, ht, ?_⟩
    rw [if_pos hk, heq, comma, if_pos (.inl hk), nil_append, ← h.key hk]
  · obtain ⟨t, ht, heq⟩ := exists_valueEnd (by simpa using hk)
    obtain ⟨t', ht', heq'⟩ := exists_outputIndent (w := w.valueEnd)
    refine ⟨t ++ t', ws_append ht ht', ?_⟩
    rw [if_neg hk, heq', heq, outputString_outputString, append_assoc]

/-- A value has been written: the text before it, and its own. -/
def Wrote (w w' : JsonWriter) (n : Nat) (v : Json) : Prop :=
  ∃ t body e, Ws t ∧ Value .reader n body v e ∧
    w' = { w with
      output := w.output ++ (w.comma ++ (t ++ body))
      containerEmpty := false
      gotKey := false }

theorem wrote_raw (h : Ready w) (hv : Value .reader n s v e) : Wrote w (w.valueRaw s) n v := by
  obtain ⟨t, ht, heq⟩ := exists_beginValue h
  refine ⟨t, s, e, ht, hv, ?_⟩
  rw [valueRaw, heq, outputString_outputString]
  simp [outputString]

theorem wrote_string (h : Ready w)
    (hs : Chars false (escapeChars s) p) : Wrote w (w.valueString s) n (.string p) := by
  obtain ⟨t, ht, heq⟩ := exists_beginValue h
  refine ⟨t, _, false, ht, .string hs, ?_⟩
  rw [valueString, heq]
  simp [outputString, escapeString, outputChar]

/-! ## Containers -/

theorem exists_containerBegins (h : Ready w) (bracket : UInt8) :
    ∃ t, Ws t ∧ w.containerBegins bracket =
      { w with
        output := w.output ++ (w.comma ++ (t ++ [bracket]))
        containerEmpty := true
        gotKey := false
        depth := w.depth + 1 } := by
  obtain ⟨t, ht, heq⟩ := exists_beginValue h
  refine ⟨t, ht, ?_⟩
  rw [containerBegins, heq]
  simp [outputString, outputChar]

theorem exists_endLine :
    ∃ t, Ws t ∧ (w.containerEmpty = true → t = []) ∧ w.endLine = w.outputString t := by
  unfold endLine
  split_ifs with h
  · exact ⟨[10], ws_newline, fun he => absurd he h.2, rfl⟩
  · exact ⟨[], ws_nil, fun _ => rfl, by simp [outputString]⟩

/-- The bracket that closes a container, after white space unless it is empty. -/
theorem exists_containerEnds (w : JsonWriter) (bracket : UInt8) :
    ∃ t, Ws t ∧ (w.containerEmpty = true → t = []) ∧ w.containerEnds bracket =
      { w with
        output := w.output ++ (t ++ [bracket])
        containerEmpty := false
        gotKey := false
        depth := w.depth - 1 } := by
  obtain ⟨t, ht, hempty, heq⟩ := exists_endLine (w := w)
  unfold containerEnds
  rw [heq]
  cases he : w.containerEmpty
  · obtain ⟨t', ht', heq'⟩ := exists_outputIndent
      (w := { w with output := w.output ++ t, depth := w.depth - 1, containerEmpty := false })
    refine ⟨t ++ t', ws_append ht ht', (fun h => nomatch h), ?_⟩
    simp [outputChar, outputString, he, heq']
  · refine ⟨t, ht, fun _ => hempty he, ?_⟩
    simp [outputChar, outputString, he]

theorem wrote_empty {b c : UInt8} (h : Ready w) (hv : Value .reader n [b, c] v true) :
    Wrote w ((w.containerBegins b).containerEnds c) n v := by
  obtain ⟨t, ht, hbegin⟩ := exists_containerBegins h b
  obtain ⟨wt, -, hwt, hend⟩ := exists_containerEnds (w.containerBegins b) c
  refine ⟨t, [b, c], true, ht, hv, ?_⟩
  rw [hend, hwt (by rw [hbegin]), hbegin]
  simp

/-- The elements after the first one, each after a comma. -/
theorem wrote_moreElements (hl : ∀ j ∈ l, ∀ w, Ready w → Wrote w (dumpValue w j) n j)
    (hk : w.gotKey = false) (he : w.containerEmpty = false) :
    ∃ t e', dumpElements w l = w.outputString t ∧
      ∀ wt, Ws wt → MoreElements .reader n e (t ++ wt) l e' := by
  induction l generalizing w e with
  | nil => exact ⟨[], e, by simp [dumpElements, outputString], fun wt hwt => .done hwt⟩
  | cons j l ih =>
    obtain ⟨hj, hl⟩ := forall_mem_cons.1 hl
    obtain ⟨t, body, e₁, ht, hv, heq⟩ := hj w ⟨fun h => by simp [hk] at h⟩
    obtain ⟨t', e', heq', hmore⟩ := ih hl (w := dumpValue w j) (e := e₁) (by rw [heq]) (by rw [heq])
    refine ⟨ch ',' :: (t ++ (body ++ t')), e', ?_, fun wt hwt => ?_⟩
    · rw [dumpElements, heq', heq]
      simp [outputString, comma, hk, he]
    · have := MoreElements.comma (e := e) ws_nil ht hv (hmore wt hwt)
      simpa using this

/-- An array, when each of its elements is written. -/
theorem wrote_array (hl : ∀ j ∈ l, ∀ w, Ready w → Wrote w (dumpValue w j) n j) (h : Ready w) :
    Wrote w (dumpValue w (.array l)) (n + 1) (.array l) := by
  obtain ⟨t, ht, hbegin⟩ := exists_containerBegins h 91
  rw [dumpValue]
  cases l with
  | nil =>
    rw [dumpElements]
    exact wrote_empty h (.emptyArray (w := []) ws_nil)
  | cons j l =>
    obtain ⟨hj, hl⟩ := forall_mem_cons.1 hl
    obtain ⟨t₁, body, e, ht₁, hv, heq⟩ := hj (w.containerBegins 91) ⟨fun h => by simp [hbegin] at h⟩
    obtain ⟨t₂, e', heq', hmore⟩ := wrote_moreElements hl (w := dumpValue (w.containerBegins 91) j)
      (e := e) (by rw [heq]) (by rw [heq])
    obtain ⟨wt, hws, -, hend⟩ := exists_containerEnds
      (dumpElements (w.containerBegins 91) (j :: l)) 93
    refine ⟨t, _, e', ht, .array ht₁ hv (hmore wt hws), ?_⟩
    rw [hend, dumpElements, heq', heq, comma, if_pos (.inr (by rw [hbegin])), hbegin]
    simp [outputString]

/-- A key and its value. -/
theorem wrote_member {key : Octets} {j : Json} (hkey : IsText key)
    (hj : ∀ w, Ready w → Wrote w (dumpValue w j) n j) (hk : w.gotKey = false) :
    ∃ t t' body e, Ws t ∧ Ws t' ∧ Chars false (escapeChars key) key ∧ Value .reader n body j e ∧
      dumpValue (w.objectKey key) j =
        { w with
          output := w.output ++ (w.comma ++ (t ++ ch '"' :: (escapeChars key ++ ch '"' :: ([] ++
            ch ':' :: (t' ++ body)))))
          containerEmpty := false
          gotKey := false } := by
  obtain ⟨t₁, ht₁, heq₁⟩ := exists_valueEnd hk
  obtain ⟨t₂, ht₂, heq₂⟩ := exists_outputIndent (w := w.valueEnd)
  obtain ⟨t', body, e, ht', hv, heq⟩ := hj (w.objectKey key)
    ⟨fun _ => by rw [objectKey, heq₂, heq₁]; rfl⟩
  refine ⟨t₁ ++ t₂, t', body, e, ws_append ht₁ ht₂, ht', chars_escapeChars hkey, hv, ?_⟩
  rw [heq, comma, if_pos (.inl rfl), objectKey, heq₂, heq₁]
  simp [outputString, outputChar, escapeString]

theorem wrote_moreMembers (hkeys : ∀ p ∈ m, IsText p.1)
    (hm : ∀ p ∈ m, ∀ w, Ready w → Wrote w (dumpValue w p.2) n p.2)
    (hk : w.gotKey = false) (he : w.containerEmpty = false) :
    ∃ t e', dumpMembers w m = w.outputString t ∧
      ∀ wt, Ws wt → MoreMembers .reader n e (t ++ wt) m e' := by
  induction m generalizing w e with
  | nil => exact ⟨[], e, by simp [dumpMembers, outputString], fun wt hwt => .done hwt⟩
  | cons p m ih =>
    obtain ⟨key, j⟩ := p
    obtain ⟨hkey, hkeys⟩ := forall_mem_cons.1 hkeys
    obtain ⟨hj, hm⟩ := forall_mem_cons.1 hm
    obtain ⟨t, t', body, e₁, ht, ht', hchars, hv, heq⟩ := wrote_member hkey hj hk
    obtain ⟨t₂, e', heq', hmore⟩ := ih hkeys hm (w := dumpValue (w.objectKey key) j) (e := e₁)
      (by rw [heq]) (by rw [heq])
    refine ⟨ch ',' :: (t ++ ch '"' :: (escapeChars key ++ ch '"' :: ([] ++ ch ':' :: (t' ++ (body ++
      t₂))))), e', ?_, fun wt hwt => ?_⟩
    · rw [dumpMembers, heq', heq]
      simp [outputString, comma, hk, he]
    · have := MoreMembers.comma (e := e) ws_nil (.member ht ws_nil ht' hchars hv (hmore wt hwt))
      simpa using this

/-- An object, when each of its values is written. -/
theorem wrote_object (hkeys : ∀ p ∈ m, IsText p.1) (hsorted : (m.map Prod.fst).Pairwise (· < ·))
    (hm : ∀ p ∈ m, ∀ w, Ready w → Wrote w (dumpValue w p.2) n p.2)
    (h : Ready w) : Wrote w (dumpValue w (.object m)) (n + 1) (.object m) := by
  obtain ⟨t, ht, hbegin⟩ := exists_containerBegins h 123
  rw [dumpValue]
  cases m with
  | nil =>
    rw [dumpMembers]
    exact wrote_empty h (.emptyObject (w := []) ws_nil)
  | cons p m =>
    have hnodup : ((p :: m).map Prod.fst).Nodup :=
      hsorted.imp fun {a b} (hlt : a < b) (heq : a = b) => List.lt_irrefl b (heq ▸ hlt)
    obtain ⟨key, j⟩ := p
    obtain ⟨hkey, hkeys⟩ := forall_mem_cons.1 hkeys
    obtain ⟨hj, hm⟩ := forall_mem_cons.1 hm
    obtain ⟨t₁, t', body, e, ht₁, ht', hchars, hv, heq⟩ := wrote_member hkey hj
      (w := w.containerBegins 123) (by rw [hbegin])
    obtain ⟨t₂, e', heq', hmore⟩ := wrote_moreMembers hkeys hm
      (w := dumpValue ((w.containerBegins 123).objectKey key) j) (e := e)
        (by rw [heq]) (by rw [heq])
    obtain ⟨wt, hws, -, hend⟩ := exists_containerEnds
      (dumpMembers (w.containerBegins 123) ((key, j) :: m)) 125
    have hv := Value.object (.member ht₁ ws_nil ht' hchars hv (hmore wt hws)) hnodup
    rw [ofMembers_eq hsorted] at hv
    refine ⟨t, _, e', ht, hv, ?_⟩
    rw [hend, dumpMembers, heq', heq, comma, if_pos (.inr (by rw [hbegin])), hbegin]
    simp [outputString]

/-! ## Values -/

/-- Every value that can be written is, in any state between values. -/
theorem wrote_value (hv : Writable v) (hn : v.depth ≤ n)
    (h : Ready w) : Wrote w (dumpValue w v) n v := by
  induction hv generalizing n w with
  | jsonNull => exact wrote_raw h .jsonNull
  | jsonTrue => exact wrote_raw h .jsonTrue
  | jsonFalse => exact wrote_raw h .jsonFalse
  | number ht => exact wrote_raw h (.number ht)
  | string hs => exact wrote_string h (chars_escapeChars hs)
  | array _ ih =>
    obtain ⟨n, rfl⟩ : ∃ k, n = k + 1 := ⟨n - 1, by rw [Json.depth] at hn; omega⟩
    have hdepth := depth_le_of_mem (Nat.le_of_succ_le_succ hn)
    exact wrote_array (fun j hj w hw => ih j hj (hdepth j hj) hw) h
  | object hsorted hkeys _ ih =>
    obtain ⟨n, rfl⟩ : ∃ k, n = k + 1 := ⟨n - 1, by rw [Json.depth] at hn; omega⟩
    have hdepth := depth_le_of_mem_members (Nat.le_of_succ_le_succ hn)
    exact wrote_object hkeys hsorted (fun p hp w hw => ih p hp (hdepth p hp) hw) h

theorem ready_init : Ready { indent := indent } := ⟨fun h => nomatch h⟩

theorem parse_of_wrote {v' : Json}
    (h : Wrote { indent := indent } (dumpValue { indent := indent } v) 255 v') :
    parse (dump v indent) = .ok v' := by
  obtain ⟨t, body, e, ht, hbody, heq⟩ := h
  refine parse_iff.2 ⟨t, body, [], e, ?_, ht, hbody, [], [], rfl, ws_nil, .inl rfl⟩
  rw [dump, heq]
  simp [comma]

/-- A value that is written and read is the value. -/
theorem parse_dump (v : Json) (indent : Nat) (hv : Writable v) (hdepth : v.depth ≤ 255)
    (_hindent : v.depth * indent < 2 ^ 31) : parse (dump v indent) = .ok v :=
  parse_of_wrote (wrote_value hv hdepth ready_init)

/-- An object with a number, a character beyond the first plane, and an empty object. -/
def nested : Json :=
  .object [(octets "a", .array [.number (octets "-1.5"), .string (encode 0x1d11e)]),
    (octets "b", .object [])]

theorem writable_nested : Writable nested := by
  have htext (n : Nat) (hn : Utf8.IsScalar n ∧ n ≠ 0) : IsText (encode n) :=
    ⟨[n], by simpa using hn, by simp⟩
  have hnumber : ReaderNumber (octets "-1.5") :=
    readerNumber_iff.2 ⟨.valueNumberWithDecimal, by decide, by decide⟩
  refine .object (by decide) ?_ ?_
  · simp only [forall_mem_cons, not_mem_nil, false_imp_iff, implies_true, and_true]
    exact ⟨htext 97 (by decide), htext 98 (by decide)⟩
  · simp only [forall_mem_cons, not_mem_nil, false_imp_iff, implies_true, and_true]
    refine ⟨.array ?_, .object (by decide) (by simp) (by simp)⟩
    simp only [forall_mem_cons, not_mem_nil, false_imp_iff, implies_true, and_true]
    exact ⟨.number hnumber, .string (htext _ (by decide))⟩

theorem parse_dump_nested :
    Writable nested ∧ nested.depth = 2 ∧ parse (dump nested 2) = .ok nested :=
  ⟨writable_nested, by decide, parse_dump nested 2 writable_nested (by decide) (by decide)⟩

end JsonWriter

end GrpcCore
