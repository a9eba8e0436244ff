import GrpcCore.Json.Number

/-!
# What a byte does to the reader

The functions of the reader, each with its effect: on the tree that is built, on the errors, and on
the string that is collected.
-/

namespace GrpcCore.JsonReader

open Option JsonText

/-! ## The tree -/

/-- The part of a value that is there: the root, and the containers that are open. -/
abbrev Tree := Json × List Frame

def tree (r : JsonReader) : Tree := (r.rootValue, r.stack)

def withTree (r : JsonReader) (t : Tree) : JsonReader := { r with rootValue := t.1, stack := t.2 }

/-- A value is put into the innermost container. -/
def put (key : Octets) (v : Json) : Tree → Tree
  | (_, []) => (v, [])
  | (root, ⟨k, .object o⟩ :: stack) => (root, ⟨k, .object (o.insert key v)⟩ :: stack)
  | (root, ⟨k, .array l⟩ :: stack) => (root, ⟨k, .array (l ++ [v])⟩ :: stack)

def Container.toJson : Container → Json
  | .object o => .object o
  | .array l => .array l

def close : Tree → Tree
  | (root, []) => (root, [])
  | (root, ⟨k, c⟩ :: stack) => put k c.toJson (root, stack)

/-- The innermost container has no value under the key. -/
def Fresh (key : Octets) : List Frame → Prop
  | ⟨_, .object o⟩ :: _ => o.find key = none
  | _ => True

variable {key : Octets} {v : Json} {r r' : JsonReader} {f : Json → Json} {c k n : Nat}

@[simp]
theorem length_put {t : Tree} : (put key v t).2.length = t.2.length := by
  obtain ⟨root, _ | ⟨⟨k, o | l⟩, stack⟩⟩ := t <;> rfl

theorem link_const :
    r.link key (fun _ => v) = r.withTree (put key v r.tree) := by
  simp only [link]
  split <;> rename_i h <;> simp [withTree, tree, put, h]

theorem link_id (hfresh : Fresh key r.stack) (hroot : r.stack = [] → r.rootValue = .jsonNull) :
    r.link key id = r.withTree (put key .jsonNull r.tree) := by
  simp only [link]
  split <;> rename_i h
  · simp [withTree, tree, put, h, hroot h]
  · rw [h, Fresh] at hfresh
    simp [withTree, tree, put, h, hfresh]
  · simp [withTree, tree, put, h]

theorem endContainer_eq : r.endContainer = r.withTree (close r.tree) := by
  unfold endContainer
  split <;> rename_i h
  · simp [withTree, tree, close, h]
    cases r
    simp_all
  · rw [link_const]
    simp [withTree, tree, close, h, Container.toJson]
  · rw [link_const]
    simp [withTree, tree, close, h, Container.toJson]

/-! ## Errors -/

def Clean (r : JsonReader) : Prop := r.errors = [] ∧ r.truncatedErrors = false

theorem reported_isEmpty_iff : r.reported.isEmpty = true ↔ r.Clean := by
  unfold reported Clean
  cases r.truncatedErrors <;> simp

theorem not_clean_addError {error : Octets} : ¬ (r.addError error).Clean := by
  unfold addError Clean
  split <;> simp

theorem checkKey_eq (h : Fresh r.key r.stack) : r.checkKey = r := by
  unfold checkKey
  split
  · rename_i hs
    rw [hs, Fresh] at h
    simp [h]
  · rfl

theorem fresh_of_clean (h : r.checkKey.Clean) : Fresh r.key r.stack := by
  unfold checkKey at h
  split at h
  · rename_i hs
    split_ifs at h with hfind
    · exact absurd h not_clean_addError
    · rw [hs, Fresh]
      simpa using hfind
  · rename_i hne
    unfold Fresh
    split
    · rename_i k o stack hs
      exact absurd hs (hne k o stack)
    · trivial

/-! ## Values -/

def putScalar (r : JsonReader) (v : Json) : JsonReader :=
  { r.withTree (put r.key v r.tree) with string := [] }

theorem setValue_eq (h : Fresh r.key r.stack) :
    r.setValue (fun _ => v) = r.putScalar v := by
  rw [setValue, checkKey_eq h, link_const]
  rfl

theorem clean_link :
    (r.link key f).Clean ↔ r.Clean := by
  unfold link
  split <;> rfl

theorem clean_setValue (h : (r.setValue f).Clean) :
    Fresh r.key r.stack ∧ r.Clean := by
  have hc : r.checkKey.Clean := clean_link.1 h
  have hf := fresh_of_clean hc
  rw [checkKey_eq hf] at hc
  exact ⟨hf, hc⟩

theorem setNull_eq (hfresh : Fresh r.key r.stack) (hroot : r.stack = [] → r.rootValue = .jsonNull) :
    r.setNull = r.withTree (put r.key .jsonNull r.tree) := by
  rw [setNull, checkKey_eq hfresh, link_id hfresh hroot]

theorem clean_setNull (h : r.setNull.Clean) : Fresh r.key r.stack ∧ r.Clean := by
  have hc : r.checkKey.Clean := clean_link.1 h
  have hf := fresh_of_clean hc
  rw [checkKey_eq hf] at hc
  exact ⟨hf, hc⟩

def push (r : JsonReader) (c : Container) : JsonReader :=
  { r with stack := ⟨r.key, c⟩ :: r.stack }

theorem startContainer_eq {c : Container} (hlen : r.stack.length ≠ 255)
    (h : Fresh r.key r.stack) : r.startContainer c = .ok (r.push c) := by
  rw [startContainer, if_neg (show ¬ r.stack.length = grpcJsonMaxDepth from hlen), checkKey_eq h]
  rfl

theorem startContainer_ok {c : Container} (h : r.startContainer c = .ok r')
    (hc : r'.Clean) : r.stack.length ≠ 255 ∧ Fresh r.key r.stack ∧ r' = r.push c ∧ r.Clean := by
  unfold startContainer at h
  split_ifs at h with hlen
  cases h
  have hf := fresh_of_clean (r := r) hc
  simp only [checkKey_eq hf] at hc
  refine ⟨hlen, hf, ?_, hc⟩
  rw [checkKey_eq hf]
  rfl

/-! ## Strings -/

theorem masks : ∀ c < 256, (c &&& 0x80 = 0 ↔ c < 0x80) ∧
    (c &&& 0xe0 = 0xc0 ↔ 0xc0 ≤ c ∧ c < 0xe0) ∧ (c &&& 0xf0 = 0xe0 ↔ 0xe0 ≤ c ∧ c < 0xf0) ∧
    (c &&& 0xf8 = 0xf0 ↔ 0xf0 ≤ c ∧ c < 0xf8) ∧ (c &&& 0xc0 = 0x80 ↔ 0x80 ≤ c ∧ c < 0xc0) := by
  decide +kernel

theorem stringAddChar_lead (hr : r.utf8BytesRemaining = 0)
    (h : Utf8.Lead c k) : r.stringAddChar c = some (r.pushByte c k c) := by
  have hc : c < 256 := by
    unfold Utf8.Lead at h
    omega
  obtain ⟨h1, h2, h3, h4, -⟩ := masks c hc
  rw [stringAddChar, if_pos hr]
  simp only [h1, h2, h3, h4]
  rcases h with ⟨rfl, h⟩ | ⟨rfl, h⟩ | ⟨rfl, h⟩ | ⟨rfl, h⟩
  · rw [if_pos h]
  · rw [if_neg (by omega), if_pos (by omega)]
  · rw [if_neg (by omega), if_neg (by omega), if_pos (by omega)]
  · rw [if_neg (by omega), if_neg (by omega), if_neg (by omega), if_pos (by omega)]

theorem stringAddChar_cont (hr : r.utf8BytesRemaining = k + 1)
    (hk : k < 3) (h : Utf8.Cont r.utf8FirstByte (k + 1) c) :
    r.stringAddChar c = some (r.pushByte c k r.utf8FirstByte) := by
  obtain ⟨hrange, h2, h3⟩ := h
  obtain ⟨-, -, -, -, h5⟩ := masks c (by omega)
  rw [stringAddChar]
  simp only [hr, ne_eq, h5]
  have hk' : k = 0 ∨ k = 1 ∨ k = 2 := by omega
  rcases hk' with rfl | rfl | rfl
  · rw [if_neg (by omega), if_pos rfl, if_neg (by omega)]
  · have h2 := h2 rfl
    rw [if_neg (by omega), if_neg (by omega), if_pos rfl, if_neg (by omega)]
  · have h3 := h3 rfl
    rw [if_neg (by omega), if_neg (by omega), if_neg (by omega), if_pos rfl, if_neg (by omega)]

theorem stringAddChar_some (hc : c < 256) (h : r.stringAddChar c = some r') :
    (r.utf8BytesRemaining = 0 ∧ ∃ k, Utf8.Lead c k ∧ r' = r.pushByte c k c) ∨
      ∃ k, r.utf8BytesRemaining = k + 1 ∧ Utf8.Cont r.utf8FirstByte (k + 1) c ∧
        r' = r.pushByte c k r.utf8FirstByte := by
  obtain ⟨h1, h2, h3, h4, h5⟩ := masks c hc
  rw [stringAddChar] at h
  simp only [h1, h2, h3, h4, ne_eq, h5] at h
  unfold Utf8.Lead Utf8.Cont
  split_ifs at h with hr
  · exact .inl ⟨hr, 0, by omega, (some.inj h).symm⟩
  · exact .inl ⟨hr, 1, by omega, (some.inj h).symm⟩
  · exact .inl ⟨hr, 2, by omega, (some.inj h).symm⟩
  · exact .inl ⟨hr, 3, by omega, (some.inj h).symm⟩
  · exact .inr ⟨0, by omega, by omega, (some.inj h).symm⟩
  · exact .inr ⟨1, by omega, by omega, (some.inj h).symm⟩
  · exact .inr ⟨2, by omega, by omega, (some.inj h).symm⟩

theorem stringAddChar_none (hr : r.utf8BytesRemaining ≠ 0) (hc : c < 256)
    (h : c < 0x80 ∨ 0xc0 ≤ c) : r.stringAddChar c = none := by
  cases hadd : r.stringAddChar c with
  | none => rfl
  | some r' =>
    rcases stringAddChar_some hc hadd with ⟨h0, -⟩ | ⟨k, -, hcont, -⟩
    · exact absurd h0 hr
    · have := hcont.1
      omega

def pushBytes (r : JsonReader) (bs : Octets) (firstByte : Nat) : JsonReader :=
  { r with
    utf8BytesRemaining := 0
    utf8FirstByte := firstByte
    string := r.string ++ bs }

theorem mark_or {i a x : Nat} (h : x < 2 ^ i) : 2 ^ i * a ||| x = 2 ^ i * a + x :=
  (Nat.two_pow_add_eq_or_of_lt h a).symm

theorem mask_six : 0x80 ||| (c &&& 0x3f) = 0x80 + c % 64 := by
  rw [Nat.and_two_pow_sub_one_eq_mod c 6]
  exact mark_or (i := 6) (a := 2) (Nat.mod_lt c (by decide))

theorem bytes_two (h : c < 0x800) : 0xc0 ||| ((c >>> 6) &&& 0x1f) = 0xc0 + c / 64 := by
  rw [Nat.and_two_pow_sub_one_eq_mod _ 5, Nat.shiftRight_eq_div_pow, Nat.mod_eq_of_lt (by omega)]
  exact mark_or (i := 6) (a := 3) (by omega)

theorem bytes_three (h : c < 0x10000) :
    0xe0 ||| ((c >>> 12) &&& 0x0f) = 0xe0 + c / 4096 := by
  rw [Nat.and_two_pow_sub_one_eq_mod _ 4, Nat.shiftRight_eq_div_pow, Nat.mod_eq_of_lt (by omega)]
  exact mark_or (i := 5) (a := 7) (by omega)

theorem bytes_four (h : c < 0x200000) :
    0xf0 ||| ((c >>> 18) &&& 0x07) = 0xf0 + c / 262144 := by
  rw [Nat.and_two_pow_sub_one_eq_mod _ 3, Nat.shiftRight_eq_div_pow, Nat.mod_eq_of_lt (by omega)]
  exact mark_or (i := 4) (a := 15) (by omega)

theorem stringAddUtf32_eq (hr : r.utf8BytesRemaining = 0)
    (hn : Utf8.IsScalar n) : ∃ f, r.stringAddUtf32 n = some (r.pushBytes (Utf8.encode n) f) := by
  unfold Utf8.IsScalar at hn
  by_cases h1 : n < 0x80
  · refine ⟨n, ?_⟩
    rw [stringAddUtf32, if_pos (by omega), stringAddChar_lead hr (.inl ⟨rfl, h1⟩),
      Utf8.encode_ascii h1]
    rfl
  by_cases h2 : n < 0x800
  · refine ⟨0xc0 + n / 64, ?_⟩
    rw [stringAddUtf32, if_neg (by omega), if_pos (by omega), bytes_two h2, mask_six,
      stringAddChar_lead (k := 1) hr (by unfold Utf8.Lead; omega), bind_eq_bind,
      bind_some, stringAddChar_cont rfl (by omega) (by unfold Utf8.Cont; omega),
      Utf8.encode, if_neg h1, if_pos h2]
    simp [pushByte, pushBytes]
  by_cases h3 : n < 0x10000
  · refine ⟨0xe0 + n / 4096, ?_⟩
    rw [stringAddUtf32, if_neg (by omega), if_neg (by omega), if_pos (by omega), bytes_three h3,
      mask_six, mask_six, stringAddChar_lead (k := 2) hr (by unfold Utf8.Lead; omega),
      bind_eq_bind, bind_some, stringAddChar_cont rfl (by omega) ?_,
      bind_some, stringAddChar_cont rfl (by omega) ?_,
      Utf8.encode, if_neg h1, if_neg h2, if_pos h3]
    · simp [pushByte, pushBytes, Nat.shiftRight_eq_div_pow]
    · unfold Utf8.Cont; simp only [pushByte, Nat.shiftRight_eq_div_pow]; omega
    · unfold Utf8.Cont; simp only [pushByte, Nat.shiftRight_eq_div_pow]; omega
  · refine ⟨0xf0 + n / 262144, ?_⟩
    rw [stringAddUtf32, if_neg (by omega), if_neg (by omega), if_neg (by omega), if_pos (by omega),
      bytes_four (by omega), mask_six, mask_six, mask_six,
      stringAddChar_lead (k := 3) hr (by unfold Utf8.Lead; omega),
      bind_eq_bind, bind_some, stringAddChar_cont rfl (by omega) ?_,
      bind_some, stringAddChar_cont rfl (by omega) ?_,
      bind_some, stringAddChar_cont rfl (by omega) ?_,
      Utf8.encode, if_neg h1, if_neg h2, if_neg h3]
    · simp [pushByte, pushBytes, Nat.shiftRight_eq_div_pow]
    · unfold Utf8.Cont; simp only [pushByte, Nat.shiftRight_eq_div_pow]; omega
    · unfold Utf8.Cont; simp only [pushByte, Nat.shiftRight_eq_div_pow]; omega
    · unfold Utf8.Cont; simp only [pushByte, Nat.shiftRight_eq_div_pow]; omega

theorem stringAddUtf32_none (hr : r.utf8BytesRemaining ≠ 0) :
    r.stringAddUtf32 n = none := by
  have hmark (m x i : Nat) (hm : 0xc0 ≤ m) (hm' : m < 256) (hi : i < 256) :
      r.stringAddChar (m ||| (x &&& i)) = none := by
    have hx : x &&& i < 256 := Nat.lt_of_le_of_lt Nat.and_le_right hi
    exact stringAddChar_none hr (Nat.or_lt_two_pow (n := 8) hm' hx)
      (.inr (Nat.le_trans hm Nat.left_le_or))
  rw [stringAddUtf32]
  split_ifs with h1 h2 h3 h4
  · exact stringAddChar_none hr (by omega) (.inl (by omega))
  · rw [hmark 0xc0 _ 0x1f (by decide) (by decide) (by decide)]
    rfl
  · rw [hmark 0xe0 _ 0x0f (by decide) (by decide) (by decide)]
    rfl
  · rw [hmark 0xf0 _ 0x07 (by decide) (by decide) (by decide)]
    rfl
  · rfl

end GrpcCore.JsonReader
