import GrpcCore.Hpack.Base64

/-!
# Base64 texts

`b64.cc`: the encoder computes the size of its output in advance, with a formula of its own, and
breaks the lines of a multiline text after every 19 groups of four characters. The decoder collects
characters in groups of four and skips the line breaks. Every byte string is read as it was written
(`B64.decodeWithLen_encodeCore`); the failing assertion on the length is `none`.
-/

namespace GrpcCore.B64

def base64Bytes : List Int :=
  [-1, -1, -1, -1, -1, -1, -1, -1, -1, -1, -1, -1, -1, -1, -1, -1, -1, -1, -1, -1, -1, -1, -1, -1,
   -1, -1, -1, -1, -1, -1, -1, -1, -1, -1, -1, -1, -1, -1, -1, -1, -1, -1, -1, 0x3E, -1, -1, -1,
   0x3F, 0x34, 0x35, 0x36, 0x37, 0x38, 0x39, 0x3A, 0x3B, 0x3C, 0x3D, -1, -1, -1, 0x7F, -1, -1, -1,
   0x00, 0x01, 0x02, 0x03, 0x04, 0x05, 0x06, 0x07, 0x08, 0x09, 0x0A, 0x0B, 0x0C, 0x0D, 0x0E, 0x0F,
   0x10, 0x11, 0x12, 0x13, 0x14, 0x15, 0x16, 0x17, 0x18, 0x19, -1, -1, -1, -1, -1, -1, 0x1A, 0x1B,
   0x1C, 0x1D, 0x1E, 0x1F, 0x20, 0x21, 0x22, 0x23, 0x24, 0x25, 0x26, 0x27, 0x28, 0x29, 0x2A, 0x2B,
   0x2C, 0x2D, 0x2E, 0x2F, 0x30, 0x31, 0x32, 0x33, -1, -1, -1, -1, -1]

/-- `base64_url_safe_chars` and `base64_url_unsafe_chars`. -/
def base64Chars (urlSafe : Bool) : Bytes :=
  if urlSafe then ascii "ABCDEFGHIJKLMNOPQRSTUVWXYZabcdefghijklmnopqrstuvwxyz0123456789-_"
  else ascii "ABCDEFGHIJKLMNOPQRSTUVWXYZabcdefghijklmnopqrstuvwxyz0123456789+/"

/-- `base64_chars[i]`. -/
def char (urlSafe : Bool) (i : Nat) : UInt8 := (base64Chars urlSafe).getD i 0

/-- `GRPC_BASE64_PAD_CHAR`. -/
def padChar : UInt8 := 0x3d

/-- `GRPC_BASE64_PAD_BYTE`. -/
def padByte : Nat := 0x7f

/-- `GRPC_BASE64_MULTILINE_NUM_BLOCKS`. -/
def multilineNumBlocks : Nat := 76 / 4

/-! ## Encoding -/

/-- `grpc_base64_estimate_encoded_size`. -/
def estimateEncodedSize (dataSize : Nat) (multiline : Bool) : Nat :=
  4 * ((dataSize + 3) / 3) + 2 * (if multiline then dataSize / (3 * multilineNumBlocks) else 0) + 1

/-- What `grpc_base64_encode_core` writes before the final NUL, from a state of its loop. -/
def encodeLoop (urlSafe multiline : Bool) : Nat → Bytes → Bytes
  | numBlocks, a :: b :: c :: data =>
    char urlSafe (a.toNat >>> 2 &&& 0x3f) ::
    char urlSafe ((a.toNat &&& 0x3) <<< 4 ||| b.toNat >>> 4 &&& 0xf) ::
    char urlSafe ((b.toNat &&& 0xf) <<< 2 ||| c.toNat >>> 6 &&& 0x3) ::
    char urlSafe (c.toNat &&& 0x3f) ::
    if multiline then
      if numBlocks + 1 = multilineNumBlocks then 13 :: 10 :: encodeLoop urlSafe multiline 0 data
      else encodeLoop urlSafe multiline (numBlocks + 1) data
    else encodeLoop urlSafe multiline numBlocks data
  | _, [a, b] =>
    [char urlSafe (a.toNat >>> 2 &&& 0x3f),
      char urlSafe ((a.toNat &&& 0x3) <<< 4 ||| b.toNat >>> 4 &&& 0xf),
      char urlSafe ((b.toNat &&& 0xf) <<< 2), padChar]
  | _, [a] =>
    [char urlSafe (a.toNat >>> 2 &&& 0x3f), char urlSafe ((a.toNat &&& 0x3) <<< 4), padChar,
      padChar]
  | _, [] => []

/-- `grpc_base64_encode_core`. -/
def encodeCore (urlSafe multiline : Bool) (data : Bytes) : Option Bytes :=
  let result := encodeLoop urlSafe multiline 0 data
  if result.length < estimateEncodedSize data.length multiline then some result else none

/-! ## Decoding -/

def decodeOneChar (c₀ c₁ : Nat) : Bytes := [UInt8.ofNat (c₀ <<< 2 ||| c₁ >>> 4)]

def decodeTwoChars (c₀ c₁ c₂ : Nat) : Bytes :=
  let packed := c₀ <<< 10 ||| c₁ <<< 4 ||| c₂ >>> 2
  [UInt8.ofNat (packed >>> 8), UInt8.ofNat packed]

def decodeGroup : List Nat → Option Bytes
  | [c₀, c₁] => some (decodeOneChar c₀ c₁)
  | [c₀, c₁, c₂] => some (decodeTwoChars c₀ c₁ c₂)
  | [c₀, c₁, c₂, c₃] =>
    if c₀ = padByte ∨ c₁ = padByte then none
    else if c₂ = padByte then
      if c₃ = padByte then some (decodeOneChar c₀ c₁) else none
    else if c₃ = padByte then some (decodeTwoChars c₀ c₁ c₂)
    else
      let packed := c₀ <<< 18 ||| c₁ <<< 12 ||| c₂ <<< 6 ||| c₃
      some [UInt8.ofNat (packed >>> 16), UInt8.ofNat (packed >>> 8), UInt8.ofNat packed]
  | _ => none

/-- What the decoder does with a character. -/
inductive Read where
  | skip
  | fail
  | code (n : Nat)
  deriving DecidableEq

/-- The body of the loop of `grpc_base64_decode_with_len`, up to the code. -/
def read (urlSafe : Bool) (c : UInt8) : Read :=
  if base64Bytes.length ≤ c.toNat then .skip
  else if urlSafe ∧ (c = 0x2b ∨ c = 0x2f) then .fail
  else
    let c : UInt8 :=
      if urlSafe then if c = 0x2d then 0x2b else if c = 0x5f then 0x2f else c else c
    let code := base64Bytes.getD c.toNat 0
    if code = -1 then if c ≠ 13 ∧ c ≠ 10 then .fail else .skip else .code code.toNat

/-- The loop of `grpc_base64_decode_with_len`, with the codes of the group and the result so far,
for any reading of the characters. -/
def decodeLoop (read : UInt8 → Read) : Bytes → List Nat → Bytes → Option Bytes
  | [], codes, result =>
    if codes.length ≠ 0 then (decodeGroup codes).map (result ++ ·) else some result
  | c :: b64, codes, result =>
    match read c with
    | .skip => decodeLoop read b64 codes result
    | .fail => none
    | .code n =>
      let codes := codes ++ [n]
      if codes.length = 4 then
        (decodeGroup codes).bind fun bytes => decodeLoop read b64 [] (result ++ bytes)
      else decodeLoop read b64 codes result

/-- `grpc_base64_decode_with_len`: the slice is empty when the text is refused. -/
def decodeWithLen (urlSafe : Bool) (b64 : Bytes) : Bytes :=
  (decodeLoop (read urlSafe) b64 [] []).getD []

/-! ## The length of a text -/

variable {urlSafe multiline : Bool} {data b64 result : Bytes} {numBlocks : Nat}

/-- A line break follows each 19th group, counted from the beginning of the line. -/
theorem length_encodeLoop (h : numBlocks < 19) :
    (encodeLoop urlSafe multiline numBlocks data).length =
      4 * ((data.length + 2) / 3) +
        2 * (if multiline then (numBlocks + data.length / 3) / 19 else 0) := by
  fun_induction encodeLoop urlSafe multiline numBlocks data with
  | case1 numBlocks a b c data ihBreak ihBlock ihPlain =>
    have hblocks : multilineNumBlocks = 19 := rfl
    cases multiline with
    | true =>
      simp only [List.length_cons, if_true] at ihBreak ihBlock ⊢
      split
      · rw [List.length_cons, List.length_cons, ihBreak (by omega)]
        omega
      · rw [ihBlock (by omega)]
        omega
    | false =>
      simp only [List.length_cons, Bool.false_eq_true, if_false] at ihPlain ⊢
      rw [ihPlain h]
      omega
  | case2 | case3 | case4 =>
    simp only [List.length_cons, List.length_nil]
    split <;> omega

theorem encodeCore_eq (urlSafe multiline : Bool) (data : Bytes) :
    encodeCore urlSafe multiline data = some (encodeLoop urlSafe multiline 0 data) := by
  have hsize : 3 * multilineNumBlocks = 57 := rfl
  refine if_pos ?_
  rw [length_encodeLoop (by decide), estimateEncodedSize, hsize]
  split <;> omega

/-! ## Reading a text -/

theorem read_checked : (∀ urlSafe, ∀ i < 64, read urlSafe (char urlSafe i) = .code i) ∧
    ∀ urlSafe, read urlSafe padChar = .code padByte ∧ read urlSafe 13 = .skip ∧
      read urlSafe 10 = .skip := by
  decide +kernel

section
variable {read : UInt8 → Read}

theorem decodeLoop_break (hcr : read 13 = .skip) (hlf : read 10 = .skip) :
    decodeLoop read (13 :: 10 :: b64) [] result = decodeLoop read b64 [] result := by
  simp only [decodeLoop, hcr, hlf]

theorem decodeLoop_group {c₀ c₁ c₂ c₃ : UInt8} {n₀ n₁ n₂ n₃ : Nat} {bytes : Bytes}
    (h₀ : read c₀ = .code n₀) (h₁ : read c₁ = .code n₁) (h₂ : read c₂ = .code n₂)
    (h₃ : read c₃ = .code n₃) (hgroup : decodeGroup [n₀, n₁, n₂, n₃] = some bytes) :
    decodeLoop read (c₀ :: c₁ :: c₂ :: c₃ :: b64) [] result =
      decodeLoop read b64 [] (result ++ bytes) := by
  simp [decodeLoop, h₀, h₁, h₂, h₃, hgroup]

end

theorem decodeGroup_three (a b c : UInt8) :
    decodeGroup [a.toNat / 4, 16 * (a.toNat % 4) + b.toNat / 16, 4 * (b.toNat % 16) + c.toNat / 64,
      c.toNat % 64] = some [a, b, c] := by
  have ha := a.toNat_lt
  have hb := b.toNat_lt
  have hc := c.toNat_lt
  have hpad : padByte = 127 := rfl
  rw [decodeGroup, if_neg (by omega), if_neg (by omega), if_neg (by omega)]
  simp only [or_shiftLeft_sextets (show 16 * (a.toNat % 4) + b.toNat / 16 < 64 by omega)
    (show 4 * (b.toNat % 16) + c.toNat / 64 < 64 by omega)
      (Nat.mod_lt c.toNat (by decide : 64 > 0))]
  congr 2
  · exact ofNat_shiftRight_eq (by omega)
  congr 1
  · exact ofNat_shiftRight_eq (by omega)
  congr 1
  · refine UInt8.toNat_inj.1 ?_
    rw [UInt8.toNat_ofNat']
    omega

theorem decodeGroup_two (a b : UInt8) :
    decodeGroup [a.toNat / 4, 16 * (a.toNat % 4) + b.toNat / 16, 4 * (b.toNat % 16), padByte] =
      some [a, b] := by
  have ha := a.toNat_lt
  have hb := b.toNat_lt
  have hpad : padByte = 127 := rfl
  have hpacked : (a.toNat / 4) <<< 10 ||| (16 * (a.toNat % 4) + b.toNat / 16) <<< 4 |||
      (4 * (b.toNat % 16)) >>> 2 = 2 ^ 8 * a.toNat + b.toNat := by
    have hlow : (16 * (a.toNat % 4) + b.toNat / 16) <<< 4 ||| 4 * (b.toNat % 16) / 2 ^ 2 =
        2 ^ 4 * (16 * (a.toNat % 4) + b.toNat / 16) + 4 * (b.toNat % 16) / 2 ^ 2 :=
      Word.shiftLeft_or_of_lt (by omega)
    rw [Nat.or_assoc, Nat.shiftRight_eq_div_pow, hlow, Word.shiftLeft_or_of_lt (by omega)]
    omega
  rw [decodeGroup, if_neg (by omega), if_neg (by omega), if_pos rfl, decodeTwoChars]
  simp only [hpacked]
  congr 2
  · exact ofNat_shiftRight_eq (by omega)
  congr 1
  · refine UInt8.toNat_inj.1 ?_
    rw [UInt8.toNat_ofNat']
    omega

theorem decodeGroup_one (a : UInt8) :
    decodeGroup [a.toNat / 4, 16 * (a.toNat % 4), padByte, padByte] = some [a] := by
  have ha := a.toNat_lt
  have hpad : padByte = 127 := rfl
  have hpacked : (a.toNat / 4) <<< 2 ||| (16 * (a.toNat % 4)) >>> 4 = a.toNat := by
    rw [Nat.shiftRight_eq_div_pow, Word.shiftLeft_or_of_lt (by omega)]
    omega
  rw [decodeGroup, if_neg (by omega), if_pos rfl, if_pos rfl, decodeOneChar, hpacked,
    UInt8.ofNat_toNat]

theorem masks_idle : ∀ a < 256, a >>> 2 &&& 0x3f = a / 4 ∧ a >>> 4 &&& 0xf = a >>> 4 ∧
    a >>> 6 &&& 0x3 = a >>> 6 := by
  decide +kernel

theorem decodeLoop_encodeLoop :
    decodeLoop (read urlSafe) (encodeLoop urlSafe multiline numBlocks data) [] result =
      some (result ++ data) := by
  have hchar := read_checked.1 urlSafe
  have hpad := (read_checked.2 urlSafe).1
  fun_induction encodeLoop urlSafe multiline numBlocks data generalizing result with
  | case1 numBlocks a b c data ihBreak ihBlock ihPlain =>
    have ha := a.toNat_lt
    have hb := b.toNat_lt
    have hc := c.toNat_lt
    rw [(masks_idle _ ha).1, (masks_idle _ hb).2.1, (masks_idle _ hc).2.2, sextet_second,
      sextet_third, sextet_fourth,
      decodeLoop_group (hchar _ (by omega)) (hchar _ (by omega)) (hchar _ (by omega))
        (hchar _ (by omega)) (decodeGroup_three a b c)]
    have happend : result ++ a :: b :: c :: data = result ++ [a, b, c] ++ data := by simp
    rw [happend]
    split
    · split
      · rw [decodeLoop_break (read_checked.2 urlSafe).2.1 (read_checked.2 urlSafe).2.2]
        exact ihBreak
      · exact ihBlock
    · exact ihPlain
  | case2 numBlocks a b =>
    have ha := a.toNat_lt
    have hb := b.toNat_lt
    rw [(masks_idle _ ha).1, (masks_idle _ hb).2.1, sextet_second, sextet_third_last,
      decodeLoop_group (hchar _ (by omega)) (hchar _ (by omega)) (hchar _ (by omega)) hpad
        (decodeGroup_two a b)]
    rfl
  | case3 numBlocks a =>
    have ha := a.toNat_lt
    rw [(masks_idle _ ha).1, sextet_second_last,
      decodeLoop_group (hchar _ (by omega)) (hchar _ (by omega)) hpad hpad (decodeGroup_one a)]
    rfl
  | case4 => exact congrArg some (List.append_nil result).symm

/-- The length assertion holds, and the decoder returns the bytes that were encoded. -/
theorem decodeWithLen_encodeCore (urlSafe multiline : Bool) (data : Bytes) :
    ∃ text, encodeCore urlSafe multiline data = some text ∧ decodeWithLen urlSafe text = data := by
  refine ⟨_, encodeCore_eq urlSafe multiline data, ?_⟩
  rw [decodeWithLen, decodeLoop_encodeLoop]
  rfl

end GrpcCore.B64
