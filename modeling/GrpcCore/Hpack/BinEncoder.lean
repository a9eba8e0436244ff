import GrpcCore.Hpack.Basic
import GrpcCore.Lib.Bits
import GrpcCore.Lib.Word
import Mathlib.Algebra.BigOperators.Group.List.Basic

/-!
# The encoders of binary headers

`bin_encoder.cc`: base64 without padding, Huffman compression, and the two in one pass. Both Huffman
encoders collect bits in an accumulator, of 64 bits and of 32 bits, and flush whole bytes of it; the
bits that were added are those of the bytes that were written and the pending ones
(`HuffOut.stream`). An accumulator never holds more than 8 pending bits between two additions, so
that it has room for the longest code, of 30 bits, and for two codes of the alphabet of base64, of
11 bits each.

What an encoder returns is the string of its codes, filled up with ones (`IsPadded`), and this
decides the bytes. A failing assertion on the length of the output is `none`.
-/

namespace GrpcCore

open List Bits

/-! ## Base64 -/

def alphabet : Bytes := ascii "ABCDEFGHIJKLMNOPQRSTUVWXYZabcdefghijklmnopqrstuvwxyz0123456789+/"

/-- `alphabet[i]`. -/
def base64Char (i : Nat) : UInt8 := alphabet.getD i 0

def tailXtra : List Nat := [0, 2, 3]

/-- What `grpc_chttp2_base64_encode` writes: the loop over triplets and the remaining bytes. -/
def base64Output : Bytes → Bytes
  | a :: b :: c :: input =>
    base64Char (a.toNat >>> 2) ::
    base64Char ((a.toNat &&& 0x3) <<< 4 ||| b.toNat >>> 4) ::
    base64Char ((b.toNat &&& 0xf) <<< 2 ||| c.toNat >>> 6) ::
    base64Char (c.toNat &&& 0x3f) :: base64Output input
  | [a, b] =>
    [base64Char (a.toNat >>> 2),
      base64Char ((a.toNat &&& 0x3) <<< 4 ||| b.toNat >>> 4),
      base64Char ((b.toNat &&& 0xf) <<< 2)]
  | [a] => [base64Char (a.toNat >>> 2), base64Char ((a.toNat &&& 0x3) <<< 4)]
  | [] => []

/-- The number of symbols of base64. -/
def base64Length (inputLength : Nat) : Nat :=
  inputLength / 3 * 4 + tailXtra.getD (inputLength % 3) 0

/-- `grpc_chttp2_base64_encode`. -/
def base64Encode (input : Bytes) : Option Bytes :=
  if (base64Output input).length = base64Length input.length then some (base64Output input)
  else none

/-! ## Huffman codes -/

/-- `grpc_chttp2_huffsyms`: the bits and the length of each code. -/
def huffsyms : List (Nat × Nat) :=
  [(0x1ff8,13),(0x7fffd8,23),(0xfffffe2,28),(0xfffffe3,28),(0xfffffe4,28),
   (0xfffffe5,28),(0xfffffe6,28),(0xfffffe7,28),(0xfffffe8,28),(0xffffea,24),
   (0x3ffffffc,30),(0xfffffe9,28),(0xfffffea,28),(0x3ffffffd,30),(0xfffffeb,28),
   (0xfffffec,28),(0xfffffed,28),(0xfffffee,28),(0xfffffef,28),(0xffffff0,28),
   (0xffffff1,28),(0xffffff2,28),(0x3ffffffe,30),(0xffffff3,28),(0xffffff4,28),
   (0xffffff5,28),(0xffffff6,28),(0xffffff7,28),(0xffffff8,28),(0xffffff9,28),
   (0xffffffa,28),(0xffffffb,28),(0x14,6),(0x3f8,10),(0x3f9,10),(0xffa,12),
   (0x1ff9,13),(0x15,6),(0xf8,8),(0x7fa,11),(0x3fa,10),(0x3fb,10),(0xf9,8),
   (0x7fb,11),(0xfa,8),(0x16,6),(0x17,6),(0x18,6),(0x0,5),(0x1,5),(0x2,5),
   (0x19,6),(0x1a,6),(0x1b,6),(0x1c,6),(0x1d,6),(0x1e,6),(0x1f,6),(0x5c,7),
   (0xfb,8),(0x7ffc,15),(0x20,6),(0xffb,12),(0x3fc,10),(0x1ffa,13),(0x21,6),
   (0x5d,7),(0x5e,7),(0x5f,7),(0x60,7),(0x61,7),(0x62,7),(0x63,7),(0x64,7),
   (0x65,7),(0x66,7),(0x67,7),(0x68,7),(0x69,7),(0x6a,7),(0x6b,7),(0x6c,7),
   (0x6d,7),(0x6e,7),(0x6f,7),(0x70,7),(0x71,7),(0x72,7),(0xfc,8),(0x73,7),
   (0xfd,8),(0x1ffb,13),(0x7fff0,19),(0x1ffc,13),(0x3ffc,14),(0x22,6),(0x7ffd,15),
   (0x3,5),(0x23,6),(0x4,5),(0x24,6),(0x5,5),(0x25,6),(0x26,6),(0x27,6),(0x6,5),
   (0x74,7),(0x75,7),(0x28,6),(0x29,6),(0x2a,6),(0x7,5),(0x2b,6),(0x76,7),
   (0x2c,6),(0x8,5),(0x9,5),(0x2d,6),(0x77,7),(0x78,7),(0x79,7),(0x7a,7),(0x7b,7),
   (0x7ffe,15),(0x7fc,11),(0x3ffd,14),(0x1ffd,13),(0xffffffc,28),(0xfffe6,20),
   (0x3fffd2,22),(0xfffe7,20),(0xfffe8,20),(0x3fffd3,22),(0x3fffd4,22),(0x3fffd5,22),
   (0x7fffd9,23),(0x3fffd6,22),(0x7fffda,23),(0x7fffdb,23),(0x7fffdc,23),(0x7fffdd,23),
   (0x7fffde,23),(0xffffeb,24),(0x7fffdf,23),(0xffffec,24),(0xffffed,24),(0x3fffd7,22),
   (0x7fffe0,23),(0xffffee,24),(0x7fffe1,23),(0x7fffe2,23),(0x7fffe3,23),(0x7fffe4,23),
   (0x1fffdc,21),(0x3fffd8,22),(0x7fffe5,23),(0x3fffd9,22),(0x7fffe6,23),(0x7fffe7,23),
   (0xffffef,24),(0x3fffda,22),(0x1fffdd,21),(0xfffe9,20),(0x3fffdb,22),(0x3fffdc,22),
   (0x7fffe8,23),(0x7fffe9,23),(0x1fffde,21),(0x7fffea,23),(0x3fffdd,22),(0x3fffde,22),
   (0xfffff0,24),(0x1fffdf,21),(0x3fffdf,22),(0x7fffeb,23),(0x7fffec,23),(0x1fffe0,21),
   (0x1fffe1,21),(0x3fffe0,22),(0x1fffe2,21),(0x7fffed,23),(0x3fffe1,22),(0x7fffee,23),
   (0x7fffef,23),(0xfffea,20),(0x3fffe2,22),(0x3fffe3,22),(0x3fffe4,22),(0x7ffff0,23),
   (0x3fffe5,22),(0x3fffe6,22),(0x7ffff1,23),(0x3ffffe0,26),(0x3ffffe1,26),(0xfffeb,20),
   (0x7fff1,19),(0x3fffe7,22),(0x7ffff2,23),(0x3fffe8,22),(0x1ffffec,25),(0x3ffffe2,26),
   (0x3ffffe3,26),(0x3ffffe4,26),(0x7ffffde,27),(0x7ffffdf,27),(0x3ffffe5,26),
   (0xfffff1,24),(0x1ffffed,25),(0x7fff2,19),(0x1fffe3,21),(0x3ffffe6,26),
   (0x7ffffe0,27),(0x7ffffe1,27),(0x3ffffe7,26),(0x7ffffe2,27),(0xfffff2,24),
   (0x1fffe4,21),(0x1fffe5,21),(0x3ffffe8,26),(0x3ffffe9,26),(0xffffffd,28),
   (0x7ffffe3,27),(0x7ffffe4,27),(0x7ffffe5,27),(0xfffec,20),(0xfffff3,24),(0xfffed,20),
   (0x1fffe6,21),(0x3fffe9,22),(0x1fffe7,21),(0x1fffe8,21),(0x7ffff3,23),(0x3fffea,22),
   (0x3fffeb,22),(0x1ffffee,25),(0x1ffffef,25),(0xfffff4,24),(0xfffff5,24),
   (0x3ffffea,26),(0x7ffff4,23),(0x3ffffeb,26),(0x7ffffe6,27),(0x3ffffec,26),
   (0x3ffffed,26),(0x7ffffe7,27),(0x7ffffe8,27),(0x7ffffe9,27),(0x7ffffea,27),
   (0x7ffffeb,27),(0xffffffe,28),(0x7ffffec,27),(0x7ffffed,27),(0x7ffffee,27),
   (0x7ffffef,27),(0x7fffff0,27),(0x3ffffee,26),(0x3fffffff,30)]

/-- `grpc_chttp2_huffsyms[sym]`. -/
def huffsym (sym : Nat) : Nat × Nat := huffsyms.getD sym (0, 0)

/-- `huff_alphabet`: the codes of the symbols of base64. -/
def huffAlphabet : List (Nat × Nat) :=
  [(0x21,6),(0x5d,7),(0x5e,7),(0x5f,7),(0x60,7),(0x61,7),(0x62,7),(0x63,7),
   (0x64,7),(0x65,7),(0x66,7),(0x67,7),(0x68,7),(0x69,7),(0x6a,7),(0x6b,7),
   (0x6c,7),(0x6d,7),(0x6e,7),(0x6f,7),(0x70,7),(0x71,7),(0x72,7),(0xfc,8),
   (0x73,7),(0xfd,8),(0x3,5),(0x23,6),(0x4,5),(0x24,6),(0x5,5),(0x25,6),(0x26,6),
   (0x27,6),(0x6,5),(0x74,7),(0x75,7),(0x28,6),(0x29,6),(0x2a,6),(0x7,5),(0x2b,6),
   (0x76,7),(0x2c,6),(0x8,5),(0x9,5),(0x2d,6),(0x77,7),(0x78,7),(0x79,7),(0x7a,7),
   (0x7b,7),(0x0,5),(0x1,5),(0x2,5),(0x19,6),(0x1a,6),(0x1b,6),(0x1c,6),(0x1d,6),
   (0x1e,6),(0x1f,6),(0x7fb,11),(0x18,6)]

/-- `huff_alphabet[a]`. -/
def b64Huffsym (a : Nat) : Nat × Nat := huffAlphabet.getD a (0, 0)

/-- `huff_out`, and the variables of `grpc_chttp2_huffman_compress`: the accumulator, the number of
its pending bits, and the bytes that were written. -/
structure HuffOut where
  temp : Nat := 0
  tempLength : Nat := 0
  out : Bytes := []

/-- `while (temp_length > 8)`: the bits that stay pending, and the bytes that are written. -/
def flushLoop (temp : Nat) : Nat → Nat × Bytes
  | n + 9 =>
    let (pending, out) := flushLoop temp (n + 1)
    (pending, Word.byteAt temp (n + 1) :: out)
  | n => (n, [])

namespace HuffOut

/-- `enc_flush_some`. -/
def flushSome (o : HuffOut) : HuffOut where
  temp := o.temp
  tempLength := (flushLoop o.temp o.tempLength).1
  out := o.out ++ (flushLoop o.temp o.tempLength).2

/-- The body of the loop of `grpc_chttp2_huffman_compress`, with an accumulator of 64 bits. -/
def addSym (o : HuffOut) (sym : UInt8) : HuffOut :=
  let s := huffsym sym.toNat
  flushSome
    { o with
      temp := o.temp <<< s.2 % 2 ^ 64 ||| s.1
      tempLength := o.tempLength + s.2 }

/-- The byte with the bits that are left, filled up with ones. -/
def finish (o : HuffOut) : Bytes :=
  if o.tempLength ≠ 0 then
    o.out ++ [UInt8.ofNat (o.temp <<< (8 - o.tempLength)) ||| UInt8.ofNat (0xff >>> o.tempLength)]
  else o.out

end HuffOut

/-- `bits / 8 + (bits % 8 != 0)`. -/
def bytesForBits (bits : Nat) : Nat := bits / 8 + if bits % 8 ≠ 0 then 1 else 0

/-- `grpc_chttp2_huffman_compress`. -/
def huffmanCompress (input : Bytes) : Option Bytes :=
  let nbits := (input.map fun sym => (huffsym sym.toNat).2).sum
  let output := (input.foldl HuffOut.addSym {}).finish
  if output.length = bytesForBits nbits then some output else none

/-! ## Both in one pass -/

/-- A call of `enc_add2` or `enc_add1`. -/
inductive EncAdd where
  | two (a b : Nat)
  | one (a : Nat)
  deriving DecidableEq

def EncAdd.symbols : EncAdd → List Nat
  | .two a b => [a, b]
  | .one a => [a]

/-- `enc_add2` and `enc_add1`, with an accumulator of 32 bits. -/
def HuffOut.encAdd (o : HuffOut) : EncAdd → HuffOut
  | .two a b =>
    let sa := b64Huffsym a
    let sb := b64Huffsym b
    flushSome
      { o with
        temp := o.temp <<< (sa.2 + sb.2) % 2 ^ 32 ||| sa.1 <<< sb.2 ||| sb.1
        tempLength := o.tempLength + (sa.2 + sb.2) }
  | .one a =>
    let sa := b64Huffsym a
    flushSome
      { o with
        temp := o.temp <<< sa.2 % 2 ^ 32 ||| sa.1
        tempLength := o.tempLength + sa.2 }

/-- The calls of `grpc_chttp2_base64_encode_and_huffman_compress`, for the triplets and the
remaining bytes. -/
def encAdds : Bytes → List EncAdd
  | a :: b :: c :: input =>
    .two (a.toNat >>> 2) ((a.toNat &&& 0x3) <<< 4 ||| b.toNat >>> 4) ::
    .two ((b.toNat &&& 0xf) <<< 2 ||| c.toNat >>> 6) (c.toNat &&& 0x3f) :: encAdds input
  | [a, b] =>
    [.two (a.toNat >>> 2) ((a.toNat &&& 0x3) <<< 4 ||| b.toNat >>> 4),
      .one ((b.toNat &&& 0xf) <<< 2)]
  | [a] => [.two (a.toNat >>> 2) ((a.toNat &&& 0x3) <<< 4)]
  | [] => []

/-- `grpc_chttp2_base64_encode_and_huffman_compress`. -/
def base64EncodeAndHuffmanCompress (input : Bytes) : Option Bytes :=
  let maxOutputBits := 11 * base64Length input.length
  let output := ((encAdds input).foldl HuffOut.encAdd {}).finish
  if output.length ≤ bytesForBits maxOutputBits then some output else none

/-! ## Accumulators -/

def huffCode (sym : UInt8) : List Bool := bits (huffsym sym.toNat).2 (huffsym sym.toNat).1

/-- The code of a symbol of base64 in the table for it. -/
def b64Code (a : Nat) : List Bool := bits (b64Huffsym a).2 (b64Huffsym a).1

variable {n : Nat} {o : HuffOut}

theorem flushLoop_of_le {temp : Nat} (h : n ≤ 8) : flushLoop temp n = (n, []) := by
  rw [flushLoop]
  omega

theorem flushLoop_add_nine (temp n : Nat) : flushLoop temp (n + 9) =
    ((flushLoop temp (n + 1)).1, Word.byteAt temp (n + 1) :: (flushLoop temp (n + 1)).2) := by
  rw [flushLoop]

theorem flushLoop_bits (temp n : Nat) :
    unpack (flushLoop temp n).2 ++ bits (flushLoop temp n).1 temp = bits n temp ∧
      (flushLoop temp n).1 ≤ 8 := by
  induction n using Nat.strong_induction_on with
  | _ n ih =>
    by_cases h : n ≤ 8
    · rw [flushLoop_of_le h]
      exact ⟨rfl, h⟩
    · obtain ⟨m, rfl⟩ : ∃ m, n = m + 9 := ⟨n - 9, by omega⟩
      obtain ⟨hbits, hle⟩ := ih (m + 1) (by omega)
      rw [flushLoop_add_nine]
      refine ⟨?_, hle⟩
      rw [unpack_cons, append_assoc, hbits, Word.byteAt, bits_toNat_ofNat, ← bits_add]
      congr 1
      omega

namespace HuffOut

def stream (o : HuffOut) : List Bool := unpack o.out ++ bits o.tempLength o.temp

theorem stream_flushSome (o : HuffOut) : o.flushSome.stream = o.stream := by
  rw [stream, stream, flushSome, unpack_append, append_assoc, (flushLoop_bits _ _).1]

theorem tempLength_flushSome_le (o : HuffOut) : o.flushSome.tempLength ≤ 8 := (flushLoop_bits _ _).2

variable {o : HuffOut}

theorem stream_append {W length b : Nat} (hroom : o.tempLength + length ≤ W) (hb : b < 2 ^ length) :
    stream { o with
      temp := o.temp <<< length % 2 ^ W ||| b
      tempLength := o.tempLength + length } = o.stream ++ bits length b := by
  have hbits : bits (o.tempLength + length) (o.temp <<< length % 2 ^ W ||| b) =
      bits (o.tempLength + length) (o.temp <<< length ||| b) := by
    refine bits_congr fun i hi => ?_
    rw [Nat.testBit_or, Nat.testBit_or, Nat.testBit_mod_two_pow,
      decide_eq_true (hi.trans_le hroom), Bool.true_and]
  rw [stream, stream, hbits, bits_shiftLeft_or hb, append_assoc]

theorem isPadded_finish (h : o.tempLength ≤ 8) : IsPadded o.stream o.finish := by
  unfold finish
  by_cases hzero : o.tempLength = 0
  · rw [if_neg (not_not.2 hzero), stream, hzero, bits, append_nil]
    exact ⟨0, by decide, (append_nil _).symm⟩
  · rw [if_pos hzero]
    refine ⟨8 - o.tempLength, by omega, ?_⟩
    have hones : 0xff >>> o.tempLength = 2 ^ (8 - o.tempLength) - 1 :=
      (by decide : ∀ n ≤ 8, 0xff >>> n = 2 ^ (8 - n) - 1) o.tempLength h
    have hlt : 2 ^ (8 - o.tempLength) - 1 < 2 ^ (8 - o.tempLength) :=
      Nat.sub_lt (Nat.pow_pos (by decide)) (by decide)
    have hlast : bits 8 (o.temp <<< (8 - o.tempLength) ||| 0xff >>> o.tempLength) =
        bits o.tempLength o.temp ++ List.replicate (8 - o.tempLength) true := by
      have hcut := bits_shiftLeft_or hlt o.tempLength o.temp
      rw [Nat.add_sub_cancel' h, bits_allOnes] at hcut
      rw [hones, hcut]
    rw [unpack_append, unpack_singleton, ← UInt8.ofNat_or, bits_toNat_ofNat, hlast, stream,
      append_assoc]

end HuffOut

/-! ## Huffman compression -/

/-- The codes are words of their lengths, and the table of the second encoder of binary values holds
those of the alphabet. -/
theorem huffman_tables_checked : (∀ p ∈ huffsyms, p.1 < 2 ^ p.2 ∧ p.2 ≤ 30) ∧
    (∀ p ∈ huffAlphabet, p.1 < 2 ^ p.2 ∧ p.2 ≤ 11) ∧
    ∀ a < 64, b64Huffsym a = huffsym (base64Char a).toNat := by
  decide +kernel

theorem huffsym_valid (sym : Nat) : (huffsym sym).1 < 2 ^ (huffsym sym).2 ∧
    (huffsym sym).2 ≤ 30 := by
  unfold huffsym
  rw [getD_eq_getElem?_getD]
  cases h : huffsyms[sym]? with
  | none => decide
  | some p => exact huffman_tables_checked.1 p (mem_of_getElem? h)

theorem HuffOut.stream_addSym (h : o.tempLength ≤ 8) (sym : UInt8) :
    (o.addSym sym).stream = o.stream ++ huffCode sym := by
  obtain ⟨hbits, hlen⟩ := huffsym_valid sym.toNat
  exact (stream_flushSome _).trans (stream_append (by omega) hbits)

theorem HuffOut.stream_foldl_addSym (h : o.tempLength ≤ 8) (input : Bytes) :
    (input.foldl addSym o).stream = o.stream ++ input.flatMap huffCode ∧
      (input.foldl addSym o).tempLength ≤ 8 := by
  induction input generalizing o with
  | nil => exact ⟨(append_nil _).symm, h⟩
  | cons sym input ih =>
    obtain ⟨hstream, hle⟩ := ih (o := o.addSym sym) (tempLength_flushSome_le _)
    rw [foldl_cons, hstream, stream_addSym h, flatMap_cons, append_assoc]
    exact ⟨rfl, hle⟩

theorem length_flatMap_huffCode (input : Bytes) :
    (input.flatMap huffCode).length = (input.map fun sym => (huffsym sym.toNat).2).sum := by
  induction input with
  | nil => rfl
  | cons sym input ih =>
    rw [flatMap_cons, length_append, huffCode, length_bits, ih, map_cons, sum_cons]

/-- The string of the codes, filled up with ones; the length was computed right. -/
theorem huffmanCompress_isPadded (input : Bytes) :
    ∃ output, huffmanCompress input = some output ∧ IsPadded (input.flatMap huffCode) output := by
  obtain ⟨hstream, hle⟩ := HuffOut.stream_foldl_addSym (o := {}) (by decide) input
  have hpad := HuffOut.isPadded_finish hle
  rw [hstream] at hpad
  refine ⟨_, if_pos ?_, hpad⟩
  rw [← length_flatMap_huffCode]
  exact hpad.length_eq

/-! ## The two encoders of binary values -/

theorem b64Huffsym_valid (a : Nat) :
    (b64Huffsym a).1 < 2 ^ (b64Huffsym a).2 ∧ (b64Huffsym a).2 ≤ 11 := by
  unfold b64Huffsym
  rw [getD_eq_getElem?_getD]
  cases h : huffAlphabet[a]? with
  | none => decide
  | some p => exact huffman_tables_checked.2.1 p (mem_of_getElem? h)

def EncAdd.length (add : EncAdd) : Nat := (add.symbols.map fun a => (b64Huffsym a).2).sum

theorem EncAdd.length_le (add : EncAdd) : add.length ≤ 22 := by
  cases add with
  | two a b =>
    have ha := (b64Huffsym_valid a).2
    have hb := (b64Huffsym_valid b).2
    simp only [length, symbols, map_cons, map_nil, sum_cons, sum_nil]
    omega
  | one a =>
    have ha := (b64Huffsym_valid a).2
    simp only [length, symbols, map_cons, map_nil, sum_cons, sum_nil]
    omega

theorem HuffOut.stream_encAdd (h : o.tempLength ≤ 8) (add : EncAdd) :
    (o.encAdd add).stream = o.stream ++ add.symbols.flatMap b64Code := by
  cases add with
  | two a b =>
    obtain ⟨hbits, hlen⟩ := b64Huffsym_valid a
    obtain ⟨hbits', hlen'⟩ := b64Huffsym_valid b
    have hlt : (b64Huffsym a).1 <<< (b64Huffsym b).2 ||| (b64Huffsym b).1 <
        2 ^ ((b64Huffsym a).2 + (b64Huffsym b).2) := by
      rw [Word.shiftLeft_or_of_lt hbits', Nat.pow_add, Nat.mul_comm (2 ^ (b64Huffsym a).2)]
      have hmul := Nat.mul_le_mul_left (2 ^ (b64Huffsym b).2) (Nat.succ_le_of_lt hbits)
      rw [Nat.mul_succ] at hmul
      omega
    refine (stream_flushSome _).trans ?_
    rw [Nat.or_assoc, stream_append (by omega) hlt, bits_shiftLeft_or hbits']
    simp [EncAdd.symbols, b64Code]
  | one a =>
    obtain ⟨hbits, hlen⟩ := b64Huffsym_valid a
    refine (stream_flushSome _).trans ((stream_append (by omega) hbits).trans ?_)
    simp [EncAdd.symbols, b64Code]

theorem HuffOut.tempLength_encAdd_le (o : HuffOut) (add : EncAdd) :
    (o.encAdd add).tempLength ≤ 8 := by
  cases add <;> exact tempLength_flushSome_le _

theorem HuffOut.stream_foldl_encAdd (h : o.tempLength ≤ 8) (adds : List EncAdd) :
    (adds.foldl encAdd o).stream = o.stream ++ (adds.flatMap EncAdd.symbols).flatMap b64Code ∧
      (adds.foldl encAdd o).tempLength ≤ 8 := by
  induction adds generalizing o with
  | nil => exact ⟨(append_nil _).symm, h⟩
  | cons add adds ih =>
    obtain ⟨hstream, hle⟩ := ih (o := o.encAdd add) (tempLength_encAdd_le o add)
    rw [foldl_cons, hstream, stream_encAdd h, flatMap_cons, flatMap_append,
      append_assoc]
    exact ⟨rfl, hle⟩

/-! ### Symbols -/

/-- The indices into the alphabet for a list of bytes. -/
def sextets (input : Bytes) : List Nat := (encAdds input).flatMap EncAdd.symbols

theorem base64Output_eq (input : Bytes) : base64Output input = (sextets input).map base64Char := by
  fun_induction base64Output input with
  | case1 a b c input ih => simp [sextets, encAdds, EncAdd.symbols, ih]
  | case2 | case3 | case4 => simp [sextets, encAdds, EncAdd.symbols]

section
variable (a b : UInt8)

/-! The symbols as numbers: the first six bits, the last two and the first four, the last four and
the first two, and the last six. -/

theorem sextet_first : a.toNat >>> 2 = a.toNat / 4 := Nat.shiftRight_eq_div_pow _ 2

theorem sextet_second :
    (a.toNat &&& 0x3) <<< 4 ||| b.toNat >>> 4 = 16 * (a.toNat % 4) + b.toNat / 16 := by
  have hb := b.toNat_lt
  have hand : a.toNat &&& 0x3 = a.toNat % 4 := Nat.and_two_pow_sub_one_eq_mod _ 2
  rw [hand, Nat.shiftRight_eq_div_pow, Word.shiftLeft_or_of_lt (by omega)]
  omega

theorem sextet_third :
    (a.toNat &&& 0xf) <<< 2 ||| b.toNat >>> 6 = 4 * (a.toNat % 16) + b.toNat / 64 := by
  have hb := b.toNat_lt
  have hand : a.toNat &&& 0xf = a.toNat % 16 := Nat.and_two_pow_sub_one_eq_mod _ 4
  rw [hand, Nat.shiftRight_eq_div_pow, Word.shiftLeft_or_of_lt (by omega)]
  omega

theorem sextet_fourth : a.toNat &&& 0x3f = a.toNat % 64 := Nat.and_two_pow_sub_one_eq_mod _ 6

theorem sextet_second_last : (a.toNat &&& 0x3) <<< 4 = 16 * (a.toNat % 4) := by
  have hand : a.toNat &&& 0x3 = a.toNat % 4 := Nat.and_two_pow_sub_one_eq_mod _ 2
  rw [hand, Nat.shiftLeft_eq, Nat.mul_comm]

theorem sextet_third_last : (a.toNat &&& 0xf) <<< 2 = 4 * (a.toNat % 16) := by
  have hand : a.toNat &&& 0xf = a.toNat % 16 := Nat.and_two_pow_sub_one_eq_mod _ 4
  rw [hand, Nat.shiftLeft_eq, Nat.mul_comm]

end

theorem sextets_lt (input : Bytes) : ∀ a ∈ sextets input, a < 64 := by
  unfold sextets
  fun_induction encAdds input with
  | case1 a b c input ih =>
    have ha := a.toNat_lt
    have hb := b.toNat_lt
    have hc := c.toNat_lt
    rw [sextet_first, sextet_second, sextet_third, sextet_fourth]
    simp only [flatMap_cons, EncAdd.symbols, cons_append, nil_append,
      forall_mem_cons]
    exact ⟨by omega, by omega, by omega, by omega, ih⟩
  | case2 a b =>
    have ha := a.toNat_lt
    have hb := b.toNat_lt
    rw [sextet_first, sextet_second, sextet_third_last]
    simp only [flatMap_cons, flatMap_nil, EncAdd.symbols, cons_append, nil_append,
      forall_mem_cons]
    exact ⟨by omega, by omega, by omega, nofun⟩
  | case3 a =>
    have ha := a.toNat_lt
    rw [sextet_first, sextet_second_last]
    simp only [flatMap_cons, flatMap_nil, EncAdd.symbols, cons_append, nil_append,
      forall_mem_cons]
    exact ⟨by omega, by omega, nofun⟩
  | case4 => nofun

theorem length_sextets (input : Bytes) : (sextets input).length = base64Length input.length := by
  unfold sextets base64Length
  fun_induction encAdds input with
  | case1 a b c input ih =>
    simp only [flatMap_cons, EncAdd.symbols, cons_append, nil_append, length_cons,
      ih]
    rw [show input.length + 1 + 1 + 1 = input.length + 3 by omega, Nat.add_div_right _ (by decide),
      Nat.add_mod_right]
    omega
  | case2 | case3 | case4 => simp [EncAdd.symbols, tailXtra]

theorem base64Encode_eq (input : Bytes) : base64Encode input = some (base64Output input) :=
  if_pos (by rw [base64Output_eq, length_map, length_sextets])

theorem flatMap_huffCode_base64Output (input : Bytes) :
    (base64Output input).flatMap huffCode = (sextets input).flatMap b64Code := by
  rw [base64Output_eq, flatMap_map]
  refine flatMap_congr fun a ha => ?_
  rw [huffCode, b64Code, huffman_tables_checked.2.2 a (sextets_lt input a ha)]

theorem length_flatMap_b64Code_le (symbols : List Nat) :
    (symbols.flatMap b64Code).length ≤ 11 * symbols.length := by
  induction symbols with
  | nil => exact Nat.le_refl 0
  | cons a symbols ih =>
    have ha := (b64Huffsym_valid a).2
    rw [flatMap_cons, length_append, b64Code, length_bits, length_cons]
    omega

theorem bytesForBits_mono {m : Nat} (h : n ≤ m) : bytesForBits n ≤ bytesForBits m := by
  unfold bytesForBits
  split_ifs <;> omega

theorem base64EncodeAndHuffmanCompress_isPadded (input : Bytes) :
    ∃ output, base64EncodeAndHuffmanCompress input = some output ∧
      IsPadded ((sextets input).flatMap b64Code) output := by
  obtain ⟨hstream, hle⟩ := HuffOut.stream_foldl_encAdd (o := {}) (by decide) (encAdds input)
  have hpad := HuffOut.isPadded_finish hle
  rw [hstream] at hpad
  refine ⟨_, if_pos ?_, hpad⟩
  rw [hpad.length_eq, ← length_sextets]
  exact bytesForBits_mono (length_flatMap_b64Code_le (sextets input))

/-- The encoder in one pass returns what the two encoders return one after the other. No assertion
fails, and whenever bits are added, the accumulator has room for them beside its pending bits. -/
theorem one_pass_eq_two_passes (input : Bytes) :
    (∃ base64 output, base64Encode input = some base64 ∧ huffmanCompress base64 = some output ∧
      base64EncodeAndHuffmanCompress input = some output) ∧
    ∀ done add rest, encAdds input = done ++ add :: rest →
      (done.foldl HuffOut.encAdd {}).tempLength + add.length ≤ 32 := by
  refine ⟨?_, fun done add rest _ => ?_⟩
  · obtain ⟨output, houtput, hpad⟩ := huffmanCompress_isPadded (base64Output input)
    obtain ⟨output', houtput', hpad'⟩ := base64EncodeAndHuffmanCompress_isPadded input
    rw [flatMap_huffCode_base64Output] at hpad
    exact ⟨_, output, base64Encode_eq input, houtput, hpad'.unique hpad ▸ houtput'⟩
  · have hpending := (HuffOut.stream_foldl_encAdd (o := {}) (by decide) done).2
    have hlen := add.length_le
    omega

/-- Five bytes, with a plus in their base64: the second of four calls. -/
theorem one_pass_five_bytes : encAdds [0xfb, 0xef, 0xbe, 0x01, 0x02] =
      [.two 62 62] ++ .two 62 62 :: [.two 0 16, .one 8] ∧
    (([EncAdd.two 62 62].foldl HuffOut.encAdd {}).tempLength + (EncAdd.two 62 62).length ≤ 32) :=
  have h : encAdds [0xfb, 0xef, 0xbe, 0x01, 0x02] =
      [.two 62 62] ++ .two 62 62 :: [.two 0 16, .one 8] := by decide
  ⟨h, (one_pass_eq_two_passes [0xfb, 0xef, 0xbe, 0x01, 0x02]).2 _ _ _ h⟩

end GrpcCore
