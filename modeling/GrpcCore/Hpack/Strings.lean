import GrpcCore.Hpack.DecodeHuff
import GrpcCore.Hpack.ParserTable
import GrpcCore.Lib.Incremental

/-!
# Reading the integers and strings of a header block

`HPackParser::Input` and `HPackParser::String` (`hpack_parser.cc`). An `Input` is the list of bytes
from `begin_` to `end_`. A function that returns an empty optional stops for one of three reasons:
the input ended (`eof_error_`), it set an error, or `HuffDecoder::Run` returned false, in which case
no error is set. The memory management of slices is left out: a string is its bytes.

Every reader here is resumable: what it makes of an input does not change when more bytes follow.
-/

namespace GrpcCore

open Incremental

/-- `%0*x`: a number in hexadecimal, padded with zeros to a width. -/
def hexDigits (width n : Nat) : String :=
  let digits := Nat.toDigits 16 n
  String.ofList (List.replicate (width - digits.length) '0' ++ digits)

/-- The errors of `HPackParser`. `assertion` is a failing `GPR_ASSERT` of the table, which ends the
process. -/
inductive ParseError where
  | varintOutOfRange (value : Nat) (lastByte : UInt8)
  | illegalBase64
  | illegalOpCode
  | invalidIndex (index size : Nat)
  | tooManyTableSizeChanges
  | table (e : TableError)
  | metadataSizeLimitExceeded (frameLength limit : Nat) (md : Memento)
  | incompleteHeader
  | assertion
  deriving DecidableEq

/-- The text of an error. The sizes of the headers received before one that exceeds the limit,
which the text goes on to list, are left out. -/
def ParseError.message : ParseError → String
  | .varintOutOfRange value lastByte =>
    s!"integer overflow in hpack integer decoding: have 0x{hexDigits 8 value}, " ++
      s!"got byte 0x{hexDigits 2 lastByte.toNat} on byte 5"
  | .illegalBase64 => "illegal base64 encoding"
  | .illegalOpCode => "Illegal hpack op code"
  | .invalidIndex _ _ => "Invalid HPACK index received"
  | .tooManyTableSizeChanges => "More than two max table size changes in a single frame"
  | .table e => e.message
  | .metadataSizeLimitExceeded frameLength limit md =>
    s!"received initial metadata size exceeds limit ({frameLength} vs. {limit}); adding " ++
      String.ofList (md.key.map fun b => Char.ofNat b.toNat) ++
      s!" (length {md.transportSize}B)"
  | .incompleteHeader => "Incomplete header at the end of a header/continuation sequence"
  | .assertion => ""

/-- A function of the parser that reads from its input. -/
abbrev Read (α : Type) := Reader UInt8 ParseError α

/-! ## Integers -/

def parseVarintOutOfRange (value : Nat) (lastByte : UInt8) : Read Nat :=
  Reader.stop (.error (.varintOutOfRange value lastByte))

/-- The end of `ParseVarint`: a stream of `0x80` that has to end in `0x00`. -/
def parseVarintEnd (value : Nat) : Read Nat
  | [] => .error .eof
  | cur :: input =>
    if cur = 0x80 then parseVarintEnd value input
    else if cur = 0 then .ok (value, input)
    else .error (.error (.varintOutOfRange value cur))

/-- The fifth byte of `ParseVarint`, where the sum can overflow. -/
def parseVarintByte5 (value : Nat) : Read Nat := do
  let cur ← Reader.next
  let c := (cur &&& 0x7f).toNat
  if 0xf < c then parseVarintOutOfRange value cur
  else
    let add := c <<< 28
    if 0xffffffff - value < add then parseVarintOutOfRange value cur
    else
      let value := u32 (value + add)
      if cur &&& 0x80 = 0 then pure value else parseVarintEnd value

/-- The first bytes of `ParseVarint`, which add seven bits each at the given places. -/
def parseVarintBytes : List Nat → Nat → Read Nat
  | [], value => parseVarintByte5 value
  | shift :: shifts, value => do
    let cur ← Reader.next
    let value := u32 (value + (cur &&& 0x7f).toNat <<< shift)
    if cur &&& 0x80 = 0 then pure value else parseVarintBytes shifts value

def parseVarint (value : Nat) : Read Nat := parseVarintBytes [0, 7, 14, 21] value

/-! ## Strings -/

structure StringPrefix where
  length : Nat
  huff : Bool

def parseStringPrefix : Read StringPrefix := do
  let cur ← Reader.next
  let huff := cur &&& 0x80 != 0
  let strlen := (cur &&& 0x7f).toNat
  if strlen = 0x7f then
    let strlen ← parseVarint 0x7f
    pure ⟨strlen, huff⟩
  else pure ⟨strlen, huff⟩

def parseUncompressed (length : Nat) : Read Bytes := Reader.take length

/-- `ParseHuff`, with the decoder of the experiment `new_hpack_huffman_decoder`, which is on by
default. -/
def parseHuff (length : Nat) : Read Bytes := do
  let bytes ← Reader.take length
  match huffDecode bytes with
  | some output => pure output
  | none => Reader.stop .rejected

/-- `String::Parse`. -/
def parseString : Read Bytes := do
  let pfx ← parseStringPrefix
  if pfx.huff then parseHuff pfx.length else parseUncompressed pfx.length

/-! ## Base64 -/

def kBase64Alphabet : Bytes :=
  ascii "ABCDEFGHIJKLMNOPQRSTUVWXYZabcdefghijklmnopqrstuvwxyz0123456789+/="

def kBase64InverseTable : List Nat :=
  kBase64Alphabet.zipIdx.foldl (fun table e => table.set e.1.toNat e.2) (List.replicate 256 255)

/-- The six bits of a character, none for a character outside the alphabet. -/
def base64Bits (c : UInt8) : Option Nat :=
  let bits := kBase64InverseTable.getD c.toNat 255
  if 63 < bits then none else some bits

/-- The loop of `Unbase64Loop` over groups of four characters, and its last 0 to 3 characters. -/
def unbase64Groups : Bytes → Option Bytes
  | [] => some []
  | [_] => none
  | [a, b] => do
    let buffer := (← base64Bits a) <<< 18 ||| (← base64Bits b) <<< 12
    if buffer &&& 0xffff ≠ 0 then none else some [UInt8.ofNat (buffer >>> 16)]
  | [a, b, c] => do
    let buffer := (← base64Bits a) <<< 18 ||| (← base64Bits b) <<< 12 ||| (← base64Bits c) <<< 6
    if buffer &&& 0xff ≠ 0 then none
    else some [UInt8.ofNat (buffer >>> 16), UInt8.ofNat (buffer >>> 8)]
  | a :: b :: c :: d :: cur => do
    let buffer := (← base64Bits a) <<< 18 ||| (← base64Bits b) <<< 12 |||
      (← base64Bits c) <<< 6 ||| (← base64Bits d)
    let out ← unbase64Groups cur
    some (UInt8.ofNat (buffer >>> 16) :: UInt8.ofNat (buffer >>> 8) :: UInt8.ofNat buffer :: out)

/-- `Unbase64Loop`, which first drops the characters `=` at the end. -/
def unbase64Loop (s : Bytes) : Option Bytes :=
  unbase64Groups (s.reverse.dropWhile (· = 0x3d)).reverse

def unbase64 (s : Bytes) : Read Bytes :=
  match unbase64Loop s with
  | some result => pure result
  | none => Reader.stop (.error .illegalBase64)

/-- The branch of `ParseBinary` for a string that is not Huffman coded: `peek` finds the zero that
marks a true-binary string. -/
def parseBinaryPlain (length : Nat) : Read Bytes := fun input =>
  if 0 < length ∧ input.head? = some 0 then parseUncompressed (length - 1) input.tail
  else (parseUncompressed length >>= unbase64) input

/-- The branch of `ParseBinary` for a Huffman coded string: the first byte says what it is. -/
def parseBinaryHuff (length : Nat) : Read Bytes := do
  let decompressed ← parseHuff length
  match decompressed with
  | [] => pure []
  | c :: rest => if c = 0 then pure rest else unbase64 decompressed

def parseBinary : Read Bytes := do
  let pfx ← parseStringPrefix
  if pfx.huff then parseBinaryHuff pfx.length else parseBinaryPlain pfx.length

def parseValueString (isBinary : Bool) : Read Bytes := if isBinary then parseBinary else parseString

/-! ## What is read does not depend on what follows -/

theorem parseVarintEnd_resumable (value : Nat) : Resumable (parseVarintEnd value) where
  ok {input a rest} more h := by
    induction input with
    | nil => cases h
    | cons cur input ih =>
      simp only [parseVarintEnd, List.cons_append] at h ⊢
      split at h
      · next hcur =>
        rw [if_pos hcur]
        exact ih h
      · next hcur =>
        rw [if_neg hcur]
        split at h
        · next hcur =>
          rw [if_pos hcur]
          cases h
          rfl
        · cases h
  stop {input s} more h hs := by
    induction input with
    | nil =>
      cases h
      exact absurd rfl hs
    | cons cur input ih =>
      simp only [parseVarintEnd, List.cons_append] at h ⊢
      split at h
      · next hcur =>
        rw [if_pos hcur]
        exact ih h
      · next hcur =>
        rw [if_neg hcur]
        split at h
        · cases h
        · next hcur => rw [if_neg hcur, h]
  le {input a rest} h := by
    induction input with
    | nil => cases h
    | cons cur input ih =>
      simp only [parseVarintEnd] at h
      split at h
      · exact (ih h).trans (Nat.le_succ _)
      · split at h
        · cases h
          exact Nat.le_succ _
        · cases h

theorem parseVarintByte5_resumable (value : Nat) : Resumable (parseVarintByte5 value) := by
  refine .bind .next fun cur => .ite (.stop' _) (.ite (.stop' _) (.ite (.pure _) ?_))
  exact parseVarintEnd_resumable _

theorem parseVarintBytes_resumable (shifts : List Nat) (value : Nat) :
    Resumable (parseVarintBytes shifts value) := by
  induction shifts generalizing value with
  | nil => exact parseVarintByte5_resumable value
  | cons shift shifts ih => exact .bind .next fun cur => .ite (.pure _) (ih _)

theorem parseVarint_resumable (value : Nat) : Resumable (parseVarint value) :=
  parseVarintBytes_resumable _ value

theorem parseStringPrefix_resumable : Resumable parseStringPrefix :=
  .bind .next fun _ => .ite (.bind (parseVarint_resumable _) fun _ => .pure _) (.pure _)

theorem parseHuff_resumable (length : Nat) : Resumable (parseHuff length) := by
  refine .bind (.take length) fun bytes => ?_
  cases huffDecode bytes with
  | some output => exact .pure _
  | none => exact .stop' _

theorem parseString_resumable : Resumable parseString :=
  .bind parseStringPrefix_resumable fun _ => .ite (parseHuff_resumable _) (.take _)

theorem unbase64_resumable (s : Bytes) : Resumable (unbase64 s) := by
  unfold unbase64
  cases unbase64Loop s with
  | some result => exact .pure _
  | none => exact .stop' _

theorem parseBinaryPlain_resumable (length : Nat) : Resumable (parseBinaryPlain length) := by
  have hbase64 : Resumable (parseUncompressed length >>= unbase64) :=
    .bind (.take length) unbase64_resumable
  by_cases hl : 0 < length
  · refine .ofHead (f := fun b => if b = 0 then Reader.next >>= fun _ =>
      parseUncompressed (length - 1) else parseUncompressed length >>= unbase64)
      (fun b => .ite (.bind .next fun _ => .take _) hbase64) ?_ fun b input => ?_
    · simp [parseBinaryPlain, parseUncompressed, Reader.bind_apply, Reader.take, hl]
    · by_cases hb : b = 0 <;> simp [parseBinaryPlain, Reader.bind_apply, Reader.next, hl, hb]
  · have heq : parseBinaryPlain length = (parseUncompressed length >>= unbase64) := by
      funext input
      simp [parseBinaryPlain, hl]
    rw [heq]
    exact hbase64

theorem parseBinaryHuff_resumable (length : Nat) : Resumable (parseBinaryHuff length) := by
  refine .bind (parseHuff_resumable length) fun decompressed => ?_
  cases decompressed with
  | nil => exact .pure _
  | cons c rest => exact .ite (.pure _) (unbase64_resumable _)

theorem parseBinary_resumable : Resumable parseBinary :=
  .bind parseStringPrefix_resumable fun _ =>
    .ite (parseBinaryHuff_resumable _) (parseBinaryPlain_resumable _)

theorem parseValueString_resumable (isBinary : Bool) : Resumable (parseValueString isBinary) :=
  .ite parseBinary_resumable parseString_resumable

end GrpcCore
