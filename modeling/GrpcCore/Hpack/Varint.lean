import GrpcCore.Hpack.Basic
import GrpcCore.Lib.Word

/-!
# Variable-length integers

`varint.h` and `varint.cc`: an integer shares its first byte with the opcode, and what does not fit
there follows in groups of seven bits.
-/

namespace GrpcCore

def maxInVarintPrefix (prefixBits : Nat) : Nat := 2 ^ (8 - prefixBits) - 1

def varintLength (tailValue : Nat) : Nat :=
  if tailValue < 2 ^ 7 then 2
  else if tailValue < 2 ^ 14 then 3
  else if tailValue < 2 ^ 21 then 4
  else if tailValue < 2 ^ 28 then 5
  else 6

/-- `VarintWriteTail`: all bytes but the last have their highest bit set. -/
def varintWriteTail (tailValue : Nat) : Nat → Bytes
  | 0 => []
  | 1 => [(Word.byteAt tailValue 0 ||| 0x80) &&& 0x7f]
  | tailLength + 1 =>
    (Word.byteAt tailValue 0 ||| 0x80) :: varintWriteTail (tailValue >>> 7) tailLength

namespace VarintWriter

def length (prefixBits value : Nat) : Nat :=
  if value < maxInVarintPrefix prefixBits then 1
  else varintLength (value - maxInVarintPrefix prefixBits)

def write (prefixBits value : Nat) (opcode : UInt8) : Bytes :=
  if length prefixBits value = 1 then [opcode ||| UInt8.ofNat value]
  else
    (opcode ||| UInt8.ofNat (maxInVarintPrefix prefixBits)) ::
      varintWriteTail (value - maxInVarintPrefix prefixBits) (length prefixBits value - 1)

end VarintWriter

theorem length_varintWriteTail (tailValue tailLength : Nat) :
    (varintWriteTail tailValue tailLength).length = tailLength := by
  induction tailLength generalizing tailValue with
  | zero => rfl
  | succ n ih =>
    cases n with
    | zero => rfl
    | succ n => exact congrArg (· + 1) (ih _)

theorem VarintWriter.length_pos (prefixBits value : Nat) : 0 < length prefixBits value := by
  unfold length varintLength
  split
  · omega
  · split
    · omega
    · split
      · omega
      · split
        · omega
        · split <;> omega

theorem VarintWriter.length_write (prefixBits value : Nat) (opcode : UInt8) :
    (write prefixBits value opcode).length = length prefixBits value := by
  have hpos := length_pos prefixBits value
  unfold write
  split
  · next h => rw [h, List.length_singleton]
  · rw [List.length_cons, length_varintWriteTail]
    omega

end GrpcCore
