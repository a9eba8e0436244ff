import Mathlib.Algebra.Group.Nat.Defs
import Mathlib.Data.List.Basic

/-!
# HPACK constants, mementos and the static table

`hpack_constants.h`, the part of `ParsedMetadata` (`parsed_metadata.h`) that the dynamic tables and
the parser read, and `kStaticTable` (`hpack_parser_table.cc`). A memento is modelled by the key and
value bytes it was parsed from and its stored transport size; what a metadata trait makes of the
value is a function of these and is left out. Machine words are natural numbers, reduced modulo
`2 ^ 32` where the code's type can wrap.
-/

namespace GrpcCore

/-- A slice, as the bytes it refers to. -/
abbrev Bytes := List UInt8

/-- The bytes of an ASCII literal of the source. -/
def ascii (s : String) : Bytes := s.toList.map fun c => UInt8.ofNat c.toNat

/-- Reduction to an unsigned 32-bit word. -/
def u32 (n : Nat) : Nat := n % 2 ^ 32

theorem u32_of_lt {n : Nat} (h : n < 2 ^ 32) : u32 n = n := Nat.mod_eq_of_lt h

/-- A part of a table in which each of the values stands `n` times. -/
def each {α : Type} (n : Nat) (values : List α) : List α := values.flatMap (List.replicate n)

namespace HpackConstants

/-- Per entry overhead bytes as per the spec. -/
def kEntryOverhead : Nat := 32

/-- Initial table size as per the spec. -/
def kInitialTableSize : Nat := 4096

/-- Last index in the static table. -/
def kLastStaticEntry : Nat := 61

/-- `EntriesForBytes`, whose sum is an unsigned 32-bit word. -/
def entriesForBytes (bytes : Nat) : Nat := u32 (bytes + kEntryOverhead - 1) / kEntryOverhead

def kInitialTableEntries : Nat := entriesForBytes kInitialTableSize

theorem kInitialTableEntries_eq : kInitialTableEntries = 128 := rfl

/-- The entries counted for a byte size cover it, short of the last 31 values of the word. -/
theorem le_entriesForBytes {bytes : Nat} (h : bytes + 31 < 2 ^ 32) :
    bytes ≤ 32 * entriesForBytes bytes := by
  simp only [entriesForBytes, u32, kEntryOverhead]
  omega

theorem entriesForBytes_le (bytes : Nat) : entriesForBytes bytes ≤ 2 ^ 27 := by
  simp only [entriesForBytes, u32, kEntryOverhead]
  omega

end HpackConstants

open HpackConstants

/-- A `ParsedMetadata` object: the key, the value and the stored transport size. -/
structure Memento where
  key : Bytes
  value : Bytes
  transportSize : Nat
  deriving DecidableEq

/-- `absl::EndsWith(key, "-bin")`. -/
def isBinaryKey (key : Bytes) : Bool := (ascii "-bin").isSuffixOf key

namespace Memento

/-- `is_binary_header`: every vtable computes it from the key. -/
def isBinaryHeader (m : Memento) : Bool := isBinaryKey m.key

/-- `grpc_metadata_batch::Parse` on a key, a value and a transport size. -/
def parse (key value : Bytes) (transportSize : Nat) : Memento :=
  ⟨key, value, u32 transportSize⟩

/-- `WithNewValue`: the same key with another value. -/
def withNewValue (m : Memento) (value : Bytes) : Memento :=
  ⟨m.key, value, u32 (u32 m.key.length + u32 value.length + 32)⟩

end Memento

/-- The entries of `kStaticTable`. -/
def kStaticTable : List (String × String) :=
  [(":authority", ""), (":method", "GET"), (":method", "POST"), (":path", "/"),
   (":path", "/index.html"), (":scheme", "http"), (":scheme", "https"), (":status", "200"),
   (":status", "204"), (":status", "206"), (":status", "304"), (":status", "400"),
   (":status", "404"), (":status", "500"), ("accept-charset", ""),
   ("accept-encoding", "gzip, deflate"), ("accept-language", ""), ("accept-ranges", ""),
   ("accept", ""), ("access-control-allow-origin", ""), ("age", ""), ("allow", ""),
   ("authorization", ""), ("cache-control", ""), ("content-disposition", ""),
   ("content-encoding", ""), ("content-language", ""), ("content-length", ""),
   ("content-location", ""), ("content-range", ""), ("content-type", ""), ("cookie", ""),
   ("date", ""), ("etag", ""), ("expect", ""), ("expires", ""), ("from", ""), ("host", ""),
   ("if-match", ""), ("if-modified-since", ""), ("if-none-match", ""), ("if-range", ""),
   ("if-unmodified-since", ""), ("last-modified", ""), ("link", ""), ("location", ""),
   ("max-forwards", ""), ("proxy-authenticate", ""), ("proxy-authorization", ""),
   ("range", ""), ("referer", ""), ("refresh", ""), ("retry-after", ""), ("server", ""),
   ("set-cookie", ""), ("strict-transport-security", ""), ("transfer-encoding", ""),
   ("user-agent", ""), ("vary", ""), ("via", ""), ("www-authenticate", "")]

/-- `MakeMemento`: the memento of an entry of the static table. -/
def makeMemento (e : String × String) : Memento :=
  .parse (ascii e.1) (ascii e.2) ((ascii e.1).length + (ascii e.2).length + kEntryOverhead)

/-- `StaticMementos`: the mementos of the static table, in its order. -/
def staticMementos : List Memento := kStaticTable.map makeMemento

end GrpcCore
