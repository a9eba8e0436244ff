import GrpcCore.Json.Reader

/-!
# The JSON writer

`JsonWriter::Dump`. The output is collected in one string, with the flags that say whether a comma,
a line break or an indentation comes next. How much room the string has (`OutputCheck`) does not
show in it.
-/

namespace GrpcCore

structure JsonWriter where
  indent : Nat
  depth : Nat := 0
  containerEmpty : Bool := true
  gotKey : Bool := false
  output : Octets := []

namespace JsonWriter

def outputChar (w : JsonWriter) (c : UInt8) : JsonWriter := { w with output := w.output ++ [c] }

def outputString (w : JsonWriter) (str : Octets) : JsonWriter :=
  { w with output := w.output ++ str }

def spacesstr : Octets := List.replicate 64 32

/-- The loop of `OutputIndent`, which writes the spaces in pieces of 64. -/
def outputSpaces (w : JsonWriter) (spaces : Nat) : JsonWriter :=
  if spaces ≥ spacesstr.length then
    outputSpaces (w.outputString spacesstr) (spaces - spacesstr.length)
  else if spaces = 0 then w
  else w.outputString (spacesstr.drop (spacesstr.length - spaces))
termination_by spaces
decreasing_by
  have : spacesstr.length = 64 := rfl
  omega

/-- `OutputIndent`. The product is one of type `int`. -/
def outputIndent (w : JsonWriter) : JsonWriter :=
  let spaces := w.depth * w.indent % 2 ^ 32
  if w.indent = 0 then w
  else if w.gotKey then w.outputChar 32
  else w.outputSpaces spaces

def valueEnd (w : JsonWriter) : JsonWriter :=
  if w.containerEmpty then
    let w := { w with containerEmpty := false }
    if w.indent = 0 ∨ w.depth = 0 then w else w.outputChar 10
  else
    let w := w.outputChar 44
    if w.indent = 0 then w else w.outputChar 10

/-! ## Strings -/

def hex : Octets := octets "0123456789abcdef"

def escapeUtf16 (utf16 : Nat) : Octets :=
  octets "\\u" ++ [hex.getD ((utf16 >>> 12) &&& 0x0f) 0, hex.getD ((utf16 >>> 8) &&& 0x0f) 0,
    hex.getD ((utf16 >>> 4) &&& 0x0f) 0, hex.getD (utf16 &&& 0x0f) 0]

def escapeControl (c : Nat) : Octets :=
  if c = 8 then octets "\\b"
  else if c = 12 then octets "\\f"
  else if c = 10 then octets "\\n"
  else if c = 13 then octets "\\r"
  else if c = 9 then octets "\\t"
  else escapeUtf16 c

/-- The first byte of a character of several bytes: its bits, and how many bytes follow. -/
def leadByte (c : Nat) : Option (Nat × Nat) :=
  if c &&& 0xe0 = 0xc0 then some (c &&& 0x1f, 1)
  else if c &&& 0xf0 = 0xe0 then some (c &&& 0x0f, 2)
  else if c &&& 0xf8 = 0xf0 then some (c &&& 0x07, 3)
  else none

/-- The bytes that follow: the loop that collects their bits. -/
def continuation : Nat → Nat → Octets → Option (Nat × Octets)
  | 0, utf32, string => some (utf32, string)
  | _ + 1, _, [] => none
  | extra + 1, utf32, c :: string =>
    if c.toNat &&& 0xc0 ≠ 0x80 then none
    else continuation extra (utf32 <<< 6 ||| (c.toNat &&& 0x3f)) string

def escapeUtf32 (utf32 : Nat) : Octets :=
  if utf32 ≥ 0x10000 then
    escapeUtf16 (0xd800 ||| (utf32 - 0x10000) >>> 10) ++
      escapeUtf16 (0xdc00 ||| ((utf32 - 0x10000) &&& 0x3ff))
  else escapeUtf16 utf32

theorem length_continuation {extra utf32 n : Nat} {string rest : Octets}
    (h : continuation extra utf32 string = some (n, rest)) : rest.length ≤ string.length := by
  induction extra generalizing utf32 string with
  | zero =>
    cases h
    exact Nat.le_refl _
  | succ extra ih =>
    cases string with
    | nil => cases h
    | cons c string =>
      rw [continuation] at h
      split at h
      · cases h
      · exact Nat.le_succ_of_le (ih h)

/-- What `EscapeString` writes between the quotes: up to a zero byte, or to what is not UTF-8. -/
def escapeChars : Octets → Octets
  | [] => []
  | c :: string =>
    if c = 0 then []
    else if 32 ≤ c.toNat ∧ c.toNat ≤ 126 then
      (if c = 92 ∨ c = 34 then [92] else []) ++ c :: escapeChars string
    else if c.toNat < 32 ∨ c = 127 then escapeControl c.toNat ++ escapeChars string
    else
      match leadByte c.toNat with
      | none => []
      | some (utf32, extra) =>
        match hcont : continuation extra utf32 string with
        | none => []
        | some (utf32, rest) =>
          if (0xd800 ≤ utf32 ∧ utf32 ≤ 0xdfff) ∨ 0x110000 ≤ utf32 then []
          else escapeUtf32 utf32 ++ escapeChars rest
termination_by string => string.length
decreasing_by
  · simp
  · simp
  · have := length_continuation hcont
    simp only [List.length_cons]
    omega

def escapeString (w : JsonWriter) (string : Octets) : JsonWriter :=
  (((w.outputChar 34).outputString (escapeChars string))).outputChar 34

/-! ## Values -/

/-- The separator and the indentation before a value. -/
def beginValue (w : JsonWriter) : JsonWriter :=
  (if w.gotKey then w else w.valueEnd).outputIndent

/-- `ContainerBegins`, with the bracket of the type. -/
def containerBegins (w : JsonWriter) (bracket : UInt8) : JsonWriter :=
  let w := w.beginValue.outputChar bracket
  { w with containerEmpty := true, gotKey := false, depth := w.depth + 1 }

/-- The line break before the bracket that ends a container. -/
def endLine (w : JsonWriter) : JsonWriter :=
  if w.indent ≠ 0 ∧ ¬ w.containerEmpty then w.outputChar 10 else w

def containerEnds (w : JsonWriter) (bracket : UInt8) : JsonWriter :=
  let w := w.endLine
  let w := { w with depth := w.depth - 1 }
  let w := if ¬ w.containerEmpty then w.outputIndent else w
  let w := w.outputChar bracket
  { w with containerEmpty := false, gotKey := false }

def objectKey (w : JsonWriter) (string : Octets) : JsonWriter :=
  let w := (w.valueEnd.outputIndent.escapeString string).outputChar 58
  { w with gotKey := true }

def valueRaw (w : JsonWriter) (string : Octets) : JsonWriter :=
  { w.beginValue.outputString string with gotKey := false }

def valueString (w : JsonWriter) (string : Octets) : JsonWriter :=
  { w.beginValue.escapeString string with gotKey := false }

mutual

/-- `DumpValue`, with `DumpObject` and `DumpArray`. -/
def dumpValue (w : JsonWriter) : Json → JsonWriter
  | .object object => (dumpMembers (w.containerBegins 123) object).containerEnds 125
  | .array array => (dumpElements (w.containerBegins 91) array).containerEnds 93
  | .string s => w.valueString s
  | .number text => w.valueRaw text
  | .jsonTrue => w.valueRaw (octets "true")
  | .jsonFalse => w.valueRaw (octets "false")
  | .jsonNull => w.valueRaw (octets "null")

/-- The loop of `DumpObject`. -/
def dumpMembers (w : JsonWriter) : List (Octets × Json) → JsonWriter
  | [] => w
  | (key, value) :: object => dumpMembers (dumpValue (w.objectKey key) value) object

/-- The loop of `DumpArray`. -/
def dumpElements (w : JsonWriter) : List Json → JsonWriter
  | [] => w
  | value :: array => dumpElements (dumpValue w value) array

end

def dump (value : Json) (indent : Nat) : Octets := (dumpValue { indent := indent } value).output

end JsonWriter

end GrpcCore
