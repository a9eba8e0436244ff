import Mathlib.Algebra.Group.Nat.Defs

/-!
# The JSON reader

`JsonReader` reads its input byte by byte: a state machine over `State`, with a stack of the
containers that are open. In the source the stack holds pointers into the tree that is built; here
a container is linked into the one below it when it ends, with the key that it has there. Nobody
looks at it in between, and a text that ends inside a container is not accepted.

`Except.error` is `GRPC_JSON_PARSE_ERROR`, with the reader as it was then.
-/

namespace GrpcCore

abbrev Octets := List UInt8

def octets (s : String) : Octets := s.toList.map fun c => UInt8.ofNat c.toNat

/-- A JSON value. Numbers are kept as their text; the members of an object are in the order of their
keys, as in a `std::map`. -/
inductive Json where
  | jsonNull
  | jsonTrue
  | jsonFalse
  | number (text : Octets)
  | string (s : Octets)
  | object (members : List (Octets × Json))
  | array (elements : List Json)

namespace Json

abbrev Object := List (Octets × Json)

/-- The value at a key: `object.find(key)`. -/
def Object.find (o : Object) (key : Octets) : Option Json := o.lookup key

/-- `object[key] = value`. -/
def Object.insert (key : Octets) (value : Json) : Object → Object
  | [] => [(key, value)]
  | (k, v) :: o =>
    if key < k then (key, value) :: (k, v) :: o
    else if key = k then (k, value) :: o
    else (k, v) :: insert key value o

end Json

namespace JsonReader

def grpcJsonMaxDepth : Nat := 255

def grpcJsonMaxErrors : Nat := 16

inductive State where
  | objectKeyBegin
  | objectKeyString
  | objectKeyEnd
  | valueBegin
  | valueString
  | stringEscape
  | stringEscapeU1
  | stringEscapeU2
  | stringEscapeU3
  | stringEscapeU4
  | valueNumber
  | valueNumberWithDecimal
  | valueNumberZero
  | valueNumberDot
  | valueNumberE
  | valueNumberEpm
  | valueTrueR
  | valueTrueU
  | valueTrueE
  | valueFalseA
  | valueFalseL
  | valueFalseS
  | valueFalseE
  | valueNullU
  | valueNullL1
  | valueNullL2
  | valueEnd
  | stateEnd
  deriving DecidableEq

inductive Container where
  | object (members : Json.Object)
  | array (elements : List Json)

/-- A container on the stack, with the key that it has in the object below it. -/
structure Frame where
  key : Octets
  container : Container

end JsonReader

open JsonReader in
/-- The fields of `JsonReader`; `index` counts the bytes that were read. -/
structure JsonReader where
  index : Nat := 0
  state : State := .valueBegin
  escapedStringWasKey : Bool := false
  containerJustBegun : Bool := false
  unicodeChar : Nat := 0
  unicodeHighSurrogate : Nat := 0
  errors : List Octets := []
  truncatedErrors : Bool := false
  utf8BytesRemaining : Nat := 0
  utf8FirstByte : Nat := 0
  rootValue : Json := .jsonNull
  stack : List Frame := []
  key : Octets := []
  string : Octets := []

namespace JsonReader

/-- `CurrentIndex`, a `size_t`. -/
def currentIndex (r : JsonReader) : Nat := (r.index + 2 ^ 64 - 1) % 2 ^ 64

def decimal (n : Nat) : Octets := octets (toString n)

def addError (r : JsonReader) (error : Octets) : JsonReader :=
  if r.errors.length = grpcJsonMaxErrors then { r with truncatedErrors := true }
  else { r with errors := r.errors ++ [error] }

/-! ## Strings -/

/-- A byte is added, after which `remaining` bytes of its character are missing. -/
def pushByte (r : JsonReader) (c remaining firstByte : Nat) : JsonReader :=
  { r with
    utf8BytesRemaining := remaining
    utf8FirstByte := firstByte
    string := r.string ++ [UInt8.ofNat c] }

def stringAddChar (r : JsonReader) (c : Nat) : Option JsonReader :=
  if r.utf8BytesRemaining = 0 then
    if c &&& 0x80 = 0 then some (r.pushByte c 0 c)
    else if c &&& 0xe0 = 0xc0 ∧ 0xc2 ≤ c then some (r.pushByte c 1 c)
    else if c &&& 0xf0 = 0xe0 then some (r.pushByte c 2 c)
    else if c &&& 0xf8 = 0xf0 ∧ c ≤ 0xf4 then some (r.pushByte c 3 c)
    else none
  else if r.utf8BytesRemaining = 1 then
    if c &&& 0xc0 ≠ 0x80 then none else some (r.pushByte c 0 r.utf8FirstByte)
  else if r.utf8BytesRemaining = 2 then
    if c &&& 0xc0 ≠ 0x80 ∨ (r.utf8FirstByte = 0xe0 ∧ c < 0xa0) ∨ (r.utf8FirstByte = 0xed ∧ 0x9f < c)
    then none else some (r.pushByte c 1 r.utf8FirstByte)
  else if r.utf8BytesRemaining = 3 then
    if c &&& 0xc0 ≠ 0x80 ∨ (r.utf8FirstByte = 0xf0 ∧ c < 0x90) ∨ (r.utf8FirstByte = 0xf4 ∧ 0x8f < c)
    then none else some (r.pushByte c 2 r.utf8FirstByte)
  else none

def stringAddUtf32 (r : JsonReader) (c : Nat) : Option JsonReader :=
  if c ≤ 0x7f then r.stringAddChar c
  else if c ≤ 0x7ff then do
    let r ← r.stringAddChar (0xc0 ||| ((c >>> 6) &&& 0x1f))
    r.stringAddChar (0x80 ||| (c &&& 0x3f))
  else if c ≤ 0xffff then do
    let r ← r.stringAddChar (0xe0 ||| ((c >>> 12) &&& 0x0f))
    let r ← r.stringAddChar (0x80 ||| ((c >>> 6) &&& 0x3f))
    r.stringAddChar (0x80 ||| (c &&& 0x3f))
  else if c ≤ 0x1fffff then do
    let r ← r.stringAddChar (0xf0 ||| ((c >>> 18) &&& 0x07))
    let r ← r.stringAddChar (0x80 ||| ((c >>> 12) &&& 0x3f))
    let r ← r.stringAddChar (0x80 ||| ((c >>> 6) &&& 0x3f))
    r.stringAddChar (0x80 ||| (c &&& 0x3f))
  else none

/-! ## Values -/

/-- The error of `CreateAndLinkValue` when the object has the key already. -/
def checkKey (r : JsonReader) : JsonReader :=
  match r.stack with
  | ⟨_, .object o⟩ :: _ =>
    if (o.find r.key).isSome then
      r.addError (octets "duplicate key \"" ++ r.key ++ octets "\" at index " ++
        decimal r.currentIndex)
    else r
  | _ => r

/-- The place that `CreateAndLinkValue` makes under `key` gets a value. What a place has when it is
made, or had before, is given to `assign`. -/
def link (r : JsonReader) (key : Octets) (assign : Json → Json) : JsonReader :=
  match r.stack with
  | [] => { r with rootValue := assign r.rootValue }
  | ⟨k, .object o⟩ :: stack =>
    { r with
      stack := ⟨k, .object (o.insert key (assign ((o.find key).getD .jsonNull)))⟩ :: stack }
  | ⟨k, .array l⟩ :: stack =>
    { r with stack := ⟨k, .array (l ++ [assign .jsonNull])⟩ :: stack }

/-- `*CreateAndLinkValue() = value`, which ends a scalar. -/
def setValue (r : JsonReader) (assign : Json → Json) : JsonReader :=
  let r := r.checkKey.link r.key assign
  { r with string := [] }

def setKey (r : JsonReader) : JsonReader := { r with key := r.string, string := [] }

def setString (r : JsonReader) : JsonReader := r.setValue fun _ => .string r.string

def setNumber (r : JsonReader) : JsonReader := r.setValue fun _ => .number r.string

def setTrue (r : JsonReader) : JsonReader := r.setValue fun _ => .jsonTrue

def setFalse (r : JsonReader) : JsonReader := r.setValue fun _ => .jsonFalse

/-- `SetNull`, which leaves what is there. -/
def setNull (r : JsonReader) : JsonReader := r.checkKey.link r.key id

def startContainer (r : JsonReader) (container : Container) : Except JsonReader JsonReader :=
  if r.stack.length = grpcJsonMaxDepth then
    .error (r.addError (octets "exceeded max stack depth (255) at index " ++
      decimal r.currentIndex))
  else
    let r := r.checkKey
    .ok { r with stack := ⟨r.key, container⟩ :: r.stack }

/-- `EndContainer`: what is on top of the stack is a value. -/
def endContainer (r : JsonReader) : JsonReader :=
  match r.stack with
  | [] => r
  | ⟨key, .object o⟩ :: stack => link { r with stack := stack } key fun _ => .object o
  | ⟨key, .array l⟩ :: stack => link { r with stack := stack } key fun _ => .array l

/-- The type of `stack_.back()` is `OBJECT`. -/
def inObject (r : JsonReader) : Bool :=
  match r.stack with
  | ⟨_, .object _⟩ :: _ => true
  | _ => false

/-- The type of `stack_.back()` is `ARRAY`. -/
def inArray (r : JsonReader) : Bool :=
  match r.stack with
  | ⟨_, .array _⟩ :: _ => true
  | _ => false

def isComplete (r : JsonReader) : Bool :=
  r.stack.isEmpty && (r.state = .stateEnd || r.state = .valueEnd)

/-! ## The state machine -/

/-- `if (!StringAddChar(c)) return PARSE_ERROR`. -/
def addChar (r : JsonReader) (c : Nat) : Except JsonReader JsonReader :=
  match r.stringAddChar c with
  | some r => .ok r
  | none => .error r

/-- `if (!StringAddUtf32(c)) return PARSE_ERROR`. -/
def addUtf32 (r : JsonReader) (c : Nat) : Except JsonReader JsonReader :=
  match r.stringAddUtf32 c with
  | some r => .ok r
  | none => .error r

def goto (r : JsonReader) (state : State) : JsonReader := { r with state := state }

/-- The state of the string that an escape is in. -/
def stringState (r : JsonReader) : State :=
  if r.escapedStringWasKey then .objectKeyString else .valueString

def endNumber (r : JsonReader) : JsonReader :=
  match r.state with
  | .valueNumber | .valueNumberWithDecimal | .valueNumberZero | .valueNumberEpm =>
    r.setNumber.goto .valueEnd
  | _ => r

def readEof (r : JsonReader) : Except JsonReader JsonReader :=
  let r := r.endNumber
  if r.isComplete then .ok r else .error r

/-- A space, a tab, a line feed or a carriage return. -/
def readSpace (r : JsonReader) (c : Nat) : Except JsonReader JsonReader :=
  match r.state with
  | .objectKeyBegin | .objectKeyEnd | .valueBegin | .valueEnd | .stateEnd => .ok r
  | .objectKeyString | .valueString =>
    if c ≠ ' '.toNat then .error r
    else if r.unicodeHighSurrogate ≠ 0 then .error r
    else r.addChar c
  | .valueNumber | .valueNumberWithDecimal | .valueNumberZero | .valueNumberEpm =>
    .ok (r.setNumber.goto .valueEnd)
  | _ => .error r

/-- A comma or the end of a container, in `VALUE_END`, `OBJECT_KEY_BEGIN` or `VALUE_BEGIN`. -/
def endValue (r : JsonReader) (c : Nat) : Except JsonReader JsonReader :=
  if c = ','.toNat then
    if r.state ≠ .valueEnd then .error r
    else if r.inObject then .ok (r.goto .objectKeyBegin)
    else if r.inArray then .ok (r.goto .valueBegin)
    else .error r
  else if r.stack.isEmpty then .error r
  else if c = '}'.toNat ∧ ¬ r.inObject then .error r
  else if c = '}'.toNat ∧ r.state = .objectKeyBegin ∧ ¬ r.containerJustBegun then .error r
  else if c = ']'.toNat ∧ ¬ r.inArray then .error r
  else if c = ']'.toNat ∧ r.state = .valueBegin ∧ ¬ r.containerJustBegun then .error r
  else
    let r := r.endContainer
    .ok (r.goto (if r.stack.isEmpty then .stateEnd else .valueEnd))

def readTerminator (r : JsonReader) (c : Nat) : Except JsonReader JsonReader :=
  match r.state with
  | .objectKeyString | .valueString =>
    if r.unicodeHighSurrogate ≠ 0 then .error r else r.addChar c
  | .valueNumber | .valueNumberWithDecimal | .valueNumberZero | .valueNumberEpm =>
    if r.stack.isEmpty then .error r
    else if c = '}'.toNat ∧ ¬ r.inObject then .error r
    else if c = ']'.toNat ∧ ¬ r.inArray then .error r
    else (r.setNumber.goto .valueEnd).endValue c
  | .valueEnd | .objectKeyBegin | .valueBegin => r.endValue c
  | _ => .error r

/-- `'\\'`. -/
def readBackslash (r : JsonReader) : Except JsonReader JsonReader :=
  match r.state with
  | .objectKeyString => .ok { r with escapedStringWasKey := true, state := .stringEscape }
  | .valueString => .ok { r with escapedStringWasKey := false, state := .stringEscape }
  | .stringEscape =>
    if r.unicodeHighSurrogate ≠ 0 then .error r
    else do
      let r ← r.addChar '\\'.toNat
      .ok (r.goto r.stringState)
  | _ => .error r

def isDigit (c : Nat) : Bool := '0'.toNat ≤ c && c ≤ '9'.toNat

def beginValue (r : JsonReader) (c : Nat) : Except JsonReader JsonReader :=
  if c = 't'.toNat then .ok (r.goto .valueTrueR)
  else if c = 'f'.toNat then .ok (r.goto .valueFalseA)
  else if c = 'n'.toNat then .ok (r.goto .valueNullU)
  else if c = '"'.toNat then .ok (r.goto .valueString)
  else if c = '0'.toNat then do
    let r ← r.addChar c
    .ok (r.goto .valueNumberZero)
  else if isDigit c ∨ c = '-'.toNat then do
    let r ← r.addChar c
    .ok (r.goto .valueNumber)
  else if c = '{'.toNat then do
    let r ← startContainer { r with containerJustBegun := true } (.object [])
    .ok (r.goto .objectKeyBegin)
  else if c = '['.toNat then
    startContainer { r with containerJustBegun := true } (.array [])
  else .error r

/-- A byte of a string that has no case of its own. `close` is what a quote does. -/
def readString (r : JsonReader) (c : Nat) (close : JsonReader → JsonReader) :
    Except JsonReader JsonReader :=
  if r.unicodeHighSurrogate ≠ 0 then .error r
  else if c = '"'.toNat then
    if r.utf8BytesRemaining ≠ 0 then .error r else .ok (close r)
  else if c < 32 then .error r
  else r.addChar c

/-- What the byte after a backslash stands for. -/
def escaped (c : Nat) : Option Nat :=
  if c = '"'.toNat ∨ c = '/'.toNat then some c
  else if c = 'b'.toNat then some 8
  else if c = 'f'.toNat then some 12
  else if c = 'n'.toNat then some 10
  else if c = 'r'.toNat then some 13
  else if c = 't'.toNat then some 9
  else none

/-- The byte after a backslash, when it is not one itself. -/
def readEscape (r : JsonReader) (c : Nat) : Except JsonReader JsonReader :=
  let r := r.goto r.stringState
  if r.unicodeHighSurrogate ≠ 0 ∧ c ≠ 'u'.toNat then .error r
  else if c = 'u'.toNat then .ok { r with state := .stringEscapeU1, unicodeChar := 0 }
  else
    match escaped c with
    | some b => r.addChar b
    | none => .error r

def hexValue (c : Nat) : Option Nat :=
  if '0'.toNat ≤ c ∧ c ≤ '9'.toNat then some (c - '0'.toNat)
  else if 'A'.toNat ≤ c ∧ c ≤ 'F'.toNat then some (c - ('A'.toNat - 10))
  else if 'a'.toNat ≤ c ∧ c ≤ 'f'.toNat then some (c - ('a'.toNat - 10))
  else none

/-- The unit of UTF-16 that the four digits of an escape are. -/
def takeUnit (r : JsonReader) : Except JsonReader JsonReader :=
  if r.unicodeChar &&& 0xfc00 = 0xd800 then
    if r.unicodeHighSurrogate ≠ 0 then .error r
    else .ok { r with unicodeHighSurrogate := r.unicodeChar }
  else if r.unicodeChar &&& 0xfc00 = 0xdc00 then
    if r.unicodeHighSurrogate = 0 then .error r
    else do
      let r ← r.addUtf32
        (0x10000 + (r.unicodeHighSurrogate - 0xd800) * 0x400 + (r.unicodeChar - 0xdc00))
      .ok { r with unicodeHighSurrogate := 0 }
  else if r.unicodeHighSurrogate ≠ 0 then .error r
  else r.addUtf32 r.unicodeChar

/-- The four digits of an escape have been read. -/
def endUnicode (r : JsonReader) : Except JsonReader JsonReader := do
  let r ← r.takeUnit
  .ok (r.goto r.stringState)

/-- A digit of an escape, which shifts `unicode_char_`; `next` is what follows it. -/
def readHex (r : JsonReader) (c : Nat) (next : JsonReader → Except JsonReader JsonReader) :
    Except JsonReader JsonReader :=
  match hexValue c with
  | none => .error r
  | some d => next { r with unicodeChar := (r.unicodeChar <<< 4) % 2 ^ 16 ||| d }

/-- A byte of a number, added and then looked at by `next`, the state that it leads to. -/
def readNumber (r : JsonReader) (c : Nat) (next : Option State) : Except JsonReader JsonReader := do
  let r ← r.addChar c
  match next with
  | some state => .ok (r.goto state)
  | none => .error r

/-- The byte of a literal that has to come. -/
def expect (r : JsonReader) (c : Nat) (char : Char) (next : JsonReader) :
    Except JsonReader JsonReader :=
  if c ≠ char.toNat then .error r else .ok next

/-- The switch over the state in the `default` case of the switch over the byte. -/
def readInState (r : JsonReader) (c : Nat) : Except JsonReader JsonReader :=
  match r.state with
  | .objectKeyBegin => r.expect c '"' (r.goto .objectKeyString)
  | .objectKeyString => r.readString c fun r => r.setKey.goto .objectKeyEnd
  | .valueString => r.readString c fun r => r.setString.goto .valueEnd
  | .objectKeyEnd => r.expect c ':' (r.goto .valueBegin)
  | .valueBegin => r.beginValue c
  | .stringEscape => r.readEscape c
  | .stringEscapeU1 => r.readHex c fun r => .ok (r.goto .stringEscapeU2)
  | .stringEscapeU2 => r.readHex c fun r => .ok (r.goto .stringEscapeU3)
  | .stringEscapeU3 => r.readHex c fun r => .ok (r.goto .stringEscapeU4)
  | .stringEscapeU4 => r.readHex c endUnicode
  | .valueNumber => r.readNumber c <|
    if isDigit c then some .valueNumber
    else if c = 'e'.toNat ∨ c = 'E'.toNat then some .valueNumberE
    else if c = '.'.toNat then some .valueNumberDot
    else none
  | .valueNumberWithDecimal => r.readNumber c <|
    if isDigit c then some .valueNumberWithDecimal
    else if c = 'e'.toNat ∨ c = 'E'.toNat then some .valueNumberE
    else none
  | .valueNumberZero =>
    if c ≠ '.'.toNat then .error r else r.readNumber c (some .valueNumberDot)
  | .valueNumberDot => r.readNumber c <|
    if isDigit c then some .valueNumberWithDecimal else none
  | .valueNumberE => r.readNumber c <|
    if isDigit c ∨ c = '+'.toNat ∨ c = '-'.toNat then some .valueNumberEpm else none
  | .valueNumberEpm => r.readNumber c <| if isDigit c then some .valueNumberEpm else none
  | .valueTrueR => r.expect c 'r' (r.goto .valueTrueU)
  | .valueTrueU => r.expect c 'u' (r.goto .valueTrueE)
  | .valueTrueE => r.expect c 'e' (r.setTrue.goto .valueEnd)
  | .valueFalseA => r.expect c 'a' (r.goto .valueFalseL)
  | .valueFalseL => r.expect c 'l' (r.goto .valueFalseS)
  | .valueFalseS => r.expect c 's' (r.goto .valueFalseE)
  | .valueFalseE => r.expect c 'e' (r.setFalse.goto .valueEnd)
  | .valueNullU => r.expect c 'u' (r.goto .valueNullL1)
  | .valueNullL1 => r.expect c 'l' (r.goto .valueNullL2)
  | .valueNullL2 => r.expect c 'l' (r.setNull.goto .valueEnd)
  | .valueEnd => .error r
  | .stateEnd => .error r

/-- The reader with the flag that the `default` case resets. -/
def unbegun (r : JsonReader) : JsonReader := { r with containerJustBegun := false }

/-- The `default` case of the switch over the byte. -/
def readOther (r : JsonReader) (c : Nat) : Except JsonReader JsonReader := r.unbegun.readInState c

/-- What the switch does with a byte that is not the end of the input. -/
def read (r : JsonReader) (c : Nat) : Except JsonReader JsonReader :=
  if c = ' '.toNat ∨ c = '\t'.toNat ∨ c = '\n'.toNat ∨ c = '\r'.toNat then r.readSpace c
  else if c = ','.toNat ∨ c = '}'.toNat ∨ c = ']'.toNat then r.readTerminator c
  else if c = '\\'.toNat then r.readBackslash
  else r.readOther c

/-- `Run`. A zero byte counts as the end of the input, and the rest is dropped. -/
def run (r : JsonReader) : Octets → Except JsonReader JsonReader
  | [] => r.readEof
  | b :: s =>
    let r := { r with index := r.index + 1 }
    if b = 0 then r.readEof
    else
      match r.read b.toNat with
      | .ok r => r.run s
      | .error r => .error r

/-- The error that a status of errors is made of. -/
def failure (errors : List Octets) : Octets :=
  octets "JSON parsing failed: [" ++ (octets "; ").intercalate errors ++ octets "]"

/-- The list of errors of a reader that is done. -/
def reported (r : JsonReader) : List Octets :=
  if r.truncatedErrors then
    r.errors ++ [octets ("too many errors encountered during JSON parsing -- fix reported " ++
      "errors and try again to see additional errors")]
  else r.errors

def parse (input : Octets) : Except Octets Json :=
  match run {} input with
  | .ok r => if r.reported.isEmpty then .ok r.rootValue else .error (failure r.reported)
  | .error r =>
    .error (failure (r.reported ++ [octets "JSON parse error at index " ++ decimal r.currentIndex]))

end JsonReader

end GrpcCore
