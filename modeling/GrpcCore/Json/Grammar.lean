import GrpcCore.Lib.Utf8
import GrpcCore.Json.Reader

/-!
# The grammar of JSON texts

The texts of ECMA-404 and the values that they denote, as derivations. The grammar has a parameter,
a `Dialect`: the forms of a number, and whether four more things are part of the language. With
`Dialect.ecma404` the grammar is that of the standard. `Dialect.reader` says, in the same terms,
what `JsonReader` reads.

The number that is an index of a derivation bounds how deep containers may nest in it. The Boolean
says that the text ends with an empty container, up to closing brackets: only after such a text does
the reader take a comma that nothing follows.
-/

namespace GrpcCore.JsonText

open Json

/-- The byte of a character. -/
abbrev ch (c : Char) : UInt8 := UInt8.ofNat c.toNat

/-! ## Tokens -/

def Ws (w : Octets) : Prop := ∀ b ∈ w, b ∈ octets " \t\n\r"

def Digit (b : UInt8) : Prop := b ∈ octets "0123456789"

instance (b : UInt8) : Decidable (Digit b) := by unfold Digit; infer_instance

def Fraction (s : Octets) : Prop := ∃ b t, s = ch '.' :: b :: t ∧ ∀ x ∈ b :: t, Digit x

/-- An exponent: a letter, perhaps a sign, and digits. -/
def Exponent (s : Octets) : Prop :=
  ∃ l sign b t, s = l :: (sign ++ b :: t) ∧ l ∈ octets "eE" ∧
    (sign = [] ∨ sign = octets "+" ∨ sign = octets "-") ∧ ∀ x ∈ b :: t, Digit x

/-- The numbers of ECMA-404. -/
def Number (s : Octets) : Prop :=
  ∃ sign int frac exp, s = sign ++ int ++ frac ++ exp ∧ (sign = [] ∨ sign = octets "-") ∧
    (int = octets "0" ∨ ∃ b t, int = b :: t ∧ b ≠ ch '0' ∧ ∀ x ∈ b :: t, Digit x) ∧
    (frac = [] ∨ Fraction frac) ∧ (exp = [] ∨ Exponent exp)

/-- The exponents that the reader takes: what follows the letter is digits, but for a sign in the
place of the first one. -/
def ReaderExponent (s : Octets) : Prop :=
  ∃ l b t, s = l :: b :: t ∧ l ∈ octets "eE" ∧ (Digit b ∨ b ∈ octets "+-") ∧ ∀ x ∈ t, Digit x

/-- The numbers that the reader takes. A sign may stand in the place of the first digit of the
integer part, and no exponent follows a `0` directly. -/
def ReaderNumber (s : Octets) : Prop :=
  ∃ int frac exp, s = int ++ frac ++ exp ∧
    ((int = octets "0" ∧ (frac = [] → exp = [])) ∨
      ∃ b t, int = b :: t ∧ b ≠ ch '0' ∧ (Digit b ∨ b = ch '-') ∧ ∀ x ∈ t, Digit x) ∧
    (frac = [] ∨ Fraction frac) ∧ (exp = [] ∨ ReaderExponent exp)

/-! ## Strings -/

def hexDigit (b : UInt8) : Option Nat :=
  (octets "0123456789abcdef").idxOf? b <|> (octets "0123456789ABCDEF").idxOf? b

/-- The number that four hexadecimal digits are. -/
def hex4 : Octets → Option Nat
  | [a, b, c, d] => do
    let a ← hexDigit a
    let b ← hexDigit b
    let c ← hexDigit c
    let d ← hexDigit d
    some (((a * 16 + b) * 16 + c) * 16 + d)
  | _ => none

def IsHigh (n : Nat) : Prop := 0xd800 ≤ n ∧ n < 0xdc00

def IsLow (n : Nat) : Prop := 0xdc00 ≤ n ∧ n < 0xe000

theorem IsLow.not_isHigh {n : Nat} (h : IsLow n) : ¬ IsHigh n := by
  unfold IsLow at h
  unfold IsHigh
  omega

theorem IsHigh.ne_zero {n : Nat} (h : IsHigh n) : n ≠ 0 := by
  unfold IsHigh at h
  omega

/-- The code point that two surrogates stand for. -/
def surrogatePair (high low : Nat) : Nat := 0x10000 + (high - 0xd800) * 0x400 + (low - 0xdc00)

/-- An escape of four hexadecimal digits. -/
def unicodeEscape (x : Octets) : Octets := ch '\\' :: ch 'u' :: x

/-- The escapes of one letter, and what they denote. -/
def escapes : List (UInt8 × UInt8) :=
  [(ch '"', ch '"'), (ch '\\', ch '\\'), (ch '/', ch '/'), (ch 'b', 8), (ch 'f', 12), (ch 'n', 10),
    (ch 'r', 13), (ch 't', 9)]

/-- The text starts with the escape of a low surrogate. -/
def StartsLow (s : Octets) : Prop :=
  ∃ x n t, s = unicodeEscape x ++ t ∧ hex4 x = some n ∧ IsLow n

/-- What stands between the quotes of a string, and the bytes that it denotes. A surrogate that is
not one of a pair denotes its own three bytes. -/
inductive Chars (loneSurrogate : Bool) : Octets → Octets → Prop
  | nil : Chars loneSurrogate [] []
  | plain {n : Nat} {s t : Octets} : Utf8.IsScalar n → 0x20 ≤ n → n ≠ '"'.toNat → n ≠ '\\'.toNat →
      Chars loneSurrogate s t → Chars loneSurrogate (Utf8.encode n ++ s) (Utf8.encode n ++ t)
  | escape {e b : UInt8} {s t : Octets} : (e, b) ∈ escapes → Chars loneSurrogate s t →
      Chars loneSurrogate (ch '\\' :: e :: s) (b :: t)
  | unicode {x s t : Octets} {n : Nat} : hex4 x = some n → ¬ IsHigh n → ¬ IsLow n →
      Chars loneSurrogate s t → Chars loneSurrogate (unicodeEscape x ++ s) (Utf8.encode n ++ t)
  | pair {x y s t : Octets} {high low : Nat} : hex4 x = some high → IsHigh high →
      hex4 y = some low → IsLow low → Chars loneSurrogate s t →
      Chars loneSurrogate (unicodeEscape x ++ (unicodeEscape y ++ s))
        (Utf8.encode (surrogatePair high low) ++ t)
  | loneHigh {x s t : Octets} {n : Nat} : loneSurrogate = true → hex4 x = some n → IsHigh n →
      ¬ StartsLow s → Chars loneSurrogate s t →
      Chars loneSurrogate (unicodeEscape x ++ s) (Utf8.encode n ++ t)
  | loneLow {x s t : Octets} {n : Nat} : loneSurrogate = true → hex4 x = some n → IsLow n →
      Chars loneSurrogate s t → Chars loneSurrogate (unicodeEscape x ++ s) (Utf8.encode n ++ t)

/-! ## Values -/

structure Dialect where
  number : Octets → Prop
  /-- Surrogates may be escaped that are not one of a pair. -/
  loneSurrogate : Bool
  /-- A comma may follow the last element or member when an empty container ends it. -/
  trailingComma : Bool
  /-- The value of the last member may be missing, and then the member is. -/
  missingValue : Bool
  /-- A zero byte ends the text, and anything may follow it. -/
  zeroEnds : Bool

/-- The members of a text as an object. -/
def ofMembers (m : List (Octets × Json)) : Object :=
  m.foldl (fun o p => o.insert p.1 p.2) []

mutual

/-- A value. -/
inductive Value (d : Dialect) : Nat → Octets → Json → Bool → Prop
  | jsonNull {n : Nat} : Value d n (octets "null") .jsonNull false
  | jsonTrue {n : Nat} : Value d n (octets "true") .jsonTrue false
  | jsonFalse {n : Nat} : Value d n (octets "false") .jsonFalse false
  | number {n : Nat} {s : Octets} : d.number s → Value d n s (.number s) false
  | string {n : Nat} {s t : Octets} : Chars d.loneSurrogate s t →
      Value d n (ch '"' :: (s ++ [ch '"'])) (.string t) false
  | emptyArray {n : Nat} {w : Octets} : Ws w →
      Value d (n + 1) (ch '[' :: (w ++ [ch ']'])) (.array []) true
  | array {n : Nat} {w s t : Octets} {j : Json} {l : List Json} {e e' : Bool} : Ws w →
      Value d n s j e → MoreElements d n e t l e' →
      Value d (n + 1) (ch '[' :: (w ++ (s ++ (t ++ [ch ']'])))) (.array (j :: l)) e'
  | emptyObject {n : Nat} {w : Octets} : Ws w →
      Value d (n + 1) (ch '{' :: (w ++ [ch '}'])) (.object []) true
  | object {n : Nat} {s : Octets} {m : List (Octets × Json)} {e : Bool} : Members d n s m e →
      (m.map Prod.fst).Nodup → Value d (n + 1) (ch '{' :: (s ++ [ch '}'])) (.object (ofMembers m)) e

/-- What follows an element of an array, up to its bracket. -/
inductive MoreElements (d : Dialect) : Nat → Bool → Octets → List Json → Bool → Prop
  | done {n : Nat} {e : Bool} {w : Octets} : Ws w → MoreElements d n e w [] e
  | trailing {n : Nat} {w w' : Octets} : d.trailingComma = true → Ws w → Ws w' →
      MoreElements d n true (w ++ ch ',' :: w') [] true
  | comma {n : Nat} {w w' s t : Octets} {j : Json} {l : List Json} {e e' e'' : Bool} :
      Ws w → Ws w' → Value d n s j e' → MoreElements d n e' t l e'' →
      MoreElements d n e (w ++ ch ',' :: (w' ++ (s ++ t))) (j :: l) e''

/-- The members of an object, up to its brace. -/
inductive Members (d : Dialect) : Nat → Octets → List (Octets × Json) → Bool → Prop
  | missing {n : Nat} {w₁ w₂ w₃ s k : Octets} : d.missingValue = true → Ws w₁ → Ws w₂ → Ws w₃ →
      Chars d.loneSurrogate s k →
      Members d n (w₁ ++ ch '"' :: (s ++ ch '"' :: (w₂ ++ ch ':' :: w₃))) [] false
  | member {n : Nat} {w₁ w₂ w₃ s k s' t : Octets} {j : Json} {m : List (Octets × Json)}
      {e e' : Bool} : Ws w₁ → Ws w₂ → Ws w₃ → Chars d.loneSurrogate s k → Value d n s' j e →
      MoreMembers d n e t m e' →
      Members d n (w₁ ++ ch '"' :: (s ++ ch '"' :: (w₂ ++ ch ':' :: (w₃ ++ (s' ++ t)))))
        ((k, j) :: m) e'

/-- What follows a member of an object, up to its brace. -/
inductive MoreMembers (d : Dialect) : Nat → Bool → Octets → List (Octets × Json) → Bool → Prop
  | done {n : Nat} {e : Bool} {w : Octets} : Ws w → MoreMembers d n e w [] e
  | trailing {n : Nat} {w w' : Octets} : d.trailingComma = true → Ws w → Ws w' →
      MoreMembers d n true (w ++ ch ',' :: w') [] true
  | comma {n : Nat} {w s : Octets} {m : List (Octets × Json)} {e e' : Bool} : Ws w →
      Members d n s m e' → MoreMembers d n e (w ++ ch ',' :: s) m e'

end

def End (d : Dialect) (s : Octets) : Prop :=
  ∃ w rest, s = w ++ rest ∧ Ws w ∧ (rest = [] ∨ d.zeroEnds = true ∧ ∃ t, rest = 0 :: t)

/-- A text and the value that it denotes: containers nest at most 255 deep. -/
def Text (d : Dialect) (s : Octets) (j : Json) : Prop :=
  ∃ w v rest e, s = w ++ (v ++ rest) ∧ Ws w ∧ Value d 255 v j e ∧ End d rest

namespace Dialect

def ecma404 : Dialect where
  number := Number
  loneSurrogate := true
  trailingComma := false
  missingValue := false
  zeroEnds := false

def reader : Dialect where
  number := ReaderNumber
  loneSurrogate := false
  trailingComma := true
  missingValue := true
  zeroEnds := true

end Dialect

end GrpcCore.JsonText
