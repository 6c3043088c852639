import Remodel.Codec.Hex

/-!
# Base64

Byte strings as text in the standard alphabet.  Three bytes become four symbols;
a shorter group at the end is filled up with padding.  Reading accepts only the
form that writing produces: the padding must be there, the bits that carry no
byte must be zero, and nothing may stand between the symbols.

## Strategy

Both directions go group by group, so that each is a structural recursion and the
two are compared by cases on the length of the last group.
-/

namespace Remodel.Codec.Base64

/-- The symbol of a number below 64. -/
def symbol (n : Nat) : Char :=
  if n < 26 then Char.ofNat (65 + n)
  else if n < 52 then Char.ofNat (71 + n)
  else if n < 62 then Char.ofNat (n - 4)
  else if n = 62 then '+'
  else '/'

/-- The number of a symbol. -/
def value? (c : Char) : Option Nat :=
  if 'A' ≤ c ∧ c ≤ 'Z' then some (c.toNat - 65)
  else if 'a' ≤ c ∧ c ≤ 'z' then some (c.toNat - 71)
  else if '0' ≤ c ∧ c ≤ '9' then some (c.toNat + 4)
  else if c = '+' then some 62
  else if c = '/' then some 63
  else none

/-- The symbols of a byte string. -/
def encodeChars : Bytes → List Char
  | a :: b :: c :: rest =>
    symbol (a.toNat / 4) ::
    symbol (a.toNat % 4 * 16 + b.toNat / 16) ::
    symbol (b.toNat % 16 * 4 + c.toNat / 64) ::
    symbol (c.toNat % 64) ::
    encodeChars rest
  | [a, b] =>
    [symbol (a.toNat / 4), symbol (a.toNat % 4 * 16 + b.toNat / 16), symbol (b.toNat % 16 * 4), '=']
  | [a] => [symbol (a.toNat / 4), symbol (a.toNat % 4 * 16), '=', '=']
  | [] => []

/-- The bytes of a group without padding. -/
def threeBytes (a b c d : Nat) : Bytes :=
  [UInt8.ofNat (a * 4 + b / 16), UInt8.ofNat (b % 16 * 16 + c / 4), UInt8.ofNat (c % 4 * 64 + d)]

/-- The bytes of a run of symbols. -/
def decodeChars? : List Char → Option Bytes
  | [] => some []
  | a :: b :: c :: d :: rest => do
    let a ← value? a
    let b ← value? b
    if c = '=' then
      if d = '=' ∧ rest = [] ∧ b % 16 = 0 then return [UInt8.ofNat (a * 4 + b / 16)] else none
    else
      let c ← value? c
      if d = '=' then
        if rest = [] ∧ c % 4 = 0 then
          return [UInt8.ofNat (a * 4 + b / 16), UInt8.ofNat (b % 16 * 16 + c / 4)]
        else none
      else
        let d ← value? d
        let bytes ← decodeChars? rest
        return threeBytes a b c d ++ bytes
  | _ => none

/-- A byte string as text. -/
def encode (bytes : Bytes) : String := String.ofList (encodeChars bytes)

/-- The byte string of a text; nothing if the text is not the written form of one. -/
def decode? (text : String) : Option Bytes := decodeChars? text.toList

end Remodel.Codec.Base64
