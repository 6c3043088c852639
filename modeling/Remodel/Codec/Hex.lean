/-!
# Hexadecimal bytes

Two lower-case digits for every byte.
-/

namespace Remodel.Codec

/-- A byte string. -/
abbrev Bytes := List UInt8

namespace Hex

/-- The digit of a number below sixteen. -/
def digit (n : Nat) : Char :=
  if n < 10 then Char.ofNat (48 + n) else Char.ofNat (87 + n)

/-- The value of a digit, in either case. -/
def value? (c : Char) : Option Nat :=
  if '0' ≤ c ∧ c ≤ '9' then some (c.toNat - 48)
  else if 'a' ≤ c ∧ c ≤ 'f' then some (c.toNat - 87)
  else if 'A' ≤ c ∧ c ≤ 'F' then some (c.toNat - 55)
  else none

/-- The digits of a byte string. -/
def encode (bytes : Bytes) : String :=
  String.ofList (bytes.flatMap fun b => [digit (b.toNat / 16), digit (b.toNat % 16)])

/-- The bytes of a run of digit pairs. -/
def decodeChars? : List Char → Option Bytes
  | [] => some []
  | high :: low :: rest => do
    let h ← value? high
    let l ← value? low
    let bytes ← decodeChars? rest
    return UInt8.ofNat (16 * h + l) :: bytes
  | [_] => none

/-- The bytes of a text of digit pairs. -/
def decode? (text : String) : Option Bytes := decodeChars? text.toList

end Hex

end Remodel.Codec
