/-!
# Decimal numerals

Writing natural numbers and integers in base ten, and reading them with the
bounds of machine words: an optional sign and at least one ASCII digit.

## Strategy

`decimal` is written by its last digit, `digitsValue` reads the same way, and
`digitsValue_decimal` says that reading undoes writing.
-/

namespace Remodel.Text

/-- The character of a digit below ten. -/
def digitChar (d : Nat) : Char := Char.ofNat ('0'.toNat + d)

/-- The value of an ASCII digit. -/
def digitValue? (c : Char) : Option Nat :=
  if '0' ≤ c ∧ c ≤ '9' then some (c.toNat - '0'.toNat) else none

/-- The decimal digits of a number, without leading zeros. -/
def decimal (n : Nat) : List Char :=
  if n < 10 then [digitChar n] else decimal (n / 10) ++ [digitChar (n % 10)]

/-- One more digit at the end of a value read so far. -/
def appendDigit (value : Option Nat) (c : Char) : Option Nat :=
  value.bind fun v => (digitValue? c).map fun d => 10 * v + d

/-- The value of a run of digits; nothing if a character is not a digit. -/
def digitsValue (digits : List Char) : Option Nat :=
  digits.foldl appendDigit (some 0)

/-- The value of a numeral: at least one digit and nothing else. -/
def natural? : List Char → Option Nat
  | [] => none
  | digits => digitsValue digits

/-- A natural number as text. -/
def ofNat (n : Nat) : String := String.ofList (decimal n)

/-- An integer as decimal digits, with a minus sign in front if it is negative. -/
def integerChars (i : Int) : List Char :=
  match i with
  | .ofNat n => decimal n
  | .negSucc n => '-' :: decimal (n + 1)

/-- An integer as text. -/
def ofInt (i : Int) : String := String.ofList (integerChars i)

/-- Reads a natural number below `bound`, with an optional plus sign. -/
def naturalBelow? (bound : Nat) (text : List Char) : Option Nat :=
  let digits := match text with
    | '+' :: rest => rest
    | _ => text
  (natural? digits).filter (· < bound)

/-- One more than the greatest natural number of 64 bits. -/
def wordBound : Nat := 0x10000000000000000

/-- Reads an index: a natural number of 64 bits. -/
def index? (text : String) : Option Nat :=
  naturalBelow? wordBound text.toList

/-- Reads an integer of any size, with an optional sign. -/
def integerOfChars? : List Char → Option Int
  | '-' :: rest => (natural? rest).map fun n => -(n : Int)
  | '+' :: rest => (natural? rest).map Int.ofNat
  | text => (natural? text).map Int.ofNat

/-- Whether an integer fits a signed word of 64 bits. -/
def fitsInt64 (i : Int) : Bool := -0x8000000000000000 ≤ i && i < 0x8000000000000000

/-- Reads a signed integer of 64 bits. -/
def int64? (text : String) : Option Int64 :=
  ((integerOfChars? text.toList).filter fitsInt64).map Int64.ofInt

/-- A signed integer of 64 bits as text. -/
def ofInt64 (i : Int64) : String := ofInt i.toInt

theorem digitChar_toNat {d : Nat} (hd : d < 10) : (digitChar d).toNat = 48 + d := by
  have hvalid : (48 + d).isValidChar := Or.inl (by omega)
  show (Char.ofNat (48 + d)).toNat = 48 + d
  rw [Char.ofNat, dif_pos hvalid]
  rfl

theorem digitValue?_digitChar {d : Nat} (hd : d < 10) : digitValue? (digitChar d) = some d := by
  have h := digitChar_toNat hd
  have h1 : '0' ≤ digitChar d := by
    rw [Char.le_def, UInt32.le_iff_toNat_le]
    show 48 ≤ (digitChar d).toNat
    omega
  have h2 : digitChar d ≤ '9' := by
    rw [Char.le_def, UInt32.le_iff_toNat_le]
    show (digitChar d).toNat ≤ 57
    omega
  have h3 : '0'.toNat = 48 := rfl
  simp [digitValue?, h1, h2, h, h3]

theorem digitsValue_append_singleton (digits : List Char) (c : Char) :
    digitsValue (digits ++ [c]) = appendDigit (digitsValue digits) c := by
  simp [digitsValue, List.foldl_append]

theorem digitsValue_decimal (n : Nat) : digitsValue (decimal n) = some n := by
  induction n using Nat.strongRecOn with
  | _ n ih =>
    rw [decimal]
    split
    · rename_i hn
      simp [digitsValue, appendDigit, digitValue?_digitChar hn]
    · rename_i hn
      rw [digitsValue_append_singleton, ih (n / 10) (by omega)]
      simp [appendDigit, digitValue?_digitChar (Nat.mod_lt n (by decide : 0 < 10))]
      omega

theorem decimal_ne_nil (n : Nat) : decimal n ≠ [] := by
  rw [decimal]; split <;> simp

theorem decimal_injective {a b : Nat} (h : decimal a = decimal b) : a = b := by
  have hab := congrArg digitsValue h
  simpa [digitsValue_decimal] using hab

end Remodel.Text
