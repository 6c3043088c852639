import Mathlib.Data.List.TakeDrop
import Remodel.Json.Draft
import Remodel.Proofs.Text.Numerals

/-!
# Reading numerals

A `Numeral` is a JSON number as it is written, in its parts: digits, perhaps a fraction, perhaps an
exponent.  In front of a text with which a number may end, it is read as the value of its parts,
unless there is a zero too many at the front (`readNumber_chars_append`).

## Strategy

Every part is a run of digits, and is read as the longest run at the place where it stands.  So of
every part it has to be known that no digit follows: a fraction begins with a point, an exponent
with its mark, and what stands behind the number begins with neither (`EndsNumber`).
-/

namespace Remodel

open Text

/-! ## Runs of digits -/

theorem isDigit_eq (c : Char) : (decide ('0' ≤ c) && decide (c ≤ '9')) = c.isDigit := rfl

/-- Whether a text is one digit or more. -/
def IsRun (digits : List Char) : Prop := digits ≠ [] ∧ ∀ c ∈ digits, c.isDigit = true

theorem isRun_decimal (n : Nat) : IsRun (decimal n) :=
  ⟨decimal_ne_nil n, fun _ => isDigit_of_mem_decimal⟩

theorem digitValue?_of_isDigit {c : Char} (h : c.isDigit = true) :
    digitValue? c = some (c.toNat - '0'.toNat) := by
  rw [← isDigit_eq, Bool.and_eq_true, decide_eq_true_eq, decide_eq_true_eq] at h
  rw [digitValue?, if_pos h]

/-- A run of digits has a value. -/
theorem IsRun.exists_natural {digits : List Char} (h : IsRun digits) :
    ∃ n, natural? digits = some n := by
  have hfold : ∀ (digits : List Char) (n : Nat), (∀ c ∈ digits, c.isDigit = true) →
      ∃ m, digits.foldl appendDigit (some n) = some m := by
    intro digits
    induction digits with
    | nil => exact fun n _ => ⟨n, rfl⟩
    | cons c rest ih =>
        intro n hdigits
        obtain ⟨hc, hrest⟩ := List.forall_mem_cons.mp hdigits
        rw [List.foldl_cons, appendDigit, digitValue?_of_isDigit hc]
        exact ih _ hrest
  obtain ⟨hne, hdigits⟩ := h
  obtain ⟨c, rest, rfl⟩ := List.exists_cons_of_ne_nil hne
  exact hfold (c :: rest) 0 hdigits

/-- A number without its sign, as it is written: digits, perhaps a fraction, perhaps an exponent
with its sign. -/
structure Numeral where
  whole : List Char
  fraction : Option (List Char)
  exponent : Option (Bool × List Char)
  isRun_whole : IsRun whole
  isRun_fraction : ∀ digits ∈ fraction, IsRun digits
  isRun_exponent : ∀ written ∈ exponent, IsRun written.2

namespace Numeral

/-- A fraction behind its point. -/
def fractionChars : Option (List Char) → List Char
  | none => []
  | some digits => '.' :: digits

/-- An exponent behind its mark. -/
def exponentChars : Option (Bool × List Char) → List Char
  | none => []
  | some (negative, digits) => 'e' :: (if negative then '-' else '+') :: digits

/-- The text of a number without its sign. -/
def chars (numeral : Numeral) : List Char :=
  numeral.whole ++ (fractionChars numeral.fraction ++ exponentChars numeral.exponent)

/-- The value of an exponent. -/
def exponentValue (written : Bool × List Char) : Int :=
  let n := (natural? written.2).getD 0
  if written.1 then -(n : Int) else n

/-- What a number is read as; nothing if it is out of range. -/
def value (numeral : Numeral) (negative : Bool) : Option JsonNumber :=
  Draft.numberOf negative numeral.whole numeral.fraction (numeral.exponent.map exponentValue)

/-- Whether there is a digit behind a zero at the front. -/
def padded (numeral : Numeral) : Bool :=
  numeral.whole.head? = some '0' && 1 < numeral.whole.length

/-- The text of a number. -/
def signedChars (numeral : Numeral) (negative : Bool) : List Char :=
  (if negative then ['-'] else []) ++ numeral.chars

end Numeral

namespace Draft

variable {digits rest : List Char}

/-- Whether a number may end in front of a text. -/
def EndsNumber (rest : List Char) : Prop :=
  ∀ c ∈ rest.head?, c.isDigit = false ∧ c ≠ '.' ∧ c ≠ 'e' ∧ c ≠ 'E'

theorem spanDigits_append (hdigits : ∀ c ∈ digits, c.isDigit = true)
    (hrest : ∀ c ∈ rest.head?, c.isDigit = false) :
    spanDigits (digits ++ rest) = (digits, rest) := by
  have hdigit : (fun c : Char => decide ('0' ≤ c) && decide (c ≤ '9')) = Char.isDigit := rfl
  rw [spanDigits, hdigit, List.span_eq_takeWhile_dropWhile, List.takeWhile_append_of_pos hdigits,
    List.dropWhile_append_of_pos hdigits]
  cases rest with
  | nil => simp
  | cons c rest =>
      have hc : c.isDigit = false := hrest c rfl
      simp [hc]

theorem readExponent_append (negative : Bool) (hdigits : IsRun digits) (hend : EndsNumber rest) :
    readExponent ((if negative then '-' else '+') :: (digits ++ rest)) =
      .ok (Numeral.exponentValue (negative, digits), rest) := by
  obtain ⟨n, hn⟩ := hdigits.exists_natural
  have hspan := spanDigits_append hdigits.2 fun c hc => (hend c hc).1
  cases negative <;> simp [readExponent, hspan, hn, Numeral.exponentValue]

/-- Where an exponent may stand there is no digit and no point. -/
theorem head?_exponentChars (exponent : Option (Bool × List Char)) (hend : EndsNumber rest) :
    ∀ c ∈ (Numeral.exponentChars exponent ++ rest).head?, c.isDigit = false ∧ c ≠ '.' := by
  cases exponent with
  | some written => simp [Numeral.exponentChars]
  | none => exact fun c hc => ⟨(hend c hc).1, (hend c hc).2.1⟩

/-- Where a fraction may stand there is no digit. -/
theorem head?_fractionChars (fraction : Option (List Char)) (exponent : Option (Bool × List Char))
    (hend : EndsNumber rest) :
    ∀ c ∈ (Numeral.fractionChars fraction ++ (Numeral.exponentChars exponent ++ rest)).head?,
      c.isDigit = false := by
  cases fraction with
  | some digits => simp [Numeral.fractionChars]
  | none => exact fun c hc => (head?_exponentChars exponent hend c hc).1

/-- Reads a number from where its exponent may stand. -/
def readMarked (negative : Bool) (whole : List Char) (fraction : Option (List Char))
    (text : List Char) : Except JsonFault (Option JsonNumber × List Char) :=
  match text with
  | mark :: tail =>
    if mark = 'e' || mark = 'E' then do
      let (exponent, rest) ← readExponent tail
      return (numberOf negative whole fraction (some exponent), rest)
    else return (numberOf negative whole fraction none, text)
  | [] => return (numberOf negative whole fraction none, text)

theorem readMarked_exponentChars (negative : Bool) (whole : List Char)
    (fraction : Option (List Char)) {exponent : Option (Bool × List Char)}
    (hexponent : ∀ written ∈ exponent, IsRun written.2) (hend : EndsNumber rest) :
    readMarked negative whole fraction (Numeral.exponentChars exponent ++ rest) =
      .ok (numberOf negative whole fraction (exponent.map Numeral.exponentValue), rest) := by
  cases exponent with
  | some written =>
      have hread := readExponent_append written.1 (hexponent written rfl) hend
      simp [Numeral.exponentChars, readMarked, hread]
  | none =>
      cases rest with
      | nil => rfl
      | cons c rest =>
          obtain ⟨-, -, hmark, hMark⟩ := hend c rfl
          simp [Numeral.exponentChars, readMarked, hmark, hMark, pure, Except.pure]

/-- **A number is read as its value**, unless its digits begin with a zero too many. -/
theorem readNumber_chars_append (numeral : Numeral) (negative : Bool) (hend : EndsNumber rest) :
    readNumber negative (numeral.chars ++ rest) =
      if numeral.padded then .error .malformed else .ok (numeral.value negative, rest) := by
  obtain ⟨whole, fraction, exponent, hwhole, hfraction, hexponent⟩ := numeral
  have hspan := spanDigits_append hwhole.2 (head?_fractionChars fraction exponent hend)
  have hne : whole.isEmpty = false := List.isEmpty_eq_false_iff.mpr hwhole.1
  have hmarked := fun fraction => readMarked_exponentChars negative whole fraction hexponent hend
  rw [Numeral.chars, List.append_assoc, List.append_assoc, readNumber]
  simp only [hspan, hne, Bool.false_eq_true, if_false]
  cases hpadded : Numeral.padded ⟨whole, fraction, exponent, hwhole, hfraction, hexponent⟩ with
  | true =>
      rw [Numeral.padded] at hpadded
      rw [if_pos hpadded]
      rfl
  | false =>
      rw [Numeral.padded] at hpadded
      rw [if_neg (Bool.eq_false_iff.mp hpadded), if_neg Bool.false_ne_true]
      cases fraction with
      | none =>
          rw [Numeral.fractionChars, List.nil_append]
          split
          case h_1 heq =>
            exact absurd rfl (head?_exponentChars exponent hend '.' (by rw [heq]; rfl)).2
          case h_2 => exact hmarked none
      | some digits =>
          obtain ⟨hnonempty, hdigits⟩ := hfraction digits rfl
          have hspan := spanDigits_append hdigits (head?_fractionChars none exponent hend)
          simp only [Numeral.fractionChars, List.nil_append] at hspan
          simp only [Numeral.fractionChars, List.cons_append, hspan,
            List.isEmpty_eq_false_iff.mpr hnonempty, Bool.false_eq_true, if_false]
          exact hmarked (some digits)

/-- A number is taken for one by its first character. -/
theorem readValue_signedChars (numeral : Numeral) (negative : Bool) (fuel : Nat)
    (rest : List Char) :
    readValue (fuel + 1) (numeral.signedChars negative ++ rest) =
      scalar .number (readNumber negative (numeral.chars ++ rest)) := by
  cases negative with
  | true => rfl
  | false =>
      obtain ⟨c, more, hwhole⟩ := List.exists_cons_of_ne_nil numeral.isRun_whole.1
      have hc : c.isDigit = true := numeral.isRun_whole.2 c (by simp [hwhole])
      have hne : ∀ d, d.isDigit = false → c ≠ d := by
        rintro d hd rfl
        rw [hc] at hd
        cases hd
      obtain ⟨tail, htail⟩ : ∃ tail, numeral.chars ++ rest = c :: tail := by
        simp [Numeral.chars, hwhole]
      have hblank : skipBlanks (c :: tail) = c :: tail := by
        simp [skipBlanks, hne ' ' rfl, hne '\n' rfl, hne '\t' rfl, hne '\r' rfl]
      have hfirst : numeral.signedChars false ++ rest = c :: tail := htail
      rw [hfirst, htail, readValue]
      simp only [hblank]
      split
      case h_1 heq => cases heq
      case h_9 heq =>
        obtain ⟨rfl, rfl⟩ := List.cons.inj heq
        exact if_pos hc
      all_goals
        rename_i heq
        exact absurd (List.cons.inj heq).1 (hne _ rfl)

end Draft

end Remodel
