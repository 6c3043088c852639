import Remodel.Proofs.Json.Numeral

/-!
# Numbers are read back

A whole number of 64 bits is read back from its text, and so is a finite double whose shortest
digits lead back to it (`readValue_text`).  The two are never taken for each other: whole numbers
are written without point and exponent, and doubles with one or the other (`exists_text`), so that
the digits of a double are read as a double whatever its value (`exists_double_of_isReal`).
-/

namespace Remodel

open Text

/-! ## Whole numbers -/

namespace Text

theorem head?_decimal_ne_zero {n : Nat} (hn : 0 < n) : (decimal n).head? ≠ some '0' := by
  induction n using Nat.strongRecOn with
  | _ n ih =>
      rw [decimal]
      split
      · rename_i hlt
        intro hzero
        have hchar : digitChar n = '0' := Option.some.inj hzero
        have hvalue : (digitChar n).toNat = 48 + n := digitChar_toNat hlt
        rw [hchar] at hvalue
        have hcode : '0'.toNat = 48 := rfl
        omega
      · rename_i hlt
        rw [List.head?_append_of_ne_nil _ (decimal_ne_nil _)]
        exact ih (n / 10) (by omega) (by omega)

end Text

namespace Draft

/-- As long as the value of the digits fits a word, all of them go into the significand. -/
theorem collect_of_foldl {digits : List Char} (hdigits : ∀ c ∈ digits, c.isDigit = true)
    {significand value : Nat} (hvalue : digits.foldl appendDigit (some significand) = some value)
    (hfits : value < wordBound) :
    significand ≤ value ∧ collect significand digits = (value, digits.length, 0) := by
  induction digits generalizing significand with
  | nil =>
      obtain rfl := Option.some.inj hvalue
      exact ⟨Nat.le_refl _, rfl⟩
  | cons c rest ih =>
      obtain ⟨hc, hrest⟩ := List.forall_mem_cons.mp hdigits
      rw [List.foldl_cons, appendDigit, Option.bind_some, digitValue?_of_isDigit hc,
        Option.map_some] at hvalue
      obtain ⟨hle, hcollect⟩ := ih hrest hvalue
      have hcode : '0'.toNat = 48 := rfl
      rw [hcode, Nat.mul_comm] at hle hcollect
      refine ⟨by omega, ?_⟩
      rw [collect]
      simp only [if_pos (Nat.lt_of_le_of_lt hle hfits), hcollect, List.length_cons]

theorem collect_decimal {n : Nat} (hn : n < wordBound) :
    collect 0 (decimal n) = (n, (decimal n).length, 0) :=
  (collect_of_foldl (fun _ => isDigit_of_mem_decimal) (digitsValue_decimal n) hn).2

end Draft

namespace Numeral

/-- The digits of a natural number. -/
def ofNat (n : Nat) : Numeral where
  whole := decimal n
  fraction := none
  exponent := none
  isRun_whole := isRun_decimal n
  isRun_fraction := by simp
  isRun_exponent := by simp

theorem chars_ofNat (n : Nat) : (ofNat n).chars = decimal n := List.append_nil _

theorem padded_ofNat (n : Nat) : (ofNat n).padded = false := by
  rw [padded, Bool.and_eq_false_iff, decide_eq_false_iff_not, decide_eq_false_iff_not]
  rcases Nat.eq_zero_or_pos n with rfl | hpos
  · exact Or.inr (by decide +kernel)
  · exact Or.inl (head?_decimal_ne_zero hpos)

theorem value_ofNat_false {n : Nat} (hn : n < wordBound) :
    (ofNat n).value false = some (.whole n) := by
  simp [value, ofNat, Draft.numberOf, Draft.collect_decimal hn]

theorem value_ofNat_true {n : Nat} (hpos : 0 < n) (hn : n ≤ 0x8000000000000000) :
    (ofNat n).value true = some (.whole (-n)) := by
  have hfits : n < wordBound := Nat.lt_of_le_of_lt hn (by decide)
  simp [value, ofNat, Draft.numberOf, Draft.collect_decimal hfits]
  omega

/-! ## Doubles -/

/-- Whether a number is written with a fraction or an exponent. -/
def IsReal (numeral : Numeral) : Prop :=
  numeral.fraction.isSome = true ∨ numeral.exponent.isSome = true

/-- A number with a fraction or an exponent is read as a double, if at all. -/
theorem exists_double_of_isReal {numeral : Numeral} (hreal : numeral.IsReal) {negative : Bool}
    {n : JsonNumber} (hvalue : numeral.value negative = some n) : ∃ x, n = .double x := by
  have hdoubleOf : ∀ significand exponent, Draft.doubleOf negative significand exponent = some n →
      ∃ x, n = .double x := by
    intro significand exponent h
    obtain ⟨y, -, hy⟩ := Option.map_eq_some_iff.mp h
    exact ⟨_, hy.symm⟩
  rw [value, Draft.numberOf.eq_def] at hvalue
  simp only at hvalue
  split at hvalue
  case h_1 hfraction hexponent =>
    -- without fraction and exponent
    rcases hreal with hsome | hsome
    · rw [hfraction] at hsome
      cases hsome
    · rw [Option.map_eq_none_iff.mp hexponent] at hsome
      cases hsome
  case h_2 =>
    split_ifs at hvalue
    · exact ⟨_, (Option.some.inj hvalue).symm⟩
    · exact ⟨_, (Option.some.inj hvalue).symm⟩
    · exact hdoubleOf _ _ hvalue

variable {digits : List Char}

theorem isDigit_of_mem_zeros {count : Nat} {c : Char} (hc : c ∈ List.replicate count '0') :
    c.isDigit = true := by
  rw [List.eq_of_mem_replicate hc]
  rfl

theorem isRun_zeros_append (count : Nat) (hdigits : IsRun digits) :
    IsRun (List.replicate count '0' ++ digits) :=
  ⟨List.append_ne_nil_of_right_ne_nil _ hdigits.1,
    List.forall_mem_append.mpr ⟨fun _ => isDigit_of_mem_zeros, hdigits.2⟩⟩

theorem isRun_append_zeros (count : Nat) (hdigits : IsRun digits) :
    IsRun (digits ++ List.replicate count '0') :=
  ⟨List.append_ne_nil_of_left_ne_nil hdigits.1 _,
    List.forall_mem_append.mpr ⟨hdigits.2, fun _ => isDigit_of_mem_zeros⟩⟩

theorem isRun_zero : IsRun ['0'] :=
  ⟨List.cons_ne_nil '0' [], List.forall_mem_singleton.mpr rfl⟩

/-- Whole digits with a fraction. -/
def ofFraction (whole fraction : List Char) (hwhole : IsRun whole) (hfraction : IsRun fraction) :
    Numeral where
  whole := whole
  fraction := some fraction
  exponent := none
  isRun_whole := hwhole
  isRun_fraction := by simpa using hfraction
  isRun_exponent := by simp

theorem chars_ofFraction {whole fraction : List Char} (hwhole : IsRun whole)
    (hfraction : IsRun fraction) :
    (ofFraction whole fraction hwhole hfraction).chars = whole ++ '.' :: fraction := by
  simp [chars, ofFraction, fractionChars, exponentChars]

theorem exists_positionalText (hdigits : IsRun digits) (point : Int) : ∃ numeral : Numeral,
    numeral.IsReal ∧ numeral.chars = Decimal.positionalText true digits point := by
  obtain ⟨hne, hall⟩ := hdigits
  rw [Decimal.positionalText]
  split_ifs with hpoint hlength
  · have hfraction := isRun_zeros_append (-point).toNat ⟨hne, hall⟩
    exact ⟨ofFraction ['0'] _ isRun_zero hfraction, Or.inl rfl, chars_ofFraction ..⟩
  · have hwhole := isRun_append_zeros (point.toNat - digits.length) ⟨hne, hall⟩
    exact ⟨ofFraction _ ['0'] hwhole isRun_zero, Or.inl rfl, chars_ofFraction ..⟩
  · exact absurd rfl ‹¬ true = true›
  · have hwhole : IsRun (digits.take point.toNat) := by
      refine ⟨?_, fun c hc => hall c (List.mem_of_mem_take hc)⟩
      rw [Ne, List.take_eq_nil_iff, not_or]
      exact ⟨by omega, hne⟩
    have hfraction : IsRun (digits.drop point.toNat) := by
      refine ⟨?_, fun c hc => hall c (List.mem_of_mem_drop hc)⟩
      rw [Ne, List.drop_eq_nil_iff]
      exact hlength
    exact ⟨ofFraction _ _ hwhole hfraction, Or.inl rfl, chars_ofFraction ..⟩

/-- Behind the first digit the others are a fraction, if there are any. -/
theorem exponentText_cons (d : Char) (rest : List Char) (point : Int) :
    Decimal.exponentText (d :: rest) point =
      d :: (fractionChars (if rest = [] then none else some rest) ++
        exponentChars (some (decide (point - 1 < 0), decimal (point - 1).natAbs))) := by
  simp only [Decimal.exponentText]
  generalize point - 1 = exponent
  have hmark : exponentChars (some (decide (exponent < 0), decimal exponent.natAbs)) =
      (if exponent < 0 then ['e', '-'] else ['e', '+']) ++ decimal exponent.natAbs := by
    by_cases hnegative : exponent < 0 <;> simp [exponentChars, hnegative]
  rw [hmark]
  cases rest with
  | nil => simp [fractionChars]
  | cons e more => simp [fractionChars]

theorem exists_exponentText (hdigits : IsRun digits) (point : Int) : ∃ numeral : Numeral,
    numeral.IsReal ∧ numeral.chars = Decimal.exponentText digits point := by
  obtain ⟨d, rest, rfl⟩ := List.exists_cons_of_ne_nil hdigits.1
  obtain ⟨hd, hrest⟩ := List.forall_mem_cons.mp hdigits.2
  have hfraction : ∀ fraction ∈ (if rest = [] then none else some rest), IsRun fraction := by
    intro fraction hfraction
    split at hfraction
    · cases hfraction
    · rename_i hne
      obtain rfl := Option.some.inj hfraction
      exact ⟨hne, hrest⟩
  refine ⟨⟨[d], _, some (decide (point - 1 < 0), decimal (point - 1).natAbs), ?_, hfraction, ?_⟩,
    Or.inr rfl, (exponentText_cons d rest point).symm⟩
  · exact ⟨List.cons_ne_nil d [], List.forall_mem_singleton.mpr hd⟩
  · simpa using isRun_decimal (point - 1).natAbs

/-- A double is written with a fraction or an exponent, so that it is not taken for a whole
number. -/
theorem exists_text {x : Float} (hfinite : x.isFinite = true) :
    ∃ (numeral : Numeral) (negative : Bool), numeral.IsReal ∧
      (Decimal.json.text x).toList = numeral.signedChars negative := by
  obtain ⟨⟨negative, significand, exponent⟩, hmagnitude⟩ :=
    Decimal.exists_magnitude_of_isFinite hfinite
  rw [Decimal.Layout.text, hmagnitude]
  suffices hbody : ∃ numeral : Numeral, numeral.IsReal ∧ numeral.chars =
      if significand = 0 then if Decimal.json.keepsPoint then ['0', '.', '0'] else ['0']
      else
        let d := Decimal.shortest Decimal.json.tie significand exponent
        if Decimal.json.positional d.point then
          Decimal.positionalText Decimal.json.keepsPoint d.chars d.point
        else Decimal.exponentText d.chars d.point by
    obtain ⟨numeral, hreal, hchars⟩ := hbody
    refine ⟨numeral, negative, hreal, ?_⟩
    rw [signedChars, hchars, String.toList_ofList]
  have hdigits : ∀ d : Decimal.Digits, IsRun d.chars := fun d =>
    ⟨List.append_ne_nil_of_right_ne_nil _ (decimal_ne_nil _), fun _ => Decimal.isDigit_of_mem_chars⟩
  split
  · exact ⟨ofFraction ['0'] ['0'] isRun_zero isRun_zero, Or.inl rfl, rfl⟩
  · simp only
    split
    · exact exists_positionalText (hdigits _) _
    · exact exists_exponentText (hdigits _) _

end Numeral

/-! ## Numbers -/

/-- The double that a text shows, if the text is a JSON number. -/
def Json.double? (text : String) : Option Float :=
  match Json.parse text with
  | .ok (.number n) => some n.toFloat
  | _ => none

theorem ofFloat_of_isFinite {x : Float} (hfinite : x.isFinite = true) :
    Json.ofFloat x = .number (.double x) := by
  obtain ⟨value, hvalue⟩ := Decimal.exists_magnitude_of_isFinite hfinite
  rw [Json.ofFloat, hvalue]

/-- Whether a number is read back from its text: a whole number if it has 64 bits, and a double if
its shortest digits lead back to it. -/
def JsonNumber.Legible : JsonNumber → Prop
  | .whole i => -0x8000000000000000 ≤ i ∧ i < wordBound
  | .double x => x.isFinite = true ∧ Json.double? (Decimal.json.text x) = some x

namespace Draft

theorem endsNumber_nil : EndsNumber [] := by
  intro c hc
  cases hc

theorem double?_signedChars (numeral : Numeral) (negative : Bool) :
    Json.double? (String.ofList (numeral.signedChars negative)) =
      if numeral.padded then none else (numeral.value negative).map JsonNumber.toFloat := by
  have hread := readValue_signedChars numeral negative (numeral.signedChars negative).length []
  rw [readNumber_chars_append numeral negative endsNumber_nil, List.append_nil] at hread
  rw [Json.double?, Json.parse, ofText, String.toList_ofList, hread]
  cases numeral.padded with
  | true => rfl
  | false => cases numeral.value negative <;> rfl

theorem exists_signedChars {n : JsonNumber} (hn : n.Legible) :
    ∃ (numeral : Numeral) (negative : Bool), n.text.toList = numeral.signedChars negative ∧
      numeral.padded = false ∧ numeral.value negative = some n := by
  cases n with
  | whole i =>
      obtain ⟨hlow, hhigh⟩ := hn
      rw [JsonNumber.text, ofInt, String.toList_ofList]
      cases i with
      | ofNat n =>
          have hfits : n < wordBound := Int.ofNat_lt.mp hhigh
          refine ⟨.ofNat n, false, ?_, Numeral.padded_ofNat n, Numeral.value_ofNat_false hfits⟩
          exact (Numeral.chars_ofNat n).symm
      | negSucc n =>
          have hfits : n + 1 ≤ 0x8000000000000000 := by omega
          refine ⟨.ofNat (n + 1), true, ?_, Numeral.padded_ofNat (n + 1),
            Numeral.value_ofNat_true (Nat.succ_pos n) hfits⟩
          rw [Numeral.signedChars, Numeral.chars_ofNat]
          rfl
  | double x =>
      obtain ⟨hfinite, hback⟩ := hn
      obtain ⟨numeral, negative, hreal, htext⟩ := Numeral.exists_text hfinite
      rw [← String.ofList_toList (s := Decimal.json.text x), htext, double?_signedChars] at hback
      refine ⟨numeral, negative, htext, ?_⟩
      cases hpadded : numeral.padded with
      | true =>
          rw [hpadded] at hback
          cases hback
      | false =>
          rw [hpadded, if_neg Bool.false_ne_true] at hback
          obtain ⟨n, hvalue, hn⟩ := Option.map_eq_some_iff.mp hback
          obtain ⟨y, rfl⟩ := Numeral.exists_double_of_isReal hreal hvalue
          obtain rfl : y = x := hn
          exact ⟨rfl, hvalue⟩

/-- **A number is read back** from its text, in front of whatever may follow a number. -/
theorem readValue_text {n : JsonNumber} (hn : n.Legible) {rest : List Char}
    (hend : EndsNumber rest) (fuel : Nat) :
    readValue (fuel + 1) (n.text.toList ++ rest) = (.number (some n), some rest) := by
  obtain ⟨numeral, negative, htext, hpadded, hvalue⟩ := exists_signedChars hn
  rw [htext, readValue_signedChars, readNumber_chars_append numeral negative hend, hpadded,
    hvalue]
  rfl

end Draft

end Remodel
