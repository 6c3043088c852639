import Mathlib.Data.List.Basic
import Remodel.Decimal.Layout
import Remodel.Text.Blank

/-!
# The texts of numbers

An integer is read back from its text (`int64?_ofInt64`), and the texts of integers and of finite
doubles have no blanks at their ends (`trim_ofInt64`, `Decimal.trim_text_plain`): a minus sign,
digits and a point are all that occurs in them.
-/

namespace Remodel.Text

/-! ## Digits -/

theorem isDigit_digitChar {d : Nat} (hd : d < 10) : (digitChar d).isDigit = true := by
  have h := digitChar_toNat hd
  rw [Char.isDigit]
  simp only [ge_iff_le, Bool.and_eq_true, decide_eq_true_eq, UInt32.le_iff_toNat_le]
  change 48 ≤ (digitChar d).toNat ∧ (digitChar d).toNat ≤ 57
  omega

theorem isAlpha_eq_false_of_isDigit {c : Char} (h : c.isDigit = true) : c.isAlpha = false := by
  have hA : 'A'.val.toNat = 65 := rfl
  have ha : 'a'.val.toNat = 97 := rfl
  have h9 : '9'.val.toNat = 57 := rfl
  simp only [Char.isDigit, ge_iff_le, Bool.and_eq_true, decide_eq_true_eq,
    UInt32.le_iff_toNat_le] at h
  change (decide (c.val ≥ 'A'.val ∧ c.val ≤ 'Z'.val) ||
    (decide (c.val ≥ 'a'.val) && decide (c.val ≤ 'z'.val))) = false
  simp only [ge_iff_le, Bool.or_eq_false_iff, Bool.and_eq_false_iff, decide_eq_false_iff_not,
    not_and, UInt32.le_iff_toNat_le]
  omega

theorem isDigit_of_mem_decimal {n : Nat} {c : Char} (hc : c ∈ decimal n) : c.isDigit = true := by
  induction n using Nat.strongRecOn with
  | _ n ih =>
      rw [decimal] at hc
      split at hc
      · rename_i hn
        rw [List.mem_singleton.mp hc]
        exact isDigit_digitChar hn
      · rename_i hn
        rcases List.mem_append.mp hc with hc | hc
        · exact ih (n / 10) (by omega) hc
        · rw [List.mem_singleton.mp hc]
          exact isDigit_digitChar (Nat.mod_lt n (by decide))

/-! ## Texts without blanks -/

/-- The characters that occur in the texts of numbers. -/
def IsNumeric (c : Char) : Prop := c.isDigit = true ∨ c = '-' ∨ c = '.'

theorem isBlank_eq_false_of_isNumeric {c : Char} (h : IsNumeric c) : isBlank c = false := by
  rcases h with hdigit | rfl | rfl
  · have h0 : '0'.val.toNat = 48 := rfl
    have h9 : '9'.val.toNat = 57 := rfl
    simp only [Char.isDigit, ge_iff_le, Bool.and_eq_true, decide_eq_true_eq,
      UInt32.le_iff_toNat_le] at hdigit
    have hrange : 48 ≤ c.toNat ∧ c.toNat ≤ 57 := by
      change 48 ≤ c.val.toNat ∧ c.val.toNat ≤ 57
      omega
    simp only [isBlank, Bool.or_eq_false_iff, Bool.and_eq_false_iff, decide_eq_false_iff_not]
    omega
  · rfl
  · rfl

theorem trimChars_eq_self {text : List Char} (h : ∀ c ∈ text, isBlank c = false) :
    trimChars text = text := by
  have hnone : ∀ text : List Char, (∀ c ∈ text, isBlank c = false) →
      text.dropWhile isBlank = text := by
    intro text htext
    cases text with
    | nil => rfl
    | cons c rest => rw [List.dropWhile_cons_of_neg (by simp [htext c (List.mem_cons_self ..)])]
  rw [trimChars, trimEndChars, hnone text h, hnone _ (by simpa using h), List.reverse_reverse]

theorem trim_of_numeric {text : List Char} (h : ∀ c ∈ text, IsNumeric c) :
    trim (String.ofList text) = String.ofList text := by
  rw [trim, String.toList_ofList,
    trimChars_eq_self fun c hc => isBlank_eq_false_of_isNumeric (h c hc)]

/-! ## Integers -/

theorem natural?_decimal (n : Nat) : natural? (decimal n) = some n := by
  rw [natural?.eq_def]
  split
  · rename_i hnil
    exact absurd hnil (decimal_ne_nil n)
  · exact digitsValue_decimal n

theorem integerOfChars?_decimal (n : Nat) : integerOfChars? (decimal n) = some n := by
  -- no numeral begins with a sign
  rw [integerOfChars?.eq_def]
  split
  · rename_i rest hminus
    have hdigit : '-'.isDigit = true := isDigit_of_mem_decimal (n := n) (by simp [hminus])
    exact absurd hdigit (by decide)
  · rename_i rest hplus
    have hdigit : '+'.isDigit = true := isDigit_of_mem_decimal (n := n) (by simp [hplus])
    exact absurd hdigit (by decide)
  · rw [natural?_decimal]
    rfl

theorem integerOfChars?_integerChars (i : Int) : integerOfChars? (integerChars i) = some i := by
  cases i with
  | ofNat n => exact integerOfChars?_decimal n
  | negSucc n =>
      change integerOfChars? ('-' :: decimal (n + 1)) = some (-(n + 1 : Int))
      rw [integerOfChars?, natural?_decimal]
      rfl

theorem fitsInt64_toInt (i : Int64) : fitsInt64 i.toInt = true := by
  have hlow := i.le_toInt
  have hhigh := i.toInt_lt
  simp only [fitsInt64, Bool.and_eq_true, decide_eq_true_eq]
  omega

/-- An integer is read back from its text. -/
theorem int64?_ofInt64 (i : Int64) : int64? (ofInt64 i) = some i := by
  rw [int64?, ofInt64, ofInt, String.toList_ofList, integerOfChars?_integerChars,
    Option.filter_some, if_pos (fitsInt64_toInt i), Option.map_some, Int64.ofInt_toInt]

theorem trim_ofInt64 (i : Int64) : trim (ofInt64 i) = ofInt64 i := by
  refine trim_of_numeric fun c hc => ?_
  cases hi : i.toInt with
  | ofNat n =>
      rw [hi] at hc
      exact Or.inl (isDigit_of_mem_decimal hc)
  | negSucc n =>
      rw [hi] at hc
      rcases List.mem_cons.mp hc with rfl | hc
      · exact Or.inr (Or.inl rfl)
      · exact Or.inl (isDigit_of_mem_decimal hc)

end Remodel.Text

namespace Remodel.Decimal

open Text

/-! ## Doubles -/

theorem isDigit_of_mem_chars {d : Digits} {c : Char} (hc : c ∈ d.chars) : c.isDigit = true := by
  rcases List.mem_append.mp hc with hc | hc
  · rw [List.eq_of_mem_replicate hc]
    rfl
  · exact isDigit_of_mem_decimal hc

theorem isNumeric_of_mem_positionalText {digits : List Char} {point : Int} {c : Char}
    (hdigits : ∀ c ∈ digits, c.isDigit = true) (hc : c ∈ positionalText false digits point) :
    IsNumeric c := by
  have hzeros : ∀ count, ∀ c ∈ List.replicate count '0', c.isDigit = true := by
    intro count c hc
    rw [List.eq_of_mem_replicate hc]
    rfl
  unfold positionalText at hc
  split at hc
  · simp only [List.mem_cons, List.mem_append] at hc
    rcases hc with rfl | rfl | hc | hc
    · exact Or.inl rfl
    · exact Or.inr (Or.inr rfl)
    · exact Or.inl (hzeros _ c hc)
    · exact Or.inl (hdigits c hc)
  · split at hc
    · simp only [List.mem_append] at hc
      rcases hc with (hc | hc) | hc
      · exact Or.inl (hdigits c hc)
      · exact Or.inl (hzeros _ c hc)
      · cases hc
    · simp only [List.mem_append, List.mem_cons] at hc
      rcases hc with hc | rfl | hc
      · exact Or.inl (hdigits c (List.mem_of_mem_take hc))
      · exact Or.inr (Or.inr rfl)
      · exact Or.inl (hdigits c (List.mem_of_mem_drop hc))

open Float.Model in
theorem exists_magnitude_of_isFinite {x : Float} (hfinite : x.isFinite = true) :
    ∃ value, magnitude x = .finite value := by
  -- the greatest exponent is kept for what is not finite
  have hexponent : x.toBits.toNat / binade % 2048 ≠ 2047 := by
    intro hfield
    have hgreatest : @UnpackedFloat.unpackExponent Format.binary64
        x.toModel.toBits.toBitVec = -1#_ := by
      apply BitVec.eq_of_toNat_eq
      rw [UnpackedFloat.unpackExponent, BitVec.toNat_cast, BitVec.extractLsb_toNat,
        Nat.shiftRight_eq_div_pow]
      exact hfield
    have hspecial : x.toModel.unpack = _ := if_pos hgreatest
    have hunpack : x.toModel.unpack.isFinite = true := hfinite
    rw [hspecial] at hunpack
    split at hunpack <;> cases hunpack
  rw [magnitude]
  simp only [if_neg hexponent]
  split
  · exact ⟨_, rfl⟩
  · exact ⟨_, rfl⟩

theorem trim_text_plain {x : Float} (hfinite : x.isFinite = true) :
    trim (plain.text x) = plain.text x := by
  obtain ⟨⟨negative, significand, exponent⟩, hmagnitude⟩ := exists_magnitude_of_isFinite hfinite
  rw [Layout.text, hmagnitude]
  refine trim_of_numeric fun c hc => ?_
  rcases List.mem_append.mp hc with hc | hc
  · split at hc
    · exact Or.inr (Or.inl (List.mem_singleton.mp hc))
    · cases hc
  · split at hc
    · exact Or.inl (List.mem_singleton.mp hc ▸ rfl)
    · exact isNumeric_of_mem_positionalText (fun c => isDigit_of_mem_chars) hc

end Remodel.Decimal
