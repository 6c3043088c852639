import Mathlib.Data.List.TakeWhile
import Remodel.Proofs.Text.Numerals
import Remodel.Record.Keys

/-!
# Keys that do not meet

All keys under which a value is written begin with the key of the value.  After it stands
either nothing or a tail: an index and one of a few endings, or an ending alone.  No ending
begins with a digit, so that the tail tells its index and its ending apart, and equal keys
of one value have equal indices and equal endings.
-/

namespace Remodel.Text

/-! ## Digits at the front of a text -/

/-- The text does not begin with a digit. -/
def NoDigitFirst (text : List Char) : Prop :=
  ∀ c ∈ text.head?, c.isDigit = false

instance : (text : List Char) → Decidable (NoDigitFirst text)
  | [] => isTrue fun _ h => nomatch h
  | c :: _ => decidable_of_iff (c.isDigit = false) (by simp [NoDigitFirst])

theorem takeWhile_isDigit_append {digits rest : List Char} (hdigits : ∀ c ∈ digits, c.isDigit = true)
    (hrest : NoDigitFirst rest) : (digits ++ rest).takeWhile Char.isDigit = digits := by
  rw [List.takeWhile_append_of_pos hdigits]
  cases rest with
  | nil => simp
  | cons c rest =>
      have hc : c.isDigit = false := hrest c rfl
      simp [hc]

/-- Digits end where a text begins that does not begin with a digit. -/
theorem digits_append_inj {digits others s t : List Char}
    (hdigits : ∀ c ∈ digits, c.isDigit = true) (hothers : ∀ c ∈ others, c.isDigit = true)
    (hs : NoDigitFirst s) (ht : NoDigitFirst t) (h : digits ++ s = others ++ t) :
    digits = others ∧ s = t := by
  have heq : digits = others := by
    rw [← takeWhile_isDigit_append hdigits hs, h, takeWhile_isDigit_append hothers ht]
  refine ⟨heq, ?_⟩
  rwa [heq, List.append_cancel_left_eq] at h

/-- A numeral in front of a text that does not begin with a digit can be read off. -/
theorem decimal_append_inj {i j : Nat} {s t : List Char} (hs : NoDigitFirst s)
    (ht : NoDigitFirst t) (h : decimal i ++ s = decimal j ++ t) : i = j ∧ s = t := by
  obtain ⟨hdigits, hrest⟩ := digits_append_inj (fun _ => isDigit_of_mem_decimal)
    (fun _ => isDigit_of_mem_decimal) hs ht h
  exact ⟨decimal_injective hdigits, hrest⟩

end Remodel.Text

namespace Remodel.Record

open Text

/-! ## Keys as lists of characters -/

theorem toList_itemKey (key : String) (index : Nat) :
    (itemKey key index).toList = key.toList ++ decimal index := by
  simp [itemKey, ofNat]

theorem toList_entryKey (key : String) (index : Nat) :
    (entryKey key index).toList = key.toList ++ (decimal index ++ ".key".toList) := by
  simp [entryKey, toList_itemKey]

theorem toList_entryValueKey (key : String) (index : Nat) :
    (entryValueKey key index).toList = key.toList ++ (decimal index ++ ".value".toList) := by
  simp [entryValueKey, toList_itemKey]

theorem toList_fileNameKey (key : String) :
    (fileNameKey key).toList = key.toList ++ ".filename".toList := by
  simp [fileNameKey]

theorem ne_fileNameKey (key : String) : key ≠ fileNameKey key := by
  intro h
  have hlength := congrArg String.length h
  simp [fileNameKey] at hlength

/-! ## Indexed keys -/

/-- A key with an index behind the key of a value, and one of some endings behind that. -/
def IndexedKey (key : String) (index : Nat) (endings : List String) (name : String) : Prop :=
  ∃ ending ∈ endings, name.toList = key.toList ++ (decimal index ++ ending.toList)

/-- The endings of the keys of a list's element. -/
def itemEndings : List String := ["", ".filename"]

/-- The endings of the keys of an entry's key. -/
def entryEndings : List String := [".key", ".key.filename"]

/-- The endings of the keys of an entry's value. -/
def entryValueEndings : List String := [".value", ".value.filename"]

theorem indexedKey_itemKey (key : String) (index : Nat) :
    IndexedKey key index itemEndings (itemKey key index) :=
  ⟨"", by decide, by simp [toList_itemKey]⟩

theorem indexedKey_fileNameKey_itemKey (key : String) (index : Nat) :
    IndexedKey key index itemEndings (fileNameKey (itemKey key index)) :=
  ⟨".filename", by decide, by simp [toList_fileNameKey, toList_itemKey]⟩

theorem indexedKey_entryKey (key : String) (index : Nat) :
    IndexedKey key index entryEndings (entryKey key index) :=
  ⟨".key", by decide, toList_entryKey key index⟩

theorem indexedKey_fileNameKey_entryKey (key : String) (index : Nat) :
    IndexedKey key index entryEndings (fileNameKey (entryKey key index)) :=
  ⟨".key.filename", by decide, by simp [toList_fileNameKey, toList_entryKey]⟩

theorem indexedKey_entryValueKey (key : String) (index : Nat) :
    IndexedKey key index entryValueEndings (entryValueKey key index) :=
  ⟨".value", by decide, toList_entryValueKey key index⟩

theorem indexedKey_fileNameKey_entryValueKey (key : String) (index : Nat) :
    IndexedKey key index entryValueEndings (fileNameKey (entryValueKey key index)) :=
  ⟨".value.filename", by decide, by simp [toList_fileNameKey, toList_entryValueKey]⟩

/-- The endings behind an index do not begin with a digit. -/
def PlainEndings (endings : List String) : Prop :=
  ∀ ending ∈ endings, NoDigitFirst ending.toList

instance (endings : List String) : Decidable (PlainEndings endings) :=
  decidable_of_iff (endings.all (fun ending => decide (NoDigitFirst ending.toList)) = true)
    (by simp [PlainEndings])

/-- A key tells its index and its ending apart. -/
theorem IndexedKey.unique {key name : String} {i j : Nat} {endings others : List String}
    (hi : IndexedKey key i endings name) (hj : IndexedKey key j others name)
    (hendings : PlainEndings endings) (hothers : PlainEndings others) :
    i = j ∧ ∃ ending ∈ endings, ending ∈ others := by
  obtain ⟨e, he, hname⟩ := hi
  obtain ⟨e', he', hname'⟩ := hj
  rw [hname, List.append_cancel_left_eq] at hname'
  obtain ⟨hij, heq⟩ := decimal_append_inj (hendings e he) (hothers e' he') hname'
  exact ⟨hij, e, he, by rwa [String.toList_inj.mp heq]⟩

theorem IndexedKey.ne_key {key name : String} {index : Nat} {endings : List String}
    (h : IndexedKey key index endings name) : name ≠ key := by
  rintro rfl
  obtain ⟨ending, -, hname⟩ := h
  have hnil : decimal index = [] := by
    have := List.self_eq_append_right.mp hname
    exact (List.append_eq_nil_iff.mp this).1
  exact decimal_ne_nil index hnil

theorem itemKey_injective (key : String) : Function.Injective (itemKey key) := by
  intro i j h
  have hj := indexedKey_itemKey key j
  rw [← h] at hj
  exact ((indexedKey_itemKey key i).unique hj (by decide) (by decide)).1

theorem entryKey_injective (key : String) : Function.Injective (entryKey key) := by
  intro i j h
  have hj := indexedKey_entryKey key j
  rw [← h] at hj
  exact ((indexedKey_entryKey key i).unique hj (by decide) (by decide)).1

/-! ## Where keys begin -/

/-- The key begins with the other one, and what stands behind that begins with no letter. -/
def BelongsTo (key name : String) : Prop :=
  ∃ tail : List Char, name.toList = key.toList ++ tail ∧ ∀ c ∈ tail.head?, c.isAlpha = false

theorem belongsTo_self (key : String) : BelongsTo key key :=
  ⟨[], by simp, by simp⟩

theorem belongsTo_fileNameKey (key : String) : BelongsTo key (fileNameKey key) := by
  refine ⟨".filename".toList, toList_fileNameKey key, fun c hc => ?_⟩
  obtain rfl : '.' = c := Option.some.inj hc
  rfl

theorem IndexedKey.belongsTo {key name : String} {index : Nat} {endings : List String}
    (h : IndexedKey key index endings name) : BelongsTo key name := by
  obtain ⟨ending, -, hname⟩ := h
  obtain ⟨d, digits, hdigits⟩ := List.exists_cons_of_ne_nil (decimal_ne_nil index)
  have hd : d.isDigit = true := isDigit_of_mem_decimal (n := index) (by simp [hdigits])
  refine ⟨_, hname, fun c hc => ?_⟩
  obtain rfl : d = c := by simpa [hdigits] using hc
  exact isAlpha_eq_false_of_isDigit hd

theorem BelongsTo.isPrefix {key name : String} (h : BelongsTo key name) :
    key.toList <+: name.toList := by
  obtain ⟨tail, hname, -⟩ := h
  exact ⟨tail, hname.symm⟩

/-- A reserved key belongs to no key but itself. -/
theorem BelongsTo.not_mem_reservedKeys {key name : String} (h : BelongsTo key name)
    (hkey : key ∉ reservedKeys) : name ∉ reservedKeys := by
  obtain ⟨tail, hname, htail⟩ := h
  intro hreserved
  -- reserved keys are made of letters, and no other key of a value is
  have hletters : reservedKeys.all (fun k => k.toList.all Char.isAlpha) = true := by decide
  cases tail with
  | nil =>
      rw [List.append_nil, String.toList_inj] at hname
      exact hkey (hname ▸ hreserved)
  | cons c tail =>
      have hc : c ∈ name.toList := by simp [hname]
      have hletter : c.isAlpha = true :=
        List.all_eq_true.mp (List.all_eq_true.mp hletters name hreserved) c hc
      simp [htail c rfl] at hletter

end Remodel.Record
