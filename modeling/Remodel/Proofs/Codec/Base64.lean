import Mathlib.Tactic.Linarith
import Remodel.Model.Value

/-!
# Reading base64 undoes writing it

Each group of symbols gives back the bytes it was written for: the symbols stand for numbers
below 64, and the bits of the bytes are cut and joined at the same places.  And each group that is
read is the one that is written for its bytes, as bits that belong to no byte must be zero
(`encodeChars_of_decodeChars?`).
-/

namespace Remodel.Codec.Base64

/-! ## Symbols -/

theorem value?_symbol : ∀ n < 64, value? (symbol n) = some n := by decide

theorem symbol_ne_padding : ∀ n < 64, symbol n ≠ '=' := by decide

theorem ofNat_eq_of_toNat {n : Nat} {byte : UInt8} (h : n = byte.toNat) : UInt8.ofNat n = byte := by
  rw [h, UInt8.ofNat_toNat]

/-! ## Groups -/

section Groups

variable (a b c : UInt8)

theorem first_symbol_lt : a.toNat / 4 < 64 := by
  have := a.toNat_lt
  omega

theorem second_symbol_lt : a.toNat % 4 * 16 + b.toNat / 16 < 64 := by
  have := b.toNat_lt
  omega

theorem third_symbol_lt : b.toNat % 16 * 4 + c.toNat / 64 < 64 := by
  have := c.toNat_lt
  omega

theorem first_byte_eq :
    UInt8.ofNat (a.toNat / 4 * 4 + (a.toNat % 4 * 16 + b.toNat / 16) / 16) = a := by
  have := b.toNat_lt
  exact ofNat_eq_of_toNat (by omega)

theorem second_byte_eq :
    UInt8.ofNat ((a.toNat % 4 * 16 + b.toNat / 16) % 16 * 16 +
      (b.toNat % 16 * 4 + c.toNat / 64) / 4) = b := by
  have := b.toNat_lt
  have := c.toNat_lt
  exact ofNat_eq_of_toNat (by omega)

theorem third_byte_eq :
    UInt8.ofNat ((b.toNat % 16 * 4 + c.toNat / 64) % 4 * 64 + c.toNat % 64) = c := by
  have := c.toNat_lt
  exact ofNat_eq_of_toNat (by omega)

end Groups

theorem decodeChars?_encodeChars (bytes : Bytes) : decodeChars? (encodeChars bytes) = some bytes := by
  fun_induction encodeChars bytes with
  | case1 a b c rest ih =>
      have ha := value?_symbol _ (first_symbol_lt a)
      have hb := value?_symbol _ (second_symbol_lt a b)
      have hc := value?_symbol _ (third_symbol_lt b c)
      have hlt : c.toNat % 64 < 64 := Nat.mod_lt _ (by decide)
      have hbytes : threeBytes (a.toNat / 4) (a.toNat % 4 * 16 + b.toNat / 16)
          (b.toNat % 16 * 4 + c.toNat / 64) (c.toNat % 64) = [a, b, c] := by
        rw [threeBytes, first_byte_eq, second_byte_eq, third_byte_eq]
      have hcne := symbol_ne_padding _ (third_symbol_lt b c)
      have hdne := symbol_ne_padding _ hlt
      rw [decodeChars?, ha, hb, hc, value?_symbol _ hlt, ih]
      simp only [Option.bind_eq_bind, Option.bind_some, Option.pure_def, hcne, hdne, if_false,
        hbytes, List.cons_append, List.nil_append]
  | case2 a b =>
      -- the third byte is missing: it counts as zero, and its bits are found cut off
      have hthird := third_symbol_lt b 0
      have hsecond := second_byte_eq a b 0
      simp only [UInt8.toNat_zero, Nat.zero_div, Nat.add_zero] at hthird hsecond
      have ha := value?_symbol _ (first_symbol_lt a)
      have hb := value?_symbol _ (second_symbol_lt a b)
      have hc := value?_symbol _ hthird
      have hcut : b.toNat % 16 * 4 % 4 = 0 := Nat.mul_mod_left _ 4
      have hcne := symbol_ne_padding _ hthird
      rw [decodeChars?, ha, hb, hc]
      simp only [Option.bind_eq_bind, Option.bind_some, Option.pure_def, hcne, if_false, if_true,
        hcut, and_self, first_byte_eq, hsecond]
  | case3 a =>
      -- the second and the third byte are missing
      have hsecond := second_symbol_lt a 0
      have hfirst := first_byte_eq a 0
      simp only [UInt8.toNat_zero, Nat.zero_div, Nat.add_zero] at hsecond hfirst
      have ha := value?_symbol _ (first_symbol_lt a)
      have hb := value?_symbol _ hsecond
      have hcut : a.toNat % 4 * 16 % 16 = 0 := Nat.mul_mod_left _ 16
      rw [decodeChars?, ha, hb]
      simp only [Option.bind_eq_bind, Option.bind_some, Option.pure_def, if_true, hcut, and_self,
        hfirst]
  | case4 => rfl

/-- Reading the text of a byte string gives the byte string. -/
theorem decode?_encode (bytes : Bytes) : decode? (encode bytes) = some bytes := by
  simp [decode?, encode, decodeChars?_encodeChars]

/-! ## Nothing else is read -/

theorem symbol_of_value? {c : Char} {n : Nat} (h : value? c = some n) : n < 64 ∧ symbol n = c := by
  -- in each run of symbols the number is that of the character, moved by a constant
  have hmoved : ∀ {m : Nat}, m = c.toNat → Char.ofNat m = c := by
    rintro m rfl
    exact c.ofNat_toNat
  rw [value?] at h
  split_ifs at h with hupper hlower hdigit hplus hslash
  · obtain rfl := Option.some.inj h
    have hfirst : 65 ≤ c.toNat := hupper.1
    have hlast : c.toNat ≤ 90 := hupper.2
    refine ⟨by omega, ?_⟩
    rw [symbol, if_pos (by omega)]
    exact hmoved (by omega)
  · obtain rfl := Option.some.inj h
    have hfirst : 97 ≤ c.toNat := hlower.1
    have hlast : c.toNat ≤ 122 := hlower.2
    refine ⟨by omega, ?_⟩
    rw [symbol, if_neg (by omega), if_pos (by omega)]
    exact hmoved (by omega)
  · obtain rfl := Option.some.inj h
    have hfirst : 48 ≤ c.toNat := hdigit.1
    have hlast : c.toNat ≤ 57 := hdigit.2
    refine ⟨by omega, ?_⟩
    rw [symbol, if_neg (by omega), if_neg (by omega), if_pos (by omega)]
    exact hmoved (by omega)
  · obtain rfl := Option.some.inj h
    exact ⟨by decide, hplus.symm⟩
  · obtain rfl := Option.some.inj h
    exact ⟨by decide, hslash.symm⟩

section Numbers

variable {a b c d : Nat}

theorem encodeChars_one (ha : a < 64) (hb : b < 64) (hcut : b % 16 = 0) :
    encodeChars [UInt8.ofNat (a * 4 + b / 16)] = [symbol a, symbol b, '=', '='] := by
  have hbyte : (UInt8.ofNat (a * 4 + b / 16)).toNat = a * 4 + b / 16 :=
    UInt8.toNat_ofNat_of_lt (show a * 4 + b / 16 < 256 by omega)
  have hfirst : (a * 4 + b / 16) / 4 = a := by omega
  have hsecond : (a * 4 + b / 16) % 4 * 16 = b := by omega
  rw [encodeChars, hbyte, hfirst, hsecond]

theorem encodeChars_two (ha : a < 64) (hb : b < 64) (hc : c < 64) (hcut : c % 4 = 0) :
    encodeChars [UInt8.ofNat (a * 4 + b / 16), UInt8.ofNat (b % 16 * 16 + c / 4)] =
      [symbol a, symbol b, symbol c, '='] := by
  have hbyte : (UInt8.ofNat (a * 4 + b / 16)).toNat = a * 4 + b / 16 :=
    UInt8.toNat_ofNat_of_lt (show a * 4 + b / 16 < 256 by omega)
  have hbyte' : (UInt8.ofNat (b % 16 * 16 + c / 4)).toNat = b % 16 * 16 + c / 4 :=
    UInt8.toNat_ofNat_of_lt (show b % 16 * 16 + c / 4 < 256 by omega)
  have hfirst : (a * 4 + b / 16) / 4 = a := by omega
  have hsecond : (a * 4 + b / 16) % 4 * 16 + (b % 16 * 16 + c / 4) / 16 = b := by omega
  have hthird : (b % 16 * 16 + c / 4) % 16 * 4 = c := by omega
  rw [encodeChars, hbyte, hbyte', hfirst, hsecond, hthird]

theorem encodeChars_three (ha : a < 64) (hb : b < 64) (hc : c < 64) (hd : d < 64)
    (rest : Bytes) : encodeChars (threeBytes a b c d ++ rest) =
      symbol a :: symbol b :: symbol c :: symbol d :: encodeChars rest := by
  have hbyte : (UInt8.ofNat (a * 4 + b / 16)).toNat = a * 4 + b / 16 :=
    UInt8.toNat_ofNat_of_lt (show a * 4 + b / 16 < 256 by omega)
  have hbyte' : (UInt8.ofNat (b % 16 * 16 + c / 4)).toNat = b % 16 * 16 + c / 4 :=
    UInt8.toNat_ofNat_of_lt (show b % 16 * 16 + c / 4 < 256 by omega)
  have hbyte'' : (UInt8.ofNat (c % 4 * 64 + d)).toNat = c % 4 * 64 + d :=
    UInt8.toNat_ofNat_of_lt (show c % 4 * 64 + d < 256 by omega)
  have hfirst : (a * 4 + b / 16) / 4 = a := by omega
  have hsecond : (a * 4 + b / 16) % 4 * 16 + (b % 16 * 16 + c / 4) / 16 = b := by omega
  have hthird : (b % 16 * 16 + c / 4) % 16 * 4 + (c % 4 * 64 + d) / 64 = c := by omega
  have hfourth : (c % 4 * 64 + d) % 64 = d := by omega
  rw [threeBytes, List.cons_append, List.cons_append, List.singleton_append, encodeChars, hbyte,
    hbyte', hbyte'', hfirst, hsecond, hthird, hfourth]

end Numbers

/-- The symbols of what is read are those that were read. -/
theorem encodeChars_of_decodeChars? {chars : List Char} {bytes : Bytes}
    (h : decodeChars? chars = some bytes) : encodeChars bytes = chars := by
  fun_induction decodeChars? chars generalizing bytes with
  | case1 =>
      obtain rfl := Option.some.inj h
      rfl
  | case2 a b c d rest ih =>
      obtain ⟨m, ha, hfirst⟩ := Option.bind_eq_some_iff.mp h
      obtain ⟨n, hb, hsecond⟩ := Option.bind_eq_some_iff.mp hfirst
      obtain ⟨hm, ha⟩ := symbol_of_value? ha
      obtain ⟨hn, hb⟩ := symbol_of_value? hb
      by_cases hpadding : c = '='
      · rw [if_pos hpadding, Option.ite_none_right_eq_some] at hsecond
        obtain ⟨⟨hd, hrest, hcut⟩, hbytes⟩ := hsecond
        obtain rfl := Option.some.inj hbytes
        rw [encodeChars_one hm hn hcut, ha, hb, hpadding, hd, hrest]
      rw [if_neg hpadding] at hsecond
      obtain ⟨k, hc, hthird⟩ := Option.bind_eq_some_iff.mp hsecond
      obtain ⟨hk, hc⟩ := symbol_of_value? hc
      by_cases hpadding : d = '='
      · rw [if_pos hpadding, Option.ite_none_right_eq_some] at hthird
        obtain ⟨⟨hrest, hcut⟩, hbytes⟩ := hthird
        obtain rfl := Option.some.inj hbytes
        rw [encodeChars_two hm hn hk hcut, ha, hb, hc, hpadding, hrest]
      rw [if_neg hpadding] at hthird
      obtain ⟨l, hd, hfourth⟩ := Option.bind_eq_some_iff.mp hthird
      obtain ⟨hl, hd⟩ := symbol_of_value? hd
      obtain ⟨others, hothers, hbytes⟩ := Option.bind_eq_some_iff.mp hfourth
      obtain rfl := Option.some.inj hbytes
      rw [encodeChars_three hm hn hk hl, ha, hb, hc, hd, ih hothers]
  | case3 => cases h

/-- A text is read as a byte string exactly if it is the text of this byte string. -/
theorem decode?_eq_some_iff {text : String} {bytes : Bytes} :
    decode? text = some bytes ↔ encode bytes = text := by
  constructor
  · intro h
    rw [encode, encodeChars_of_decodeChars? h, String.ofList_toList]
  · rintro rfl
    exact decode?_encode bytes

end Remodel.Codec.Base64

namespace Remodel.FileContent

/-- A file is read back from its name and the text of its content. -/
theorem decode?_encoded (file : FileContent) : decode? file.name file.encoded = some file := by
  simp [decode?, encoded, Codec.Base64.decode?_encode]

end Remodel.FileContent
