import Remodel.Proofs.Codec.Base64

/-!
# The standard form of a content

What a content is written as is described here by its bits (`IsStandard`): six for every symbol of
the alphabet, which are the bits of the bytes with zeros behind them, and padding up to a multiple
of four characters.  By this a text is the standard form of one byte string at most, and every byte
string has one standard form: the symbols are found from the bits, and their number says how much
padding there is (`isStandard_iff`).

Reading takes the standard forms and nothing else, so that a content and its text determine each
other (`FileContent.text_and_content_correspond`).
-/

namespace Remodel.Codec.Base64

/-- The symbols in the order of their numbers. -/
def alphabet : List Char :=
  "ABCDEFGHIJKLMNOPQRSTUVWXYZabcdefghijklmnopqrstuvwxyz0123456789+/".toList

/-- So many bits of a number, the highest of them first. -/
def bits : Nat → Nat → List Bool
  | 0, _ => []
  | width + 1, n => bits width (n / 2) ++ [n % 2 == 1]

/-- Whether the bits of a byte string are those of some symbols, with zeros behind them, and the
symbols are groups of four, `padding` of them missing in the last one. -/
structure Groups (bytes : Bytes) (numbers : List Nat) (padding : Nat) : Prop where
  symbols : ∀ n ∈ numbers, n < 64
  padding_lt : padding < 3
  full : 4 ∣ numbers.length + padding
  bits_eq : numbers.flatMap (bits 6) =
    (bytes.flatMap fun byte => bits 8 byte.toNat) ++ List.replicate (2 * padding) false

/-- Whether a text is the standard form of a byte string. -/
def IsStandard (bytes : Bytes) (chars : List Char) : Prop :=
  ∃ numbers padding, Groups bytes numbers padding ∧
    chars = numbers.map (alphabet.getD · '=') ++ List.replicate padding '='

theorem symbol_eq_getD : ∀ n < 64, symbol n = alphabet.getD n '=' := by decide

/-! ## Bits -/

@[simp] theorem length_bits (width n : Nat) : (bits width n).length = width := by
  induction width generalizing n with
  | zero => rfl
  | succ width ih => simp [bits, ih]

/-- The bits of a number that is put together from two others are theirs. -/
theorem bits_join (more width : Nat) {high low : Nat} (h : low < 2 ^ width) :
    bits (more + width) (high * 2 ^ width + low) = bits more high ++ bits width low := by
  induction width generalizing low with
  | zero =>
      obtain rfl : low = 0 := by simpa using h
      simp [bits]
  | succ width ih =>
      have hdouble : high * 2 ^ (width + 1) = 2 * (high * 2 ^ width) := by
        rw [Nat.pow_succ, Nat.mul_comm (2 ^ width), Nat.mul_left_comm]
      have hhalf : low / 2 < 2 ^ width := by omega
      have hdiv : (high * 2 ^ (width + 1) + low) / 2 = high * 2 ^ width + low / 2 := by omega
      have hmod : (high * 2 ^ (width + 1) + low) % 2 = low % 2 := by omega
      rw [← Nat.add_assoc, bits, bits, hdiv, hmod, ih hhalf, List.append_assoc]

theorem bits_cut (more width n : Nat) :
    bits (more + width) n = bits more (n / 2 ^ width) ++ bits width (n % 2 ^ width) := by
  rw [← bits_join more width (Nat.mod_lt n (Nat.two_pow_pos width)), Nat.div_add_mod']

theorem bits_injective {width m n : Nat} (hm : m < 2 ^ width) (hn : n < 2 ^ width)
    (h : bits width m = bits width n) : m = n := by
  induction width generalizing m n with
  | zero => simp_all
  | succ width ih =>
      rw [bits, bits] at h
      obtain ⟨hhigh, hlow⟩ := List.append_inj h (by simp)
      have hhalves : m / 2 = n / 2 := ih (by omega) (by omega) hhigh
      have hlast : (m % 2 == 1) = (n % 2 == 1) := by simpa using hlow
      rw [Bool.eq_iff_iff, beq_iff_eq, beq_iff_eq] at hlast
      omega

theorem eq_of_flatMap_bits (width : Nat) {numbers others : List Nat}
    (hnumbers : ∀ n ∈ numbers, n < 2 ^ width) (hothers : ∀ n ∈ others, n < 2 ^ width)
    (hlength : numbers.length = others.length)
    (h : numbers.flatMap (bits width) = others.flatMap (bits width)) : numbers = others := by
  induction numbers generalizing others with
  | nil => exact (List.length_eq_zero_iff.mp hlength.symm).symm
  | cons n rest ih =>
      cases others with
      | nil => cases hlength
      | cons m others =>
          rw [List.flatMap_cons, List.flatMap_cons] at h
          obtain ⟨hfirst, hrest⟩ := List.append_inj h (by simp)
          rw [List.forall_mem_cons] at hnumbers hothers
          rw [bits_injective hnumbers.1 hothers.1 hfirst,
            ih hnumbers.2 hothers.2 (Nat.succ.inj hlength) hrest]

theorem length_flatMap_bits {α : Type} (width : Nat) (number : α → Nat) (parts : List α) :
    (parts.flatMap fun part => bits width (number part)).length = width * parts.length := by
  induction parts with
  | nil => rfl
  | cons part rest ih =>
      calc ((part :: rest).flatMap fun part => bits width (number part)).length
          = width + width * rest.length := by
            rw [List.flatMap_cons, List.length_append, length_bits, ih]
        _ = width * (part :: rest).length := by
            rw [List.length_cons, Nat.mul_succ, Nat.add_comm]

/-! ## Written texts are standard -/

section Bytes

variable (a b c : UInt8)

/-- The bits of three bytes are cut into those of four symbols. -/
theorem bits_group :
    bits 6 (a.toNat / 4) ++ (bits 6 (a.toNat % 4 * 16 + b.toNat / 16) ++
      (bits 6 (b.toNat % 16 * 4 + c.toNat / 64) ++ bits 6 (c.toNat % 64))) =
    bits 8 a.toNat ++ (bits 8 b.toNat ++ bits 8 c.toNat) := by
  have hb := b.toNat_lt
  have hc := c.toNat_lt
  -- where a byte is cut, and where the parts of two bytes are joined
  have hfirst : bits 8 a.toNat = bits 6 (a.toNat / 4) ++ bits 2 (a.toNat % 4) := bits_cut 6 2 _
  have hsecond : bits 8 b.toNat = bits 4 (b.toNat / 16) ++ bits 4 (b.toNat % 16) := bits_cut 4 4 _
  have hthird : bits 8 c.toNat = bits 2 (c.toNat / 64) ++ bits 6 (c.toNat % 64) := bits_cut 2 6 _
  have hfirstSecond : bits 6 (a.toNat % 4 * 16 + b.toNat / 16) =
      bits 2 (a.toNat % 4) ++ bits 4 (b.toNat / 16) := bits_join 2 4 (by omega)
  have hsecondThird : bits 6 (b.toNat % 16 * 4 + c.toNat / 64) =
      bits 4 (b.toNat % 16) ++ bits 2 (c.toNat / 64) := bits_join 4 2 (by omega)
  rw [hfirst, hsecond, hthird, hfirstSecond, hsecondThird]
  simp only [List.append_assoc]

/-- The bits of two bytes and two zeros are cut into those of three symbols. -/
theorem bits_group_two :
    bits 6 (a.toNat / 4) ++ (bits 6 (a.toNat % 4 * 16 + b.toNat / 16) ++
      bits 6 (b.toNat % 16 * 4)) =
    bits 8 a.toNat ++ (bits 8 b.toNat ++ List.replicate 2 false) := by
  -- a third byte counts as zero, and the symbol that it would add is cut off
  refine (List.append_left_inj (bits 6 0)).mp ?_
  have hbits := bits_group a b 0
  have hzeros : bits 8 0 = List.replicate 2 false ++ bits 6 0 := rfl
  simp only [UInt8.toNat_zero, Nat.zero_div, Nat.zero_mod, Nat.add_zero, hzeros] at hbits
  simpa only [List.append_assoc] using hbits

/-- The bits of a byte and four zeros are cut into those of two symbols. -/
theorem bits_group_one :
    bits 6 (a.toNat / 4) ++ bits 6 (a.toNat % 4 * 16) =
      bits 8 a.toNat ++ List.replicate 4 false := by
  refine (List.append_left_inj (bits 6 0)).mp ?_
  have hbits := bits_group_two a 0
  have hzeros : bits 8 0 ++ List.replicate 2 false = List.replicate 4 false ++ bits 6 0 := rfl
  simp only [UInt8.toNat_zero, Nat.zero_div, Nat.zero_mod, Nat.zero_mul, Nat.add_zero, hzeros]
    at hbits
  simpa only [List.append_assoc] using hbits

end Bytes

theorem isStandard_encodeChars (bytes : Bytes) : IsStandard bytes (encodeChars bytes) := by
  fun_induction encodeChars bytes with
  | case1 a b c rest ih =>
      obtain ⟨numbers, padding, hgroups, hchars⟩ := ih
      refine ⟨a.toNat / 4 :: (a.toNat % 4 * 16 + b.toNat / 16) ::
        (b.toNat % 16 * 4 + c.toNat / 64) :: c.toNat % 64 :: numbers, padding, ?_, ?_⟩
      · have hfourth : c.toNat % 64 < 64 := Nat.mod_lt _ (by decide)
        refine ⟨?_, hgroups.padding_lt, ?_, ?_⟩
        · simp only [List.forall_mem_cons]
          exact ⟨first_symbol_lt a, second_symbol_lt a b, third_symbol_lt b c, hfourth,
            hgroups.symbols⟩
        · have hfull := hgroups.full
          simp only [List.length_cons]
          omega
        · simp only [List.flatMap_cons, hgroups.bits_eq]
          have hbits := bits_group a b c
          simp only [← List.append_assoc] at hbits ⊢
          rw [hbits]
      · rw [hchars, symbol_eq_getD _ (first_symbol_lt a), symbol_eq_getD _ (second_symbol_lt a b),
          symbol_eq_getD _ (third_symbol_lt b c), symbol_eq_getD _ (Nat.mod_lt _ (by decide))]
        rfl
  | case2 a b =>
      have hthird := third_symbol_lt b 0
      rw [UInt8.toNat_zero, Nat.zero_div, Nat.add_zero] at hthird
      refine ⟨[a.toNat / 4, a.toNat % 4 * 16 + b.toNat / 16, b.toNat % 16 * 4], 1, ?_, ?_⟩
      · refine ⟨?_, by decide, by simp, ?_⟩
        · simp only [List.forall_mem_cons]
          exact ⟨first_symbol_lt a, second_symbol_lt a b, hthird, List.forall_mem_nil _⟩
        · simpa using bits_group_two a b
      · rw [symbol_eq_getD _ (first_symbol_lt a), symbol_eq_getD _ (second_symbol_lt a b),
          symbol_eq_getD _ hthird]
        rfl
  | case3 a =>
      have hsecond := second_symbol_lt a 0
      rw [UInt8.toNat_zero, Nat.zero_div, Nat.add_zero] at hsecond
      refine ⟨[a.toNat / 4, a.toNat % 4 * 16], 2, ?_, ?_⟩
      · refine ⟨?_, by decide, by simp, ?_⟩
        · simp only [List.forall_mem_cons]
          exact ⟨first_symbol_lt a, hsecond, List.forall_mem_nil _⟩
        · simpa using bits_group_one a
      · rw [symbol_eq_getD _ (first_symbol_lt a), symbol_eq_getD _ hsecond]
        rfl
  | case4 => exact ⟨[], 0, ⟨List.forall_mem_nil _, by decide, by decide, rfl⟩, rfl⟩

/-! ## There is one standard form -/

theorem Groups.eq {bytes : Bytes} {numbers others : List Nat} {padding more : Nat}
    (h : Groups bytes numbers padding) (h' : Groups bytes others more) :
    numbers = others ∧ padding = more := by
  have hbits := congrArg List.length h.bits_eq
  have hbits' := congrArg List.length h'.bits_eq
  have hbytes := length_flatMap_bits 8 UInt8.toNat bytes
  simp only [List.length_append, List.length_replicate, hbytes,
    length_flatMap_bits 6 (fun n => n)] at hbits hbits'
  -- the number of bytes says how many symbols are missing in the last group
  have hpadding : padding = more := by
    have hfull := h.full
    have hfull' := h'.full
    have hlt := h.padding_lt
    have hlt' := h'.padding_lt
    omega
  subst hpadding
  refine ⟨eq_of_flatMap_bits 6 h.symbols h'.symbols (by omega) ?_, rfl⟩
  rw [h.bits_eq, h'.bits_eq]

/-- A text is the standard form of a byte string exactly if it is the text that is written. -/
theorem isStandard_iff {bytes : Bytes} {chars : List Char} :
    IsStandard bytes chars ↔ encodeChars bytes = chars := by
  constructor
  · rintro ⟨numbers, padding, hgroups, rfl⟩
    obtain ⟨others, more, hgroups', hchars⟩ := isStandard_encodeChars bytes
    obtain ⟨rfl, rfl⟩ := hgroups.eq hgroups'
    exact hchars
  · rintro rfl
    exact isStandard_encodeChars bytes

end Remodel.Codec.Base64

namespace Remodel.FileContent

open Codec.Base64 (IsStandard isStandard_iff)

theorem decode?_eq_some_iff {name text : String} {file : FileContent} :
    decode? name text = some file ↔ file.name = name ∧ file.encoded = text := by
  obtain ⟨own, content⟩ := file
  rw [decode?, Option.map_eq_some_iff]
  simp only [Codec.Base64.decode?_eq_some_iff, encoded, mk.injEq]
  constructor
  · rintro ⟨bytes, htext, hname, rfl⟩
    exact ⟨hname.symm, htext⟩
  · rintro ⟨rfl, htext⟩
    exact ⟨content, htext, rfl, rfl⟩

/-- **A content and its text determine each other.**  A file is read back from its name and its
text, with exactly this name and content; a text that is read is the text of what is read, so that
no two texts give the same content; and the text of a content is its standard form. -/
theorem text_and_content_correspond :
    (∀ name content, decode? name (encoded ⟨name, content⟩) = some ⟨name, content⟩) ∧
      (∀ name text file, decode? name text = some file → file.name = name ∧ file.encoded = text) ∧
      (∀ name text file name' text' file', decode? name text = some file →
        decode? name' text' = some file' → file.content = file'.content → text = text') ∧
      ∀ name text content, decode? name text = some ⟨name, content⟩ ↔
        IsStandard content text.toList := by
  refine ⟨fun name content => decode?_encoded ⟨name, content⟩, ?_, ?_, ?_⟩
  · exact fun name text file hread => decode?_eq_some_iff.mp hread
  · intro name text file name' text' file' hread hread' hcontent
    rw [← (decode?_eq_some_iff.mp hread).2, ← (decode?_eq_some_iff.mp hread').2, encoded, encoded,
      hcontent]
  · intro name text content
    rw [decode?_eq_some_iff, isStandard_iff, encoded, Codec.Base64.encode]
    constructor
    · rintro ⟨-, rfl⟩
      exact String.toList_ofList.symm
    intro hchars
    refine ⟨rfl, ?_⟩
    rw [hchars, String.ofList_toList]

/-- Files whose contents leave no byte, one byte and two bytes in the last group. -/
theorem text_and_content_correspond_groups :
    decode? "a.bin" "AAD/" = some ⟨"a.bin", [0, 0, 255]⟩ ∧
      encoded ⟨"b.bin", [251]⟩ = "+w==" ∧
      Codec.Base64.IsStandard [251, 255] "+/8=".toList := by
  obtain ⟨hback, honly, -, hstandard⟩ := text_and_content_correspond
  exact ⟨hback "a.bin" [0, 0, 255], (honly "b.bin" "+w==" ⟨"b.bin", [251]⟩ (by decide)).2,
    (hstandard "c.bin" "+/8=" [251, 255]).mp (by decide)⟩

end Remodel.FileContent
