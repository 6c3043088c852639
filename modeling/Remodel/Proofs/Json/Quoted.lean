import Mathlib.Data.List.Basic
import Remodel.Json.Draft

/-!
# Strings in quotes are read back

What is written for a character is read back as one piece of a string, and this piece stands for the
character (`exists_piece`): a control character that has no letter of its own is written by its
number, which is never half of a surrogate pair.  So a string is read back from its quoted form, in
front of whatever follows (`readString_quote`).
-/

namespace Remodel.Draft

open Json

/-- Whether a piece of a string stands for a character, in front of any other pieces. -/
def Piece.IsFor (piece : Piece) (c : Char) : Prop :=
  ∀ pieces, joinPieces (piece :: pieces) = (joinPieces pieces).map (c :: ·)

theorem isFor_char (c : Char) : (Piece.char c).IsFor c := fun _ => rfl

theorem isFor_unit {c : Char} (hc : c.toNat < 32) : (Piece.unit c.toNat).IsFor c := by
  have hlow : decide (0xD800 ≤ c.toNat) = false := by
    rw [decide_eq_false_iff_not]
    omega
  have hhigh : decide (0xDC00 ≤ c.toNat) = false := by
    rw [decide_eq_false_iff_not]
    omega
  intro pieces
  cases pieces with
  | nil => simp [joinPieces, hlow]
  | cons next rest =>
      cases next with
      | char d => simp [joinPieces, hlow]
      | unit low => simp [joinPieces, hlow, hhigh]

theorem hexValue_hexPair : ∀ n < 32, hexValue (['0', '0'] ++ hexPair n) = some n := by decide

theorem readPieces_number {c : Char} (hc : c.toNat < 32) (rest : List Char) :
    readPieces (['\\', 'u', '0', '0'] ++ hexPair c.toNat ++ rest) =
      (readPieces rest).map fun read => (.unit c.toNat :: read.1, read.2) := by
  have hvalue := hexValue_hexPair c.toNat hc
  rw [hexPair] at hvalue ⊢
  simp only [List.cons_append, List.nil_append] at hvalue ⊢
  rw [readPieces, hvalue]

theorem readPieces_letter {letter c : Char} (hu : letter ≠ 'u') (h : shortEscape? letter = some c)
    (rest : List Char) :
    readPieces (['\\', letter] ++ rest) =
      (readPieces rest).map fun read => (.char c :: read.1, read.2) := by
  rw [List.cons_append, List.singleton_append, readPieces, if_neg hu, h]
  intro _ _ _ _ _ hletter
  exact absurd hletter hu

theorem readPieces_plain {c : Char} (hquote : c ≠ '"') (hslash : c ≠ '\\') (hc : 32 ≤ c.toNat)
    (rest : List Char) :
    readPieces ([c] ++ rest) = (readPieces rest).map fun read => (.char c :: read.1, read.2) := by
  rw [List.singleton_append, readPieces, if_neg hslash, if_neg (Nat.not_lt.mpr hc)]
  · exact hquote
  · intro _ _ _ _ _ h
    exact absurd h hslash
  · intro _ _ h
    exact absurd h hslash

/-- What is written for a character is read back as one piece, which stands for it. -/
theorem exists_piece (c : Char) : ∃ piece : Piece, piece.IsFor c ∧ ∀ rest,
    readPieces (escapeChar c ++ rest) =
      (readPieces rest).map fun read => (piece :: read.1, read.2) := by
  have hletter : ∀ {letter d : Char}, c = d → letter ≠ 'u' → shortEscape? letter = some d →
      ∃ piece : Piece, piece.IsFor c ∧ ∀ rest, readPieces (['\\', letter] ++ rest) =
        (readPieces rest).map fun read => (piece :: read.1, read.2) := by
    rintro letter d rfl hu h
    exact ⟨.char c, isFor_char c, readPieces_letter hu h⟩
  have hcode : ∀ {n : Nat}, c.toNat = n → c = Char.ofNat n := by
    rintro n rfl
    exact c.ofNat_toNat.symm
  rw [escapeChar]
  split_ifs with hquote hslash hline hreturn htab hback hfeed hcontrol
  · exact hletter hquote (by decide) (by decide)
  · exact hletter hslash (by decide) (by decide)
  · exact hletter hline (by decide) (by decide)
  · exact hletter hreturn (by decide) (by decide)
  · exact hletter htab (by decide) (by decide)
  · exact hletter (hcode hback) (by decide) (by decide)
  · exact hletter (hcode hfeed) (by decide) (by decide)
  · exact ⟨.unit c.toNat, isFor_unit hcontrol, readPieces_number hcontrol⟩
  · exact ⟨.char c, isFor_char c, readPieces_plain hquote hslash (Nat.not_lt.mp hcontrol)⟩

theorem exists_pieces (chars rest : List Char) : ∃ pieces, joinPieces pieces = some chars ∧
    readPieces (chars.flatMap escapeChar ++ '"' :: rest) = .ok (pieces, rest) := by
  induction chars with
  | nil => exact ⟨[], rfl, rfl⟩
  | cons c chars ih =>
      obtain ⟨pieces, hpieces, hread⟩ := ih
      obtain ⟨piece, hpiece, hreadPiece⟩ := exists_piece c
      refine ⟨piece :: pieces, ?_, ?_⟩
      · rw [hpiece, hpieces]
        rfl
      · rw [List.flatMap_cons, List.append_assoc, hreadPiece, hread]
        rfl

theorem quote_append (s : String) (rest : List Char) :
    quote s ++ rest = '"' :: (s.toList.flatMap escapeChar ++ '"' :: rest) := by
  rw [quote, List.append_assoc, List.cons_append, List.singleton_append]

/-- **A string is read back** from what is written behind its first quote, in front of whatever
follows. -/
theorem readString_quote (s : String) (rest : List Char) :
    readString (s.toList.flatMap escapeChar ++ '"' :: rest) = .ok (some s, rest) := by
  obtain ⟨pieces, hpieces, hread⟩ := exists_pieces s.toList rest
  rw [readString, hread]
  simp [Except.map, hpieces]

end Remodel.Draft
