import Remodel.Proofs.Json.Reading
import Remodel.Proofs.Table
import Remodel.Record.RecordJson

/-!
# Records are read back from their JSON

A record is read back from its JSON as it is (`Record.parse_toJson`).  A scalar is written without a
mark of its kind, and is read as the first kind that fits (`Scalar.read_draft`): a boolean, a text
and an array of bytes differ in the shape of their JSON, and of the numbers just the whole ones are
integers.  Doubles are written with a point or an exponent, so a whole value does not make them
integers; integers have 63 bits and a sign, so their size does not make them doubles.
-/

namespace Remodel

open Draft Json

namespace Scalar

/-- Whether a scalar is read back from its text: a double if it is finite and the digits that are
written for it lead back to it, and everything else. -/
def Legible : Scalar → Prop
  | float x => x.isFinite = true ∧ Json.double? (Decimal.json.text x) = some x
  | _ => True

instance : DecidablePred Legible := fun scalar =>
  match scalar with
  | float _ => inferInstanceAs (Decidable (_ ∧ _))
  | boolean _ | integer _ | string _ | bytes _ => inferInstanceAs (Decidable True)

theorem legible_toJson {scalar : Scalar} (h : scalar.Legible) : scalar.toJson.Legible := by
  cases scalar with
  | boolean b => exact .bool b
  | integer i =>
      have hlow := i.le_toInt
      have hhigh := i.toInt_lt
      have hbound : Text.wordBound = 0x10000000000000000 := rfl
      exact .number ⟨by omega, by omega⟩
  | float x =>
      rw [toJson, ofFloat_of_isFinite h.1]
      exact .number h
  | string s => exact .string s
  | bytes b =>
      have hbyte : ∀ byte : UInt8, byte.toNat < Text.wordBound := fun byte =>
        Nat.lt_trans byte.toNat_lt (by decide)
      exact .array (List.forall_mem_map.mpr fun byte _ => legible_ofNat (hbyte byte))

theorem itemsToJson_bytes (depth : Nat) (bytes : Codec.Bytes) :
    itemsToJson depth ((bytes.map fun byte => Json.ofNat byte.toNat).map draft) =
      .ok (bytes.map fun byte => Json.ofNat byte.toNat) := by
  induction bytes with
  | nil => rfl
  | cons byte rest ih =>
      rw [List.map_cons, List.map_cons, itemsToJson, ih, Json.ofNat, draft]
      rfl

theorem mapM_byte? (bytes : Codec.Bytes) :
    (bytes.map fun byte => Json.ofNat byte.toNat).mapM byte? = some bytes := by
  have hbyte : ∀ byte : UInt8, byte? (Json.ofNat byte.toNat) = some byte := by
    intro byte
    have hlt : byte.toNat < 256 := byte.toNat_lt
    simp [byte?, Json.ofNat, JsonNumber.natural?, hlt]
  induction bytes with
  | nil => rfl
  | cons byte rest ih => simp [hbyte, ih]

theorem ofJson?_toJson {scalar : Scalar} (h : scalar.Legible) :
    ofJson? scalar.toJson = some scalar := by
  cases scalar with
  | boolean b => rfl
  | integer i =>
      have hfits : Text.fitsInt64 i.toInt = true := Text.fitsInt64_toInt i
      simp [toJson, Json.ofInt, ofJson?, JsonNumber.int64?, hfits]
  | float x =>
      rw [toJson, ofFloat_of_isFinite h.1]
      rfl
  | string s => rfl
  | bytes b =>
      rw [toJson, ofJson?, mapM_byte?]
      rfl

theorem toJsonWithin_draft {scalar : Scalar} (h : scalar.Legible) (depth : Nat) :
    scalar.toJson.draft.toJsonWithin (depth + 1) = .ok scalar.toJson := by
  cases scalar with
  | boolean b =>
      rw [toJson, draft]
      rfl
  | integer i =>
      rw [toJson, Json.ofInt, draft]
      rfl
  | float x =>
      rw [toJson, ofFloat_of_isFinite h.1, draft]
      rfl
  | string s =>
      rw [toJson, draft]
      rfl
  | bytes b =>
      rw [toJson, draft, toJsonWithin, if_neg (Nat.succ_ne_zero depth), itemsToJson_bytes]
      rfl

/-- A scalar is read as a scalar of its own kind. -/
theorem read_draft {scalar : Scalar} (h : scalar.Legible) :
    Scalar.read scalar.toJson.draft = .ok scalar := by
  rw [Scalar.read, maxDepth, toJsonWithin_draft h 124, ok_bind, ofJson?_toJson h, required]

end Scalar

namespace Record

theorem legible_toJson {record : Record} (hentries : ∀ entry ∈ record.entries, entry.2.Legible)
    (hversion : record.version < Text.wordBound) : record.toJson.Legible := by
  have hobject : Json.Legible
      (.object (record.entries.map fun entry => (entry.1, entry.2.toJson))) :=
    .object (List.forall_mem_map.mpr fun entry hentry =>
      Scalar.legible_toJson (hentries entry hentry))
  refine .object ?_
  simp only [List.forall_mem_cons]
  exact ⟨.string _, hobject, legible_ofNat hversion, fun _ h => absurd h List.not_mem_nil⟩

theorem read_draft {record : Record} (hkeys : Table.Ascending record.entries)
    (hentries : ∀ entry ∈ record.entries, entry.2.Legible) :
    Record.read record.toJson.draft = .ok record := by
  have hversion : readNatural (.number (some (.whole record.version))) = .ok record.version := by
    simp [readNatural, JsonNumber.natural?]
  have htable : Table.ofList record.entries = record.entries := hkeys.ofList_eq (List.Perm.refl _)
  have hmembers := readEachMember_map fun entry hentry => Scalar.read_draft (hentries entry hentry)
  rw [toJson, draft]
  simp only [List.map_cons, List.map_nil, draft, List.map_map, Function.comp_def, Json.ofNat]
  rw [Record.read]
  simp [readFields, readKnown, readText, readTable, hmembers, hversion, htable, required]

/-- **A record is read back from its JSON**, on one line and over several lines: the same entries
under the same keys, each a scalar of its own kind, and the same version. -/
theorem parse_toJson (record : Record) (hkeys : Table.Ascending record.entries)
    (hversion : record.version < Text.wordBound)
    (hentries : ∀ entry ∈ record.entries, entry.2.Legible) :
    Record.parse record.toJson.compact = .ok record ∧
      Record.parse record.toJson.pretty = .ok record := by
  have hlegible := legible_toJson hentries hversion
  have hread := read_draft hkeys hentries
  constructor
  · rw [Record.parse, readText?, hlegible.ofText_compact]
    simp only [hread]
    rfl
  · rw [Record.parse, readText?, hlegible.ofText_pretty]
    simp only [hread]
    rfl

/-- A record whose values look like values of other kinds. -/
def lookalikes : Record where
  oid := "d/c/\"1\""
  entries :=
    [("", .bytes []), ("exact", .integer 9007199254740993), ("flag", .boolean true),
      ("least", .integer (-9223372036854775808)), ("octets", .bytes [0, 255]),
      ("text\n", .string "true"), ("whole", .float 3.0), ("wide", .float 1e22),
      ("word", .string "12"), ("zero", .float (-0.0))]
  version := 18446744073709551615

theorem parse_toJson_lookalikes :
    Record.parse lookalikes.toJson.compact = .ok lookalikes ∧
      Record.parse lookalikes.toJson.pretty = .ok lookalikes :=
  parse_toJson lookalikes (by unfold Table.Ascending; decide +kernel) (by decide)
    (by decide +kernel)

end Record

end Remodel
