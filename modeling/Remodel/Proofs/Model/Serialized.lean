import Remodel.Model.DescriptorJson
import Remodel.Proofs.Json.Reading

/-!
# Descriptors are read back from their JSON

A descriptor is read back from its JSON as it is, whatever the kinds of its fields are, if the text
nests no deeper than is allowed; otherwise the text is taken for malformed (`Descriptor.parse_eq`).

## Strategy

The JSON of a kind is its name and then the members that it is made of (`Kind.toJson_eq`).  Reading
it does two things, and each is an induction of its own:

* the kind is put together from the structure, at any depth (`Kind.ofDraft?_draft`);
* the members behind the name are read as a whole, which limits the depth (`Kind.readMembers_map`).

Of the parts of a field just its kind can fail to be read, and of those of a descriptor just its
fields (`Field.read_eq`, `Descriptor.read_eq`), so the levels of a kind decide about the whole text.
-/

namespace Remodel

open Draft Json

namespace Kind

/-! ## Kinds as JSON -/

/-- The name of a kind in its JSON. -/
def tag : Kind → String
  | string => "string"
  | integer => "integer"
  | float => "float"
  | boolean => "boolean"
  | bytes => "bytes"
  | enum _ => "enum"
  | file => "file"
  | model _ => "model"
  | list _ => "list"
  | map _ _ => "map"

/-- The members in the JSON of a kind that stand behind its name. -/
def members : Kind → List (String × Json)
  | enum variants => [("variants", .array (variants.map Json.string))]
  | model typeId => [("type_id", .string typeId)]
  | list item => [("item", item.toJson)]
  | map key value => [("key", key.toJson), ("value", value.toJson)]
  | _ => []

theorem toJson_eq (kind : Kind) :
    kind.toJson = .object (("kind", .string kind.tag) :: kind.members) := by
  cases kind <;> rfl

theorem tag_mem_tags (kind : Kind) : tags.contains kind.tag = true := by
  cases kind <;> simp [tag, tags]

theorem key_ne (kind : Kind) : ∀ member ∈ kind.members, member.1 ≠ "kind" := by
  cases kind <;> simp [members]

theorem legible_of_members {kind : Kind} (h : ∀ member ∈ kind.members, member.2.Legible) :
    kind.toJson.Legible := by
  rw [toJson_eq]
  exact .object (List.forall_mem_cons.mpr ⟨.string _, h⟩)

theorem legible_toJson (kind : Kind) : kind.toJson.Legible := by
  induction kind with
  | enum variants =>
      have hvariants : (Json.array (variants.map Json.string)).Legible :=
        .array (List.forall_mem_map.mpr fun variant _ => .string variant)
      exact legible_of_members (by simpa [members] using hvariants)
  | model typeId => exact legible_of_members (by simpa [members] using Legible.string typeId)
  | list item ih => exact legible_of_members (by simpa [members] using ih)
  | map key value ihKey ihValue =>
      exact legible_of_members (by simpa [members] using ⟨ihKey, ihValue⟩)
  | _ => exact legible_of_members (by simp [members])

theorem levels_toJson (kind : Kind) : kind.toJson.levels = levelsOfMembers kind.members + 1 := by
  rw [toJson_eq, levels, levelsOfMembers]
  exact congrArg (· + 1) (Nat.max_eq_right (Nat.zero_le _))

/-- The members in the JSON of a kind as they are read. -/
def written (kind : Kind) : List (Option String × Draft) :=
  (("kind", Json.string kind.tag) :: kind.members).map fun member => (some member.1, member.2.draft)

theorem draft_toJson (kind : Kind) : kind.toJson.draft = .object kind.written none := by
  rw [toJson_eq, draft, written]

/-! ## The structure of a kind -/

theorem texts?_draft (texts : List String) (kind : Option Kind) :
    Part.texts? ⟨(Json.array (texts.map Json.string)).draft, kind⟩ = some texts := by
  rw [draft, Part.texts?, List.map_map]
  show List.mapM _ (texts.map _) = some texts
  induction texts with
  | nil => rfl
  | cons text rest ih =>
      rw [List.map_cons, List.mapM_cons, ih, Function.comp_apply, draft]
      rfl

theorem text?_draft (text : String) (kind : Option Kind) :
    Part.text? ⟨(Json.string text).draft, kind⟩ = some text := by
  rw [draft]
  rfl

/-- A member of a kind as a part of it. -/
def partOf (member : String × Json) : String × Part :=
  (member.1, ⟨member.2.draft, ofDraft? member.2.draft⟩)

theorem memberParts_map (members : List (String × Json)) :
    memberParts (members.map fun member => (some member.1, member.2.draft)) =
      members.map partOf := by
  induction members with
  | nil => rfl
  | cons member rest ih => rw [List.map_cons, List.map_cons, memberParts, ih, partOf]

theorem innerTagOf_written (kind : Kind) : innerTagOf kind.written = some kind.tag := by
  have hrest : (kind.members.map fun member => (some member.1, member.2.draft)).filter
      (fun member => member.1 = some "kind") = [] := by
    refine List.filter_eq_nil_iff.mpr fun member hmember => ?_
    obtain ⟨own, hown, rfl⟩ := List.mem_map.mp hmember
    simpa using kind.key_ne own hown
  rw [innerTagOf, written, List.map_cons, List.filter_cons_of_pos (by simp), hrest, draft]
  exact if_pos kind.tag_mem_tags

/-- A kind is put together from its parts once its name is known. -/
theorem ofDraft?_eq_assemble (kind : Kind) :
    ofDraft? kind.toJson.draft =
      assemble kind.tag (uniquePart? ((("kind", .string kind.tag) :: kind.members).map partOf)) :=
  calc ofDraft? kind.toJson.draft
      = ofMembers (innerTagOf kind.written) (memberParts kind.written) := by
        rw [draft_toJson, ofDraft?]
    _ = ofMembers (some kind.tag) ((("kind", .string kind.tag) :: kind.members).map partOf) := by
        rw [innerTagOf_written, written, memberParts_map]

/-- A kind is found in the structure of its JSON. -/
theorem ofDraft?_draft (kind : Kind) : ofDraft? kind.toJson.draft = some kind := by
  induction kind with
  | enum variants =>
      rw [ofDraft?_eq_assemble]
      simp [tag, members, partOf, assemble, uniquePart?, texts?_draft]
  | model typeId =>
      rw [ofDraft?_eq_assemble]
      simp [tag, members, partOf, assemble, uniquePart?, text?_draft]
  | list item ih =>
      rw [ofDraft?_eq_assemble]
      simp [tag, members, partOf, assemble, uniquePart?, ih]
  | map key value ihKey ihValue =>
      rw [ofDraft?_eq_assemble]
      simp [tag, members, partOf, assemble, uniquePart?, ihKey, ihValue]
  | _ =>
      -- a kind without parts is known by its name
      rw [ofDraft?_eq_assemble]
      simp [tag, assemble]

theorem required_ofMembers_written (kind : Kind) :
    required (ofMembers (some kind.tag) (memberParts kind.written)) = .ok kind :=
  calc required (ofMembers (some kind.tag) (memberParts kind.written))
      = required (ofDraft? kind.toJson.draft) := by
        rw [draft_toJson, ofDraft?, innerTagOf_written]
    _ = .ok kind := by rw [ofDraft?_draft, required]

/-! ## Reading -/

theorem readTag_string (kind : Kind) : readTag (.string (some kind.tag)) = .ok kind.tag := by
  rw [readTag, readText, ok_bind, if_pos kind.tag_mem_tags]
  rfl

/-- The members behind the name are read as far as they are allowed to nest. -/
theorem readMembers_map {members : List (String × Json)}
    (hkeys : ∀ member ∈ members, member.1 ≠ "kind") (depth : Nat) (tag : Option String) :
    readMembers depth tag (members.map fun member => (some member.1, member.2.draft)) =
      within (levelsOfMembers members) depth tag := by
  induction members with
  | nil => exact (within_of_le (Nat.zero_le depth)).symm
  | cons member rest ih =>
      obtain ⟨hkey, hrest⟩ := List.forall_mem_cons.mp hkeys
      obtain ⟨value, hvalue⟩ := exists_toJsonWithin member.2 depth
      rw [List.map_cons, readMembers, if_neg hkey, hvalue]
      exact within_bind _ (ih hrest)

theorem readMembers_written (kind : Kind) (depth : Nat) :
    readMembers depth none kind.written =
      within (levelsOfMembers kind.members) depth (some kind.tag) := by
  rw [written, List.map_cons, readMembers, if_pos rfl, draft, readTag_string, ok_bind]
  exact readMembers_map kind.key_ne depth _

/-- A kind is read back from its JSON exactly if it does not nest too deep. -/
theorem readWithin_draft (kind : Kind) (depth : Nat) :
    readWithin depth kind.toJson.draft = within kind.toJson.levels depth kind := by
  rw [draft_toJson, levels_toJson]
  cases depth with
  | zero => rfl
  | succ depth =>
      have hkind := kind.required_ofMembers_written.trans (within_of_le (Nat.zero_le depth)).symm
      rw [readWithin, readMembers_written]
      refine (within_bind (fun tag => required (ofMembers tag _)) hkind).trans (within_congr ?_)
      rw [Nat.max_eq_left (Nat.zero_le _), Nat.add_le_add_iff_right]

end Kind

/-! ## Fields -/

namespace Field

theorem legible_toJson (field : Field) : field.toJson.Legible := by
  refine .object ?_
  simp only [List.forall_mem_cons]
  exact ⟨.string _, field.kind.legible_toJson, .bool _, List.forall_mem_nil _⟩

theorem levels_toJson (field : Field) : field.toJson.levels = field.kind.toJson.levels + 1 := by
  simp [toJson, levels, levelsOfMembers]

/-- Of the parts of a field just the kind can fail to be read. -/
theorem read_eq (field : Field) (depth : Nat) :
    Field.read depth field.toJson.draft =
      Kind.readWithin (depth - 1) field.kind.toJson.draft >>= fun kind =>
        .ok ⟨field.name, kind, field.writable⟩ := by
  rw [toJson, draft]
  simp only [List.map_cons, List.map_nil, draft]
  rw [Field.read]
  simp [readFields, readKnown, readText, readBool, required]

/-- A field is read back from its JSON exactly if its kind does not nest too deep. -/
theorem read_draft (field : Field) (depth : Nat) :
    Field.read depth field.toJson.draft = within field.toJson.levels depth field := by
  have hpos := field.kind.levels_toJson
  rw [read_eq, Kind.readWithin_draft, within_bind_ok fun kind => Field.mk field.name kind _]
  refine within_congr ?_
  rw [levels_toJson]
  omega

end Field

/-! ## Descriptors -/

namespace Descriptor

theorem legible_toJson (descriptor : Descriptor) : descriptor.toJson.Legible := by
  have hfields : (Json.array (descriptor.fields.map Field.toJson)).Legible :=
    .array (List.forall_mem_map.mpr fun field _ => field.legible_toJson)
  refine .object ?_
  cases descriptor.idField with
  | none => simpa using ⟨Legible.string _, hfields⟩
  | some name => simpa using ⟨Legible.string _, Legible.string name, hfields⟩

theorem levels_toJson (descriptor : Descriptor) :
    descriptor.toJson.levels = levelsOfItems (descriptor.fields.map Field.toJson) + 2 := by
  unfold toJson
  cases descriptor.idField <;> simp [levels, levelsOfMembers]

/-- Of the parts of a descriptor just the fields can fail to be read. -/
theorem read_eq (descriptor : Descriptor) (depth : Nat) :
    Descriptor.read (depth + 2) descriptor.toJson.draft =
      readEach (Field.read depth) (descriptor.fields.map fun field => field.toJson.draft) >>=
        fun fields => .ok ⟨descriptor.typeId, descriptor.idField, fields⟩ := by
  obtain ⟨typeId, idField, fields⟩ := descriptor
  rw [toJson, draft, Descriptor.read]
  cases idField <;>
    simp [readFields, readKnown, readText, readOptionalText, readList, draft, required,
      Function.comp_def, Except.map]

/-- A descriptor is read back from its JSON exactly if the kinds of its fields do not nest too
deep. -/
theorem read_draft (descriptor : Descriptor) (depth : Nat) :
    Descriptor.read (depth + 2) descriptor.toJson.draft =
      within descriptor.toJson.levels (depth + 2) descriptor := by
  have hfields := readEach_within fun field (_ : field ∈ descriptor.fields) =>
    field.read_draft depth
  rw [read_eq, hfields, within_bind_ok fun fields => Descriptor.mk descriptor.typeId _ fields]
  refine within_congr ?_
  rw [levels_toJson, Nat.add_le_add_iff_right]

/-- A descriptor is read back from its text, on one line and over several lines, exactly if the text
does not nest too deep. -/
theorem parse_eq (descriptor : Descriptor) :
    Descriptor.parse descriptor.toJson.compact =
        within descriptor.toJson.levels maxDepth descriptor ∧
      Descriptor.parse descriptor.toJson.pretty =
        within descriptor.toJson.levels maxDepth descriptor := by
  have hread := descriptor.read_draft 125
  rw [Descriptor.parse, Descriptor.parse, descriptor.legible_toJson.readText?_compact,
    descriptor.legible_toJson.readText?_pretty]
  exact ⟨hread, hread⟩

end Descriptor

end Remodel
