import Mathlib.Data.List.Nodup
import Remodel.Model.Equality
import Remodel.Proofs.Record.Rebuilding
import Remodel.Proofs.Record.Relabelled

/-!
# What a field is rebuilt as depends on the field alone

Two models of a type that hold the same in a field are rebuilt with the same in that field,
whatever their other fields hold, as long as no key of another set field is one by which the
field is read back, and different instances get different record ids.

The same is asked of the models inside the field, where keys that meet would let a field take
the id of a record for its text, and ids are drawn for the whole model.
-/

namespace Remodel

open Record Value Rebuild

/-- A field is told apart from its siblings by the keys of its value, which fits its kind, and so
is every field of the models in that value. -/
structure Isolated (types : TypeTable) (model : Model) (field : Field) : Prop where
  separate : model.Separate field.name
  accepted : ∀ value ∈ model.get? field.name, field.kind.accepts value = true
  sound : ∀ value ∈ model.get? field.name, ∀ inner ∈ occurrencesInValue value, Sound types inner

section Flattened

variable {types : TypeTable} {context : FlattenContext} {model rebuilt : Model} {field : Field}

/-- A flattened model is rebuilt by reading the fields of a record that depicts it. -/
theorem RebuiltAs.exists_depicts (htype : types.resolve model.typeId = .ok model.descriptor)
    (hnames : model.descriptor.fieldNames.Nodup) (hcoherent : model.Coherent)
    (hoids : ((model.flatten context).value.records.map Record.oid).Nodup)
    (hrebuilt : RebuiltAs types context model rebuilt) :
    ∃ (nested : Nested) (source : RecordSource) (record : Record),
      Depicts (Fetches types nested source) record model ∧
        gatherModel types model.typeId (readField nested source record) = .ok (some rebuilt) := by
  obtain ⟨root, hroot, hrebuild⟩ := hrebuilt
  obtain ⟨before, record, hrecords, hoid, hdepicts⟩ :=
    depicts_flatten (lasting_restorable types) context hcoherent
  set source := (model.flatten context).value.records with hsource
  -- the root is found by its id, which no other record has
  obtain rfl : record = root := by
    rw [root?_eq_some hoids (by simp [← hsource, hrecords]) hoid] at hroot
    exact Option.some.inj hroot
  have hlength : source.length = before.length + 1 := by
    rw [hrecords, List.length_append, List.length_singleton]
  have hbefore : before <+: source := by
    rw [hrecords]
    exact List.prefix_append _ _
  have hdepth := rebuildDepth_ge htype source
  obtain ⟨depth, hdepthEq⟩ : ∃ d, rebuildDepth types source = d + 1 :=
    ⟨rebuildDepth types source - 1, by omega⟩
  have hfetches : Depicts (Fetches types (rebuildWithin types source depth) source) record
      model := hdepicts.fetches hbefore hoids (by omega)
  refine ⟨rebuildWithin types source depth, source, record, hfetches, ?_⟩
  rw [rebuild, hdepthEq, rebuildWithin] at hrebuild
  rw [← result_rebuildUsing hfetches.modelType, hrebuild]
  intro descriptor hresolve
  obtain rfl := Except.ok.inj (hresolve.symm.trans htype)
  exact hnames

/-- A flattened model that is rebuilt holds in an isolated field what is given back of it. -/
theorem restoreField_eq_get?_of_rebuild
    (htype : types.resolve model.typeId = .ok model.descriptor)
    (hnames : model.descriptor.fieldNames.Nodup) (hfield : field ∈ model.descriptor.fields)
    (hisolated : Isolated types model field) (hcoherent : model.Coherent)
    (hoids : ((model.flatten context).value.records.map Record.oid).Nodup)
    (hrebuilt : RebuiltAs types context model rebuilt) :
    (if field.writable then restoreField types field.name model.values else .ok none) =
      .ok (rebuilt.get? field.name) := by
  obtain ⟨nested, source, record, hfetches, hgathered⟩ :=
    hrebuilt.exists_depicts htype hnames hcoherent hoids
  have hread := readField_eq_restoreField hfetches hfield hisolated.separate hisolated.sound
    hisolated.accepted
  by_cases hwritable : field.writable = true
  · rw [if_pos hwritable, ← hread]
    exact get?_of_gatherModel hgathered htype hnames (List.mem_filter.mpr ⟨hfield, hwritable⟩)
  · -- a field that cannot be written is left as it is in a new model
    have hname : field.name ∉ model.descriptor.writableFields.map Field.name := by
      intro hname
      obtain ⟨other, hother, heq⟩ := List.mem_map.mp hname
      obtain ⟨hdeclared, hother⟩ := List.mem_filter.mp hother
      exact hwritable (List.inj_on_of_nodup_map hnames hdeclared hfield heq ▸ hother)
    rw [if_neg hwritable, get?_of_gatherModel_of_not_mem hgathered htype hname]

end Flattened

/-- **Siblings do not interfere.**  Two models of a type that hold the same in a field are
rebuilt with the same in that field, if the field is isolated in both and the records of each
have different ids. -/
theorem get?_rebuild_eq (types : TypeTable) (context₁ context₂ : FlattenContext)
    (model₁ model₂ : Model) (field : Field) {rebuilt₁ rebuilt₂ : Model}
    (htype : types.resolve model₁.typeId = .ok model₁.descriptor)
    (hdescriptor : model₂.descriptor = model₁.descriptor)
    (hnames : model₁.descriptor.fieldNames.Nodup) (hfield : field ∈ model₁.descriptor.fields)
    (hsame : SameIn field.name model₁ model₂)
    (hisolated₁ : Isolated types model₁ field) (hisolated₂ : Isolated types model₂ field)
    (hcoherent₁ : model₁.Coherent) (hcoherent₂ : model₂.Coherent)
    (hoids₁ : ((model₁.flatten context₁).value.records.map Record.oid).Nodup)
    (hoids₂ : ((model₂.flatten context₂).value.records.map Record.oid).Nodup)
    (hrebuilt₁ : RebuiltAs types context₁ model₁ rebuilt₁)
    (hrebuilt₂ : RebuiltAs types context₂ model₂ rebuilt₂) :
    rebuilt₁.get? field.name = rebuilt₂.get? field.name := by
  have htype₂ : types.resolve model₂.typeId = .ok model₂.descriptor := by
    rw [hdescriptor, ← htype]
    exact congrArg (fun d => types.resolve d.typeId) hdescriptor
  have h₁ := restoreField_eq_get?_of_rebuild htype hnames hfield hisolated₁ hcoherent₁ hoids₁
    hrebuilt₁
  have h₂ := restoreField_eq_get?_of_rebuild htype₂ (by rwa [hdescriptor])
    (by rwa [hdescriptor]) hisolated₂ hcoherent₂ hoids₂ hrebuilt₂
  rw [hsame.restoreField_eq] at h₁
  exact Except.ok.inj (h₁.symm.trans h₂)

/-! ## A field that has the name of another one's key -/

namespace Note

def note : Descriptor := ⟨"Note", none, [⟨"tags", .list .string, true⟩, ⟨"tags1", .string, true⟩]⟩

def types : TypeTable := TypeTable.empty.insert note

def context : FlattenContext := ⟨⟨"example.org", "notes", "main"⟩, Text.ofNat⟩

def tagged : Model := ⟨note, [("tags", .list [.string "a"])], none⟩

def marked : Model := ⟨note, [("tags1", .string "x")], none⟩

def both : Model := ⟨note, [("tags", .list [.string "a"]), ("tags1", .string "x")], none⟩

/-- What is rebuilt of a note with one tag and a mark: the mark has become a tag. -/
def mixed : Model :=
  ⟨note, [("tags", .list [.string "a", .string "x"]), ("tags1", .string "x")], none⟩

theorem isolated_mark {model : Model} (hseparate : model.Separate "tags1")
    (hmark : model.get? "tags1" = some (.string "x")) :
    Isolated types model ⟨"tags1", .string, true⟩ where
  separate := hseparate
  accepted value hvalue := by
    obtain rfl : Value.string "x" = value := Option.some.inj (hmark.symm.trans hvalue)
    rfl
  sound value hvalue inner hinner := by
    obtain rfl : Value.string "x" = value := Option.some.inj (hmark.symm.trans hvalue)
    simp [occurrencesInValue] at hinner

theorem coherent_of_occurrences_eq {model : Model} (h : occurrences model = [model]) :
    model.Coherent := by
  intro a ha b hb _ _
  rw [h, List.mem_singleton] at ha hb
  rw [ha, hb]

theorem rebuiltAs_tagged : RebuiltAs types context tagged tagged :=
  ⟨_, by with_unfolding_all rfl, by with_unfolding_all rfl⟩

theorem rebuiltAs_marked : RebuiltAs types context marked marked :=
  ⟨_, by with_unfolding_all rfl, by with_unfolding_all rfl⟩

theorem rebuiltAs_both : RebuiltAs types context both mixed :=
  ⟨_, by with_unfolding_all rfl, by with_unfolding_all rfl⟩

/-- A single tag does not reach the key of the mark. -/
theorem get?_rebuild_eq_mark : marked.get? "tags1" = mixed.get? "tags1" :=
  get?_rebuild_eq types context context marked both ⟨"tags1", .string, true⟩ (by decide) rfl
    (by decide) (by decide) rfl (isolated_mark (by decide +kernel) rfl)
    (isolated_mark (by decide +kernel) rfl) (coherent_of_occurrences_eq rfl)
    (coherent_of_occurrences_eq rfl) (by decide +kernel) (by decide +kernel)
    rebuiltAs_marked rebuiltAs_both

end Note

/-! ## Siblings that interfere -/

/-- Two models of a registered type, with different and unreserved names, hold the same in a
field and are rebuilt from their own records, but not with the same in that field. -/
structure Interfere (types : TypeTable) (context : FlattenContext) (a b : Model) (field : Field) :
    Prop where
  registered : types.resolve a.typeId = .ok a.descriptor
  descriptor : b.descriptor = a.descriptor
  names : a.descriptor.fieldNames.Nodup
  unreserved : ∀ name ∈ a.descriptor.fieldNames, name ∉ reservedKeys
  declared : field ∈ a.descriptor.fields
  same : SameIn field.name a b
  differ : ∃ rebuiltA rebuiltB, RebuiltAs types context a rebuiltA ∧
    RebuiltAs types context b rebuiltB ∧
    sameField false field.name rebuiltA.values (rebuiltB.get? field.name) = false

theorem interfere_of_key :
    Interfere Note.types Note.context Note.tagged Note.both ⟨"tags", .list .string, true⟩ where
  registered := by decide
  descriptor := rfl
  names := by decide
  unreserved := by decide
  declared := by decide
  same := rfl
  differ := ⟨_, _, Note.rebuiltAs_tagged, Note.rebuiltAs_both, by decide +kernel⟩

namespace Pair

def person : Descriptor :=
  ⟨"Person", some "name", [⟨"name", .string, true⟩, ⟨"nick", .string, true⟩]⟩

def pair : Descriptor :=
  ⟨"Pair", none, [⟨"left", .model "Person", true⟩, ⟨"right", .model "Person", true⟩]⟩

def types : TypeTable := TypeTable.empty.insertAll [person, pair]

def named (nick : String) : Model :=
  ⟨person, [("name", .string "Ann"), ("nick", .string nick)], none⟩

def alone : Model := ⟨pair, [("left", .model (named "A"))], none⟩

/-- Two persons with the same id. -/
def namesakes : Model := ⟨pair, [("left", .model (named "A")), ("right", .model (named "B"))], none⟩

/-- What is rebuilt of the two persons: the record of the second is found for both. -/
def twins : Model := ⟨pair, [("left", .model (named "B")), ("right", .model (named "B"))], none⟩

end Pair

theorem interfere_of_id :
    Interfere Pair.types Note.context Pair.alone Pair.namesakes ⟨"left", .model "Person", true⟩ where
  registered := by decide
  descriptor := rfl
  names := by decide
  unreserved := by decide
  declared := by decide
  same := rfl
  differ := ⟨Pair.alone, Pair.twins, ⟨_, by with_unfolding_all rfl, by with_unfolding_all rfl⟩,
    ⟨_, by with_unfolding_all rfl, by with_unfolding_all rfl⟩, by decide +kernel⟩

namespace Tree

def leaf : Descriptor := ⟨"Leaf", none, [⟨"size", .integer, true⟩]⟩

def branch : Descriptor :=
  ⟨"Branch", none, [⟨"leaves", .list (.model "Leaf"), true⟩, ⟨"leaves1", .string, true⟩]⟩

def tree : Descriptor :=
  ⟨"Tree", none, [⟨"side", .model "Leaf", true⟩, ⟨"top", .model "Branch", true⟩]⟩

def types : TypeTable := TypeTable.empty.insertAll [leaf, branch, tree]

def small : Model := ⟨leaf, [("size", .integer 1)], none⟩

def top : Value := .model ⟨branch, [("leaves", .list [.model small, .model small])], none⟩

/-- A branch whose text is the id of its second leaf. -/
def withId (id : String) : Value :=
  .model ⟨branch, [("leaves", .list [.model small, .model small]), ("leaves1", .string id)], none⟩

def plain : Model := ⟨tree, [("top", top)], none⟩

def sided : Model := ⟨tree, [("side", .model small), ("top", top)], none⟩

end Tree

theorem interfere_of_nested_key :
    Interfere Tree.types Note.context Tree.plain Tree.sided ⟨"top", .model "Branch", true⟩ where
  registered := by decide
  descriptor := rfl
  names := by decide
  unreserved := by decide
  declared := by decide
  same := rfl
  differ := ⟨⟨Tree.tree, [("top", Tree.withId "example.org/notes/3")], none⟩,
    ⟨Tree.tree, [("side", .model Tree.small), ("top", Tree.withId "example.org/notes/4")], none⟩,
    ⟨_, by with_unfolding_all rfl, by with_unfolding_all rfl⟩,
    ⟨_, by with_unfolding_all rfl, by with_unfolding_all rfl⟩, by decide +kernel⟩

/-- Keys that meet, ids that are given twice and keys that meet inside a field each make siblings
interfere. -/
theorem siblings_interfere :
    Interfere Note.types Note.context Note.tagged Note.both ⟨"tags", .list .string, true⟩ ∧
      Interfere Pair.types Note.context Pair.alone Pair.namesakes
        ⟨"left", .model "Person", true⟩ ∧
      Interfere Tree.types Note.context Tree.plain Tree.sided ⟨"top", .model "Branch", true⟩ :=
  ⟨interfere_of_key, interfere_of_id, interfere_of_nested_key⟩

end Remodel
