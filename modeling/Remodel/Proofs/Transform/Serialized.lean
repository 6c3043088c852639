import Remodel.Proofs.Json.Reading
import Remodel.Proofs.Model.Serialized
import Remodel.Proofs.Table
import Remodel.Transform.DescriptionJson

/-!
# Descriptors and descriptions are read back from their JSON

A description is read back from its JSON as it is (`Description.parse_eq`).  What is not set is left
out of the JSON, and so it is left unset when the JSON is read.  Steps have no parts that nest
further, so a description never nests too deep.  A descriptor may, by the kinds of its fields, and
then its text is refused (`parse_serialized`).
-/

namespace Remodel

open Draft Json

theorem Operation.named?_name (operation : Operation) :
    Operation.named? operation.name = some operation := by
  cases operation <;> decide +kernel

theorem Operation.read_name (operation : Operation) :
    Operation.read (.string (some operation.name)) = .ok operation := by
  rw [Operation.read, readText, ok_bind, named?_name, required]
  all_goals simp

theorem readText_draft (text : String) : readText (Json.string text).draft = .ok text := by
  rw [draft, readText]

namespace Step

theorem legible_toJson (step : Step) : step.toJson.Legible := by
  have hsources : (Json.array (step.sources.map Json.string)).Legible :=
    .array (List.forall_mem_map.mpr fun source _ => .string source)
  have hparams : (Json.object (step.params.map fun entry => (entry.1, .string entry.2))).Legible :=
    .object (List.forall_mem_map.mpr fun entry _ => .string entry.2)
  refine .object ?_
  cases step.target with
  | none => simpa using ⟨Legible.string _, hsources, hparams⟩
  | some name => simpa using ⟨Legible.string _, hsources, Legible.string name, hparams⟩

theorem read_draft {step : Step} (hparams : Table.Ascending step.params) :
    Step.read step.toJson.draft = .ok step := by
  obtain ⟨operation, sources, target, params⟩ := step
  have htable : Table.ofList params = params := hparams.ofList_eq (List.Perm.refl _)
  have hsources := readEach_map fun source (_ : source ∈ sources) => readText_draft source
  have hentries := readEachMember_map fun entry (_ : entry ∈ params) => readText_draft entry.2
  simp only [draft] at hsources hentries
  rw [toJson, draft, Step.read]
  cases target <;>
    simp [readFields, readKnown, readText, readOptionalText, readList, readTable, draft,
      operation.read_name, hsources, hentries, htable, required, Function.comp_def, Except.map]

end Step

namespace Description

theorem legible_toJson (description : Description) : description.toJson.Legible := by
  have hsteps : (Json.array (description.steps.map Step.toJson)).Legible :=
    .array (List.forall_mem_map.mpr fun step _ => step.legible_toJson)
  refine .object ?_
  cases description.id <;> cases description.fileName <;> simp [hsteps, Legible.string]

theorem read_draft {description : Description}
    (hparams : ∀ step ∈ description.steps, Table.Ascending step.params) :
    Description.read description.toJson.draft = .ok description := by
  have hsteps := readEach_map fun step hstep => Step.read_draft (hparams step hstep)
  obtain ⟨source, target, id, fileName, steps⟩ := description
  rw [toJson, draft, Description.read]
  cases id <;> cases fileName <;>
    simp [readFields, readKnown, readText, readOptionalText, readList, draft, hsteps, required,
      Function.comp_def, Except.map]

theorem parse_eq {description : Description}
    (hparams : ∀ step ∈ description.steps, Table.Ascending step.params) :
    Description.parse description.toJson.compact = .ok description ∧
      Description.parse description.toJson.pretty = .ok description := by
  have hread := read_draft hparams
  rw [Description.parse, Description.parse, description.legible_toJson.readText?_compact,
    description.legible_toJson.readText?_pretty]
  exact ⟨hread, hread⟩

end Description

/-- **Descriptors and descriptions are read back from their JSON**, on one line and over several
lines.  A descriptor is read back, whatever the kinds of its fields are, if its JSON nests no deeper
than the reader allows; otherwise the text is taken for malformed.  A description, whose steps list
their parameters by ascending name, is always read back. -/
theorem parse_serialized (descriptor : Descriptor) (description : Description)
    (hparams : ∀ step ∈ description.steps, Table.Ascending step.params) :
    (Descriptor.parse descriptor.toJson.compact =
        (if descriptor.toJson.levels ≤ maxDepth then .ok descriptor else .error .malformed) ∧
      Descriptor.parse descriptor.toJson.pretty =
        if descriptor.toJson.levels ≤ maxDepth then .ok descriptor else .error .malformed) ∧
    Description.parse description.toJson.compact = .ok description ∧
      Description.parse description.toJson.pretty = .ok description :=
  ⟨descriptor.parse_eq, Description.parse_eq hparams⟩

namespace Nested

/-- Lists of lists of texts. -/
def lists (depth : Nat) : Kind := Nat.repeat Kind.list depth .string

/-- A descriptor with kinds of every shape, one of which nests as deep as is allowed. -/
def shop : Descriptor :=
  ⟨"Shop", some "name", [⟨"name", .string, true⟩, ⟨"state", .enum ["open", "", "kind"], false⟩,
    ⟨"owner", .model "Person", true⟩, ⟨"logo", .file, false⟩,
    ⟨"stock", .map .integer (.list (.map (.enum []) (.list (.model "Item")))), true⟩,
    ⟨"shelves", lists 123, true⟩]⟩

/-- A description with and without what may be left out. -/
def opening : Description :=
  ⟨"Shop", "Person", some "r\"1\"", none,
    [⟨.splitRegex, ["name"], some "temp.words", [("limit", "2"), ("regex", "\n")]⟩,
      ⟨.removeLeading, [], none, []⟩]⟩

theorem parse_serialized_shop :
    (Descriptor.parse shop.toJson.compact = .ok shop ∧
      Descriptor.parse shop.toJson.pretty = .ok shop) ∧
    Description.parse opening.toJson.compact = .ok opening ∧
      Description.parse opening.toJson.pretty = .ok opening := by
  have hlevels : shop.toJson.levels ≤ maxDepth := by decide +kernel
  have h := parse_serialized shop opening (by unfold Table.Ascending; decide +kernel)
  rwa [if_pos hlevels] at h

/-- A descriptor with one level more than is allowed. -/
def tower : Descriptor := ⟨"Tower", none, [⟨"floors", lists 124, true⟩]⟩

theorem parse_tower :
    Descriptor.parse tower.toJson.compact = .error .malformed ∧
      Descriptor.parse tower.toJson.compact ≠ .ok tower := by
  have hlevels : ¬ tower.toJson.levels ≤ maxDepth := by decide +kernel
  have hparse : Descriptor.parse tower.toJson.compact = .error .malformed := by
    rw [tower.parse_eq.1, within, if_neg hlevels]
  exact ⟨hparse, by simp [hparse]⟩

end Nested

end Remodel
