import Remodel.Proofs.Markup.Grammar
import Remodel.Proofs.Types
import Remodel.Text.Blank
import Remodel.Transform.Description

/-!
# Definitions as they are written

The documents that write a list of descriptions (`WritesDefinition`), and the descriptions that a
document can write (`Description.Expressible`).  Texts may be escaped and elements spaced in any
way, the fields and the parameters of a step may stand in a group of their own or directly in it,
and the parameters come in any order.

`write` is one way of writing, which every list of expressible descriptions has
(`writesDefinition_write`).
-/

namespace Remodel

/-! ## What can be written -/

/-- A step with a target, with a source if its operation reads one, and with parameters by name; the
names of its fields have no blanks at their ends. -/
structure Step.Expressible (step : Step) : Prop where
  target : ∃ target ∈ step.target, target ≠ "" ∧ Text.trim target = target
  sources : ∀ source ∈ step.sources, Text.trim source = source
  needed : step.operation.readsSource = true → step.sources ≠ []
  params : Table.Ascending step.params

instance : DecidablePred Step.Expressible := fun step =>
  decidable_of_iff
    ((∃ target ∈ step.target, target ≠ "" ∧ Text.trim target = target) ∧
      (∀ source ∈ step.sources, Text.trim source = source) ∧
      (step.operation.readsSource = true → step.sources ≠ []) ∧
      (step.params.map Prod.fst).Pairwise (· < ·))
    ⟨fun ⟨h₁, h₂, h₃, h₄⟩ => ⟨h₁, h₂, h₃, h₄⟩, fun ⟨h₁, h₂, h₃, h₄⟩ => ⟨h₁, h₂, h₃, h₄⟩⟩

/-- A description of known types without a file, whose steps can be written. -/
structure Description.Expressible (types : TypeTable) (description : Description) : Prop where
  source : types.Knows description.source
  target : types.Knows description.target
  fileName : description.fileName = none
  steps : ∀ step ∈ description.steps, step.Expressible

namespace Definition

open Markup

/-! ## The documents -/

/-- Ways of writing the name of a field in an element. -/
def WritesField (element field : String) : List Char → Prop :=
  WritesElement element [] fun content => Escaped content field.toList

/-- Ways of writing a parameter. -/
def WritesParam (param : String × String) : List Char → Prop :=
  WritesElement "param" [("key", param.1), ("value", param.2)] Blank

/-- Whether the parts are the items themselves or a group of them. -/
def Grouped (group : String) (items parts : List (List Char → Prop)) : Prop :=
  parts = items ∨ parts = [WritesElement group [] (Spaced items)]

/-- Ways of writing a step. -/
def WritesStep (step : Step) : List Char → Prop :=
  WritesElement step.operation.name [] fun content =>
    ∃ (target : String) (params : List (String × String))
      (sources listed : List (List Char → Prop)),
      step.target = some target ∧ params.Perm step.params ∧
      Grouped "source-fields" (step.sources.map (WritesField "source-field")) sources ∧
      Grouped "params" (params.map WritesParam) listed ∧
      Spaced (sources ++ WritesField "target-field" target :: listed) content

/-- The attributes of a description. -/
def attributesOf (description : Description) : List (String × String) :=
  ("source", description.source) :: ("target", description.target) ::
    (description.id.map ("id", ·)).toList

/-- Ways of writing a description. -/
def WritesDescription (description : Description) : List Char → Prop :=
  WritesElement "transformation" (attributesOf description)
    (Spaced (description.steps.map WritesStep))

/-- Ways of writing descriptions as a document. -/
def WritesDefinition (descriptions : List Description) (text : List Char) : Prop :=
  ∃ front body, text = front ++ body ∧ (front = [] ∨ IsDeclaration front) ∧
    Spaced [WritesElement "transformations" [] (Spaced (descriptions.map WritesDescription))] body

/-! ## One way of writing -/

/-- The name of a field in an element. -/
def writeField (element field : String) : List Char :=
  writeElement element [] (escape field.toList)

/-- The sources of a step in a group, then its target, then its parameters in a group. -/
def writeStep (step : Step) : List Char :=
  writeElement step.operation.name [] <| writeLines
    [writeElement "source-fields" [] (writeLines (step.sources.map (writeField "source-field"))),
      writeField "target-field" (step.target.getD ""),
      writeElement "params" [] (writeLines (step.params.map fun param =>
        writeElement "param" [("key", param.1), ("value", param.2)] []))]

/-- A description with its steps on lines of their own. -/
def writeDescription (description : Description) : List Char :=
  writeElement "transformation" (attributesOf description)
    (writeLines (description.steps.map writeStep))

/-- The document of descriptions. -/
def write (descriptions : List Description) : String :=
  String.ofList <| writeLines
    [writeElement "transformations" [] (writeLines (descriptions.map writeDescription))]

theorem writesField_write (element field : String) :
    WritesField element field (writeField element field) :=
  writesElement_write (by simp) (escaped_escape _)

theorem spaced_writeLines_map {α : Type} {items : List α} {Item : α → List Char → Prop}
    {writeItem : α → List Char}
    (h : ∀ item ∈ items, Item item (writeItem item) ∧ (writeItem item).head? = some '<') :
    Spaced (items.map Item) (writeLines (items.map writeItem)) := by
  refine spaced_writeLines ?_
  rw [List.forall₂_map_left_iff, List.forall₂_map_right_iff, List.forall₂_same]
  exact h

theorem writesStep_write {step : Step} (h : step.Expressible) :
    WritesStep step (writeStep step) := by
  obtain ⟨target, htarget, -, -⟩ := h.target
  have hsources : Spaced (step.sources.map (WritesField "source-field"))
      (writeLines (step.sources.map (writeField "source-field"))) :=
    spaced_writeLines_map fun source _ => ⟨writesField_write _ source, rfl⟩
  have hattributes : ∀ param : String × String,
      ∀ entry ∈ [("key", param.1), ("value", param.2)], IsName entry.1 := by
    intro param
    simp only [List.mem_cons, List.not_mem_nil, or_false, forall_eq_or_imp, forall_eq]
    decide
  have hparams : Spaced (step.params.map WritesParam) (writeLines (step.params.map fun param =>
      writeElement "param" [("key", param.1), ("value", param.2)] [])) :=
    spaced_writeLines_map fun param _ =>
      ⟨writesElement_write (hattributes param) (by simp [Blank]), rfl⟩
  refine writesElement_write (by simp)
    ⟨target, step.params, _, _, htarget, List.Perm.refl _, Or.inr rfl, Or.inr rfl, ?_⟩
  rw [htarget, Option.getD_some]
  exact spaced_writeLines <|
    .cons ⟨writesElement_write (by simp) hsources, rfl⟩ <|
    .cons ⟨writesField_write _ target, rfl⟩ <|
    .cons ⟨writesElement_write (by simp) hparams, rfl⟩ .nil

theorem isName_of_mem_attributesOf {description : Description} {entry : String × String}
    (hentry : entry ∈ attributesOf description) : IsName entry.1 := by
  have hnames : IsName "source" ∧ IsName "target" ∧ IsName "id" := by decide
  simp only [attributesOf, List.mem_cons, Option.mem_toList, Option.map_eq_some_iff] at hentry
  rcases hentry with rfl | rfl | ⟨id, -, rfl⟩
  · exact hnames.1
  · exact hnames.2.1
  · exact hnames.2.2

/-- Expressible descriptions can be written. -/
theorem writesDefinition_write {types : TypeTable} {descriptions : List Description}
    (h : ∀ description ∈ descriptions, description.Expressible types) :
    WritesDefinition descriptions (write descriptions).toList := by
  have hdescription : ∀ description ∈ descriptions,
      WritesDescription description (writeDescription description) := by
    intro description hmem
    refine writesElement_write (fun _ => isName_of_mem_attributesOf) (spaced_writeLines_map ?_)
    exact fun step hstep => ⟨writesStep_write ((h description hmem).steps step hstep), rfl⟩
  have hdescriptions : Spaced (descriptions.map WritesDescription)
      (writeLines (descriptions.map writeDescription)) :=
    spaced_writeLines_map fun description hmem => ⟨hdescription description hmem, rfl⟩
  refine ⟨[], _, (List.nil_append _).symm, Or.inl rfl, ?_⟩
  rw [write, String.toList_ofList]
  exact spaced_writeLines (.cons ⟨writesElement_write (by simp) hdescriptions, rfl⟩ .nil)

example : write [⟨"A", "B", none, none, [⟨.value, [], some "x", [("value", "<1>")]⟩]⟩] =
    "\n<transformations>\n<transformation source=\"A\" target=\"B\">\n" ++
      "<value>\n<source-fields>\n</source-fields>\n<target-field>x</target-field>\n" ++
      "<params>\n<param key=\"value\" value=\"&lt;1&gt;\"></param>\n</params>\n</value>\n" ++
      "</transformation>\n</transformations>\n" := by
  decide +kernel

end Definition

end Remodel
