import Remodel.Proofs.Table
import Remodel.Proofs.Trace
import Remodel.Types

/-!
# Types and their ids

A type is looked up by its id, and a field of it by its name.  In every table that is made by adding
and removing types, each type stands under its own id (`TypeTable.Keyed`), so that the type that is
found has the id that was asked for.  Where the names of the fields of a type are different, every
field is the one that is found by its name.
-/

namespace Remodel

/-! ## Fields by their names -/

/-- Where keys are given once, an element is found by its key. -/
theorem find?_eq_some_of_nodup {α β : Type} [DecidableEq β] {keyOf : α → β} {elements : List α}
    (hkeys : (elements.map keyOf).Nodup) {element : α} (h : element ∈ elements) :
    elements.find? (fun other => keyOf other = keyOf element) = some element := by
  induction elements with
  | nil => simp at h
  | cons first rest ih =>
      rw [List.map_cons, List.nodup_cons] at hkeys
      rcases List.mem_cons.mp h with rfl | h
      · simp
      · have hne : keyOf first ≠ keyOf element := fun heq =>
          hkeys.1 (heq ▸ List.mem_map_of_mem h)
        rw [List.find?_cons_of_neg (by simpa using hne)]
        exact ih hkeys.2 h

theorem Descriptor.field?_of_mem {descriptor : Descriptor} {field : Field}
    (hnames : descriptor.fieldNames.Nodup) (hfield : field ∈ descriptor.fields) :
    descriptor.field? field.name = some field :=
  find?_eq_some_of_nodup hnames hfield

/-! ## Types by their ids -/

/-- Whether an id is that of a known type. -/
def TypeTable.Knows (types : TypeTable) (typeId : String) : Prop :=
  ∃ descriptor, types.resolve typeId = .ok descriptor ∧ descriptor.typeId = typeId

namespace TypeTable

variable {types : TypeTable}

theorem resolve_eq_ok_iff {typeId : String} {descriptor : Descriptor} :
    types.resolve typeId = .ok descriptor ↔
      ∃ entry, types.entries.lookup typeId = some entry ∧ entry.descriptor = descriptor := by
  unfold resolve
  cases types.entries.lookup typeId <;> simp

/-- An instance that is made of a type is empty. -/
theorem eq_new_of_instantiate {typeId : String} {model : Model}
    (h : types.instantiate typeId = .ok model) : ∃ descriptor, model = Model.new descriptor := by
  obtain ⟨descriptor, -, hblank⟩ := bind_eq_ok h
  refine ⟨descriptor, ?_⟩
  unfold blank at hblank
  split at hblank
  · exact (Except.ok.inj hblank).symm
  · split at hblank
    · exact (Except.ok.inj hblank).symm
    · cases hblank

/-- Whether each type is entered under its own id, as it is in every table that is made from the
empty one by adding and removing types. -/
def Keyed (types : TypeTable) : Prop :=
  ∀ typeId entry, types.entries.lookup typeId = some entry → entry.descriptor.typeId = typeId

theorem keyed_empty : empty.Keyed := nofun

theorem Keyed.put (h : types.Keyed) (entry : TypeEntry) :
    Keyed ⟨Table.insert entry.descriptor.typeId entry types.entries⟩ := by
  intro typeId held hheld
  rw [Table.lookup_insert] at hheld
  split at hheld
  · rename_i hown
    obtain rfl := Option.some.inj hheld
    exact hown.symm
  · exact h typeId held hheld

theorem Keyed.erase (h : types.Keyed) (typeId : String) : (types.erase typeId).Keyed := by
  intro other held hheld
  rw [TypeTable.erase, Table.lookup_erase] at hheld
  split at hheld
  · cases hheld
  · exact h other held hheld

theorem Keyed.insertAll (h : types.Keyed) (descriptors : List Descriptor) :
    (types.insertAll descriptors).Keyed :=
  List.foldlRecOn descriptors insert h fun _ hkeyed descriptor _ => hkeyed.put ⟨descriptor, none⟩

/-- The types that are known are those that are in the table. -/
theorem Keyed.knows_iff (h : types.Keyed) {typeId : String} :
    types.Knows typeId ↔ types.contains typeId = true := by
  unfold Knows resolve contains
  cases hentry : types.entries.lookup typeId with
  | none => simp
  | some entry => simpa using h typeId entry hentry

/-- The type that is found has the id that was asked for. -/
theorem Keyed.typeId_eq (h : types.Keyed) {typeId : String} {descriptor : Descriptor}
    (hresolve : types.resolve typeId = .ok descriptor) : descriptor.typeId = typeId := by
  obtain ⟨entry, hentry, rfl⟩ := resolve_eq_ok_iff.mp hresolve
  exact h typeId entry hentry

end TypeTable

end Remodel
