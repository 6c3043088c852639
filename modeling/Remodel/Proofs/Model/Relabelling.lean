import Mathlib.Data.List.Basic
import Remodel.Proofs.Model.Coercing
import Remodel.Proofs.Model.Fitting
import Remodel.Proofs.Trace

/-!
# Relabelling values

A label tells which instance a model is, and nothing else.  `relabel` changes all labels in a
value: with `id` it changes nothing, and with a constant it forgets which instances are the same.
Two models are alike in a field (`AlikeIn`) if they hold the same in it after a relabelling, and
the same (`SameIn`) if it may forget everything.

What a value shows, which kinds accept it and what it is coerced to are the same for a relabelled
value.
-/

namespace Remodel

mutual

/-- A value whose models have other labels. -/
def relabel (labels : Option Nat → Option Nat) : Value → Value
  | .model m => .model (relabelModel labels m)
  | .list items => .list (relabelItems labels items)
  | .map entries => .map (relabelEntries labels entries)
  | value => value
termination_by structural value => value

/-- A model that, like all models in it, has another label. -/
def relabelModel (labels : Option Nat → Option Nat) : Instance Value → Instance Value
  | ⟨descriptor, values, label⟩ => ⟨descriptor, relabelValues labels values, labels label⟩
termination_by structural model => model

/-- The values of fields with other labels. -/
def relabelValues (labels : Option Nat → Option Nat) :
    List (String × Value) → List (String × Value)
  | [] => []
  | (name, value) :: rest => (name, relabel labels value) :: relabelValues labels rest
termination_by structural values => values

/-- The elements of a list with other labels. -/
def relabelItems (labels : Option Nat → Option Nat) : List Value → List Value
  | [] => []
  | item :: rest => relabel labels item :: relabelItems labels rest
termination_by structural items => items

/-- The entries of a map with other labels. -/
def relabelEntries (labels : Option Nat → Option Nat) :
    List (Value × Value) → List (Value × Value)
  | [] => []
  | (key, value) :: rest =>
    (relabel labels key, relabel labels value) :: relabelEntries labels rest
termination_by structural entries => entries

end

/-- Two models hold the same in a field after a relabelling, or both nothing. -/
def AlikeIn (labels : Option Nat → Option Nat) (field : String) (a b : Model) : Prop :=
  (a.get? field).map (relabel labels) = (b.get? field).map (relabel labels)

/-- Two models hold the same in a field, or both nothing, labels aside. -/
def SameIn (field : String) (a b : Model) : Prop := AlikeIn (fun _ => none) field a b

/-! ## Changing no label -/

mutual

theorem relabel_id : ∀ value : Value, relabel id value = value
  | .model m => by rw [relabel, relabelModel_id m]
  | .list items => by rw [relabel, relabelItems_id items]
  | .map entries => by rw [relabel, relabelEntries_id entries]
  | .string _ => rfl
  | .integer _ => rfl
  | .float _ => rfl
  | .boolean _ => rfl
  | .bytes _ => rfl
  | .enum _ => rfl
  | .file _ => rfl
termination_by structural value => value

theorem relabelModel_id : ∀ model : Instance Value, relabelModel id model = model
  | ⟨descriptor, values, label⟩ => by rw [relabelModel, relabelValues_id values, id_eq]
termination_by structural model => model

theorem relabelValues_id : ∀ values : List (String × Value), relabelValues id values = values
  | [] => rfl
  | (name, value) :: rest => by rw [relabelValues, relabel_id value, relabelValues_id rest]
termination_by structural values => values

theorem relabelItems_id : ∀ items : List Value, relabelItems id items = items
  | [] => rfl
  | item :: rest => by rw [relabelItems, relabel_id item, relabelItems_id rest]
termination_by structural items => items

theorem relabelEntries_id : ∀ entries : List (Value × Value), relabelEntries id entries = entries
  | [] => rfl
  | (k, v) :: rest => by
    rw [relabelEntries, relabel_id k, relabel_id v, relabelEntries_id rest]
termination_by structural entries => entries

end

/-- Without a change of labels, alike is equal. -/
theorem alikeIn_id_iff {field : String} {a b : Model} :
    AlikeIn id field a b ↔ a.get? field = b.get? field := by
  have hid : relabel id = id := funext relabel_id
  rw [AlikeIn, hid, Option.map_id, id_eq, id_eq]

/-! ## What does not depend on labels -/

variable (labels : Option Nat → Option Nat)

theorem relabelItems_eq (items : List Value) :
    relabelItems labels items = items.map (relabel labels) := by
  induction items with
  | nil => rfl
  | cons item rest ih => rw [relabelItems, ih, List.map_cons]

theorem relabelEntries_eq (entries : List (Value × Value)) : relabelEntries labels entries =
    entries.map fun entry => (relabel labels entry.1, relabel labels entry.2) := by
  induction entries with
  | nil => rfl
  | cons entry rest ih =>
      obtain ⟨k, v⟩ := entry
      rw [relabelEntries, ih, List.map_cons]

@[simp] theorem isCollection_relabel (value : Value) :
    (relabel labels value).isCollection = value.isCollection := by
  cases value <;> rfl

@[simp] theorem kindText_relabel (value : Value) :
    (relabel labels value).kindText = value.kindText := by
  cases value <;> rfl

@[simp] theorem measure?_relabel (value : Value) (function : String) :
    (relabel labels value).measure? function = value.measure? function := by
  cases value with
  | list items => simp [relabel, relabelItems_eq, Value.measure?]
  | map entries => simp [relabel, relabelEntries_eq, Value.measure?]
  | _ => rfl

@[simp] theorem typeId_relabelModel (model : Model) :
    (relabelModel labels model).typeId = model.typeId := by
  cases model
  rfl

mutual

/-- The text of a value does not show labels. -/
theorem display_relabel : ∀ value : Value, (relabel labels value).display = value.display
  | .model m => by rw [relabel, Value.display, Value.display, displayModel_relabelModel m]
  | .list items => by
    rw [relabel, Value.display, Value.display, displayItems_relabelItems items]
  | .map entries => by
    rw [relabel, Value.display, Value.display, displayEntries_relabelEntries entries]
  | .string _ => rfl
  | .integer _ => rfl
  | .float _ => rfl
  | .boolean _ => rfl
  | .bytes _ => rfl
  | .enum _ => rfl
  | .file _ => rfl
termination_by structural value => value

theorem displayModel_relabelModel : ∀ model : Instance Value,
    Value.displayModel (relabelModel labels model) = Value.displayModel model
  | ⟨descriptor, values, label⟩ => by
    rw [relabelModel, Value.displayModel, Value.displayModel,
      funext (displayField_relabelValues values)]
termination_by structural model => model

theorem displayField_relabelValues : ∀ (values : List (String × Value)) (field : String),
    Value.displayField (relabelValues labels values) field = Value.displayField values field
  | [], _ => rfl
  | (name, value) :: rest, field => by
    rw [relabelValues, Value.displayField, Value.displayField, display_relabel value,
      displayField_relabelValues rest field]
termination_by structural values => values

theorem displayItems_relabelItems : ∀ items : List Value,
    Value.displayItems (relabelItems labels items) = Value.displayItems items
  | [] => rfl
  | item :: rest => by
    rw [relabelItems, Value.displayItems, Value.displayItems, display_relabel item,
      displayItems_relabelItems rest]
termination_by structural items => items

theorem displayEntries_relabelEntries : ∀ entries : List (Value × Value),
    Value.displayEntries (relabelEntries labels entries) = Value.displayEntries entries
  | [] => rfl
  | (k, v) :: rest => by
    rw [relabelEntries, Value.displayEntries, Value.displayEntries, display_relabel k,
      display_relabel v, displayEntries_relabelEntries rest]
termination_by structural entries => entries

end

/-- What does not depend on labels is the same for values that are alike. -/
theorem eq_of_relabel_eq {labels : Option Nat → Option Nat} {α : Type} {f : Value → α}
    (hf : ∀ value, f (relabel labels value) = f value) {v w : Value}
    (h : relabel labels v = relabel labels w) : f v = f w := by
  rw [← hf v, h, hf w]

/-! ## Kinds -/

theorem coercionFault_relabel (value : Value) (kind : Kind) :
    CoercionFault.of (relabel labels value) kind = CoercionFault.of value kind := by
  rw [CoercionFault.of, display_relabel, kindText_relabel, CoercionFault.of]

/-- A kind accepts a value whatever its labels. -/
theorem accepts_relabel (kind : Kind) (value : Value) :
    kind.accepts (relabel labels value) = kind.accepts value := by
  induction kind generalizing value with
  | list item ih =>
      cases value with
      | list items =>
          simp only [relabel, relabelItems_eq, Kind.accepts, List.all_map, Function.comp_def, ih]
      | _ => rfl
  | map key value' ihKey ihValue =>
      cases value with
      | map entries =>
          simp only [relabel, relabelEntries_eq, Kind.accepts, List.all_map, Function.comp_def,
            ihKey, ihValue]
      | _ => rfl
  | model typeId =>
      cases value with
      | model m => simp only [relabel, Kind.accepts, typeId_relabelModel]
      | _ => rfl
  | _ => cases value <;> rfl

theorem mapM_map_comm {α β ε : Type} {f : α → Except ε β} {g : α → α} {g' : β → β}
    (h : ∀ a, f (g a) = g' <$> f a) (items : List α) :
    (items.map g).mapM f = List.map g' <$> items.mapM f := by
  induction items with
  | nil => rfl
  | cons item rest ih =>
      rw [List.map_cons, List.mapM_cons, List.mapM_cons, h, ih]
      cases f item with
      | error fault => rfl
      | ok b => cases rest.mapM f <;> rfl

theorem relabel_of_plain {value : Value} (hmodel : value.model? = none)
    (hplain : value.isCollection = false) : relabel labels value = value := by
  cases value with
  | model m => cases hmodel
  | list items => cases hplain
  | map entries => cases hplain
  | _ => rfl

/-- What a scalar is coerced to has no labels. -/
theorem relabel_coerce_of_plain (kind : Kind) {value : Value}
    (hmodel : value.model? = none) (hplain : value.isCollection = false) :
    relabel labels <$> kind.coerce value = kind.coerce value := by
  cases h : kind.coerce value with
  | error fault => rfl
  | ok result =>
      obtain ⟨hmodel, hplain⟩ := Kind.plain_of_coerce hmodel hplain h
      rw [map_ok, relabel_of_plain labels hmodel hplain]

/-- A value that is left as it is, or refused, is treated the same whatever its labels. -/
theorem coerce_relabel_of_kept {kind : Kind} {value : Value}
    (hkept : ∀ labels, kind.coerce (relabel labels value) =
      if kind.accepts (relabel labels value) then .ok (relabel labels value)
      else .error (CoercionFault.of (relabel labels value) kind)) :
    kind.coerce (relabel labels value) = relabel labels <$> kind.coerce value := by
  have hvalue := hkept id
  rw [relabel_id] at hvalue
  rw [hkept labels, hvalue, accepts_relabel, coercionFault_relabel]
  cases kind.accepts value <;> rfl

/-- Takes the key and the value of an entry to kinds. -/
def coerceEntry (key value : Kind) (entry : Value × Value) :
    Except CoercionFault (Value × Value) := do
  return (← key.coerce entry.1, ← value.coerce entry.2)

/-- Coercing a relabelled value relabels what comes of it. -/
theorem coerce_relabel (kind : Kind) (value : Value) :
    kind.coerce (relabel labels value) = relabel labels <$> kind.coerce value := by
  induction kind generalizing value with
  | list item ih =>
      cases value with
      | list items =>
          rw [relabel, relabelItems_eq, Kind.coerce_list, Kind.coerce_list, mapM_map_comm ih]
          cases items.mapM item.coerce with
          | error fault => rfl
          | ok coerced => simp [relabel, relabelItems_eq]
      | _ => exact coerce_relabel_of_kept labels fun _ => rfl
  | map key value' ihKey ihValue =>
      cases value with
      | map entries =>
          have hentry : ∀ entry : Value × Value,
              coerceEntry key value' (relabel labels entry.1, relabel labels entry.2) =
                (fun entry => (relabel labels entry.1, relabel labels entry.2)) <$>
                  coerceEntry key value' entry := fun entry => by
            simp only [coerceEntry, ihKey, ihValue]
            cases key.coerce entry.1 with
            | error fault => rfl
            | ok k => cases value'.coerce entry.2 <;> rfl
          -- the kinds of key and value are taken together, as one function of the entry
          have hentries : ∀ entries, (Kind.map key value').coerce (.map entries) =
              Value.map <$> entries.mapM (coerceEntry key value') := fun entries => by
            rw [map_eq_pure_bind]
            rfl
          rw [relabel, relabelEntries_eq, hentries, hentries, mapM_map_comm hentry]
          cases entries.mapM (coerceEntry key value') with
          | error fault => rfl
          | ok coerced => simp [relabel, relabelEntries_eq]
      | _ => exact coerce_relabel_of_kept labels fun _ => rfl
  | _ =>
      cases value with
      | model m => exact coerce_relabel_of_kept labels fun _ => rfl
      | list items => exact coerce_relabel_of_kept labels fun _ => rfl
      | map entries => exact coerce_relabel_of_kept labels fun _ => rfl
      | _ => exact (relabel_coerce_of_plain labels _ rfl rfl).symm

/-- What is written for a relabelled value is what is written for the value, relabelled. -/
theorem fit?_relabel (descriptor : Descriptor) (field : String) (value : Value) :
    descriptor.fit? field (relabel labels value) =
      (descriptor.fit? field value).map (relabel labels) := by
  unfold Descriptor.fit?
  cases descriptor.field? field with
  | none => rfl
  | some declared =>
      simp only [Option.bind_some, Kind.fit?, coerce_relabel]
      cases declared.writable with
      | false => rfl
      | true =>
          cases declared.kind.coerce value with
          | error fault => rfl
          | ok coerced =>
              simp only [map_ok, accepts_relabel]
              cases declared.kind.accepts coerced <;> rfl

/-! ## Writing alike values -/

variable {labels}

/-- Tables stay alike in every place when alike values are written into the same one. -/
theorem lookup_insert_alike {a b : List (String × Value)} {name : String}
    (h : (a.lookup name).map (relabel labels) = (b.lookup name).map (relabel labels))
    {v w : Value} (hvw : relabel labels v = relabel labels w) (key : String) :
    ((Table.insert key v a).lookup name).map (relabel labels) =
      ((Table.insert key w b).lookup name).map (relabel labels) := by
  rw [Table.lookup_insert, Table.lookup_insert]
  split
  · exact congrArg some hvw
  · exact h

theorem AlikeIn.put {field : String} {a b : Model} (h : AlikeIn labels field a b) {v w : Value}
    (hvw : relabel labels v = relabel labels w) (other : String) :
    AlikeIn labels field (a.put other v) (b.put other w) :=
  lookup_insert_alike h hvw other

end Remodel
