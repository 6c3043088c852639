import Remodel.Proofs.Trace
import Remodel.Record.Rebuild

/-!
# Gathering the fields of a model

Rebuilding a model starts from an empty one and puts into it what it finds of one field after
another.  Here what is found of a field is left open: a function of the field that may fail,
or find nothing.  What the gathered model holds in a field depends on that field alone.
-/

namespace Remodel

/-- A model with what is given back of a field, and the number of fields that it got. -/
def keepField (rebuilt : Model × Nat) (field : String) : Option Value → Model × Nat
  | none => rebuilt
  | some value => (rebuilt.1.put field value, rebuilt.2 + 1)

/-- Puts what is read of fields into a model, one field after another. -/
def gatherFields (read : Field → Except RebuildFault (Option Value)) (fields : List Field)
    (start : Model × Nat) : Except RebuildFault (Model × Nat) :=
  fields.foldlM (fun rebuilt field => do
    return keepField rebuilt field.name (← read field)) start

/-- The model of a type that gets what is read of its writable fields, if it gets anything. -/
def gatherModel (types : TypeTable) (typeId : String)
    (read : Field → Except RebuildFault (Option Value)) : Except RebuildFault (Option Model) := do
  let descriptor ← (types.resolve typeId).mapError RebuildFault.error
  let blank ← (types.blank descriptor).mapError RebuildFault.error
  let rebuilt ← gatherFields read descriptor.writableFields (blank, 0)
  return if rebuilt.2 = 0 then none else some rebuilt.1

variable {read other : Field → Except RebuildFault (Option Value)} {field : Field}
  {fields : List Field} {start final : Model × Nat} {types : TypeTable} {typeId : String}

theorem gatherFields_cons :
    gatherFields read (field :: fields) start =
      read field >>= fun value => gatherFields read fields (keepField start field.name value) := by
  simp [gatherFields, List.foldlM_cons]

theorem gatherFields_congr (h : ∀ field ∈ fields, read field = other field) :
    gatherFields read fields start = gatherFields other fields start := by
  induction fields generalizing start with
  | nil => rfl
  | cons field rest ih =>
      rw [gatherFields_cons, gatherFields_cons, h field (List.mem_cons_self ..)]
      congr 1
      funext value
      exact ih fun f hf => h f (List.mem_cons_of_mem field hf)

/-- Gathering takes a first field apart from the others. -/
theorem gatherFields_cons_eq_ok (h : gatherFields read (field :: fields) start = .ok final) :
    ∃ value, read field = .ok value ∧
      gatherFields read fields (keepField start field.name value) = .ok final := by
  rw [gatherFields_cons] at h
  exact bind_eq_ok h

theorem descriptor_keepField (rebuilt : Model × Nat) (field : String) (value : Option Value) :
    (keepField rebuilt field value).1.descriptor = rebuilt.1.descriptor := by
  cases value <;> rfl

theorem get?_keepField_self (rebuilt : Model × Nat) (field : String) (value : Option Value) :
    (keepField rebuilt field value).1.get? field = value.or (rebuilt.1.get? field) := by
  cases value <;> simp [keepField]

theorem get?_keepField_of_ne (rebuilt : Model × Nat) {field name : String} (value : Option Value)
    (hne : name ≠ field) :
    (keepField rebuilt field value).1.get? name = rebuilt.1.get? name := by
  cases value with
  | none => rfl
  | some value => exact rebuilt.1.get?_put_of_ne value hne

theorem descriptor_of_gatherFields (h : gatherFields read fields start = .ok final) :
    final.1.descriptor = start.1.descriptor := by
  induction fields generalizing start with
  | nil =>
      obtain rfl : start = final := Except.ok.inj h
      rfl
  | cons field rest ih =>
      obtain ⟨value, -, hrest⟩ := gatherFields_cons_eq_ok h
      rw [ih hrest, descriptor_keepField]

theorem get?_of_gatherFields_of_not_mem (h : gatherFields read fields start = .ok final)
    {name : String} (hname : name ∉ fields.map Field.name) :
    final.1.get? name = start.1.get? name := by
  induction fields generalizing start with
  | nil =>
      obtain rfl : start = final := Except.ok.inj h
      rfl
  | cons field rest ih =>
      rw [List.map_cons, List.mem_cons, not_or] at hname
      obtain ⟨value, -, hrest⟩ := gatherFields_cons_eq_ok h
      rw [ih hrest hname.2, get?_keepField_of_ne _ _ hname.1]

/-- A gathered field holds what was read of it. -/
theorem get?_of_gatherFields (h : gatherFields read fields start = .ok final)
    (hnames : (fields.map Field.name).Nodup) (hfield : field ∈ fields) :
    ∃ value, read field = .ok value ∧
      final.1.get? field.name = value.or (start.1.get? field.name) := by
  induction fields generalizing start with
  | nil => simp at hfield
  | cons first rest ih =>
      rw [List.map_cons, List.nodup_cons] at hnames
      obtain ⟨value, hread, hrest⟩ := gatherFields_cons_eq_ok h
      rcases List.mem_cons.mp hfield with rfl | hfield
      · refine ⟨value, hread, ?_⟩
        rw [get?_of_gatherFields_of_not_mem hrest hnames.1, get?_keepField_self]
      · obtain ⟨found, hfound, hget⟩ := ih hrest hnames.2 hfield
        have hne : field.name ≠ first.name := fun heq =>
          hnames.1 (heq ▸ List.mem_map_of_mem hfield)
        exact ⟨found, hfound, by rw [hget, get?_keepField_of_ne _ _ hne]⟩

theorem le_of_gatherFields (h : gatherFields read fields start = .ok final) :
    start.2 ≤ final.2 := by
  induction fields generalizing start with
  | nil =>
      obtain rfl : start = final := Except.ok.inj h
      exact Nat.le_refl _
  | cons field rest ih =>
      obtain ⟨value, -, hrest⟩ := gatherFields_cons_eq_ok h
      refine Nat.le_trans ?_ (ih hrest)
      cases value <;> simp [keepField]

theorem lt_of_gatherFields (h : gatherFields read fields start = .ok final)
    (hfield : field ∈ fields) {value : Value} (hread : read field = .ok (some value)) :
    start.2 < final.2 := by
  induction fields generalizing start with
  | nil => simp at hfield
  | cons first rest ih =>
      obtain ⟨found, hfound, hrest⟩ := gatherFields_cons_eq_ok h
      rcases List.mem_cons.mp hfield with rfl | hfield
      · obtain rfl : some value = found := Except.ok.inj (hread.symm.trans hfound)
        exact Nat.lt_of_succ_le (le_of_gatherFields hrest)
      · refine Nat.lt_of_le_of_lt ?_ (ih hrest hfield)
        cases found <;> simp [keepField]

theorem exists_gatherFields (h : ∀ field ∈ fields, ∃ value, read field = .ok value)
    (start : Model × Nat) : ∃ final, gatherFields read fields start = .ok final := by
  induction fields generalizing start with
  | nil => exact ⟨start, rfl⟩
  | cons field rest ih =>
      obtain ⟨value, hread⟩ := h field (List.mem_cons_self ..)
      rw [gatherFields_cons, hread]
      exact ih (fun f hf => h f (List.mem_cons_of_mem field hf)) _

theorem blank_eq_new {descriptor : Descriptor} {blank : Model}
    (h : types.blank descriptor = .ok blank) : blank = Model.new descriptor := by
  unfold TypeTable.blank at h
  split at h
  · exact (Except.ok.inj h).symm
  · split at h
    · exact (Except.ok.inj h).symm
    · simp at h

theorem gatherModel_congr (h : ∀ descriptor, types.resolve typeId = .ok descriptor →
    ∀ field ∈ descriptor.writableFields, read field = other field) :
    gatherModel types typeId read = gatherModel types typeId other := by
  unfold gatherModel
  cases hresolve : types.resolve typeId with
  | error fault => rfl
  | ok descriptor =>
      simp only [mapError_ok, ok_bind, gatherFields_congr (h descriptor hresolve)]

/-- A model that was gathered is of the type that was asked for, and each of its writable
fields holds what was read of it. -/
theorem of_gatherModel {model : Model} (h : gatherModel types typeId read = .ok (some model)) :
    ∃ descriptor, types.resolve typeId = .ok descriptor ∧ model.descriptor = descriptor ∧
      ∃ assigned, gatherFields read descriptor.writableFields (Model.new descriptor, 0) =
        .ok (model, assigned) := by
  obtain ⟨descriptor, hresolve, h⟩ := bind_eq_ok h
  obtain ⟨blank, hblank, h⟩ := bind_eq_ok h
  obtain ⟨⟨rebuilt, assigned⟩, hgather, h⟩ := bind_eq_ok h
  rw [blank_eq_new (mapError_eq_ok hblank)] at hgather
  split at h
  · simp at h
  · obtain rfl : rebuilt = model := by simpa using h
    exact ⟨descriptor, mapError_eq_ok hresolve, descriptor_of_gatherFields hgather, assigned,
      hgather⟩

/-- A field of a gathered model holds what was read of it. -/
theorem get?_of_gatherModel {descriptor : Descriptor} {model : Model}
    (h : gatherModel types typeId read = .ok (some model))
    (hresolve : types.resolve typeId = .ok descriptor) (hnames : descriptor.fieldNames.Nodup)
    (hfield : field ∈ descriptor.writableFields) :
    read field = .ok (model.get? field.name) := by
  obtain ⟨found, hfound, -, assigned, hgather⟩ := of_gatherModel h
  obtain rfl : descriptor = found := Except.ok.inj (hresolve.symm.trans hfound)
  have hwritable : (descriptor.writableFields.map Field.name).Nodup :=
    hnames.sublist (List.filter_sublist.map Field.name)
  obtain ⟨value, hread, hget⟩ := get?_of_gatherFields hgather hwritable hfield
  rw [hread, hget]
  simp [Model.new]

/-- A field that is not writable is not set in a gathered model. -/
theorem get?_of_gatherModel_of_not_mem {descriptor : Descriptor} {model : Model} {name : String}
    (h : gatherModel types typeId read = .ok (some model))
    (hresolve : types.resolve typeId = .ok descriptor)
    (hname : name ∉ descriptor.writableFields.map Field.name) : model.get? name = none := by
  obtain ⟨found, hfound, -, assigned, hgather⟩ := of_gatherModel h
  obtain rfl : descriptor = found := Except.ok.inj (hresolve.symm.trans hfound)
  exact get?_of_gatherFields_of_not_mem hgather hname

/-- A model is gathered where every field can be read and one holds something. -/
theorem exists_gatherModel {descriptor : Descriptor} {value : Value}
    (hresolve : types.resolve typeId = .ok descriptor)
    (hblank : types.blank descriptor = .ok (Model.new descriptor))
    (hread : ∀ field ∈ descriptor.writableFields, ∃ value, read field = .ok value)
    (hfield : field ∈ descriptor.writableFields) (hset : read field = .ok (some value)) :
    ∃ model, gatherModel types typeId read = .ok (some model) := by
  obtain ⟨final, hfinal⟩ := exists_gatherFields hread (Model.new descriptor, 0)
  have hpos := lt_of_gatherFields hfinal hfield hset
  refine ⟨final.1, ?_⟩
  have hne : final.2 ≠ 0 := by omega
  simp [gatherModel, hresolve, hblank, hfinal, hne]

end Remodel
