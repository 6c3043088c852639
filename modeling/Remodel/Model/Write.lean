import Remodel.Error

/-!
# Writing fields

A field may be written when it is declared and writable and its kind accepts the
value.
-/

namespace Remodel

/-- Checks a write against the declared field: the field is there, it may be written,
and its kind accepts the value. -/
def Descriptor.checkAssignment (descriptor : Descriptor) (field : String) (value : Value) :
    Except FieldFault Unit :=
  match descriptor.field? field with
  | none => .error (.noSuchField descriptor.typeId field)
  | some declared =>
    if !declared.writable then .error (.notWritable field)
    else if !declared.kind.accepts value then
      .error (.typeMismatch field declared.kind value.kindText)
    else .ok ()

/-- Writes a field. -/
def Model.set (model : Model) (field : String) (value : Value) : Except FieldFault Model :=
  match model.descriptor.checkAssignment field value with
  | .ok () => .ok (model.put field value)
  | .error fault => .error fault

theorem Descriptor.checkAssignment_eq_ok_iff {descriptor : Descriptor} {field : String}
    {value : Value} :
    descriptor.checkAssignment field value = .ok () ↔
      ∃ declared, descriptor.field? field = some declared ∧ declared.writable = true ∧
        declared.kind.accepts value = true := by
  unfold checkAssignment
  cases hfield : descriptor.field? field with
  | none => simp
  | some declared =>
    cases hwritable : declared.writable <;> cases haccepts : declared.kind.accepts value <;>
      simp [hwritable, haccepts]

end Remodel
