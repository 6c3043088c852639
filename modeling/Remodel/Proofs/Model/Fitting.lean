import Remodel.Model.Coercion
import Remodel.Model.Write

/-!
# What is written for a value

A value that is to go into a field is coerced to the field's kind first, and written if the kind
accepts what comes of it.  `Kind.fit?` is what is written then, if anything, and
`Descriptor.fit?` the same for a field that may not exist or not be writable.  Both depend on the
type and the value alone.
-/

namespace Remodel

/-- What is written for a value into a field of the kind, if anything. -/
def Kind.fit? (kind : Kind) (value : Value) : Option Value :=
  match kind.coerce value with
  | .ok coerced => if kind.accepts coerced then some coerced else none
  | .error _ => none

/-- What is written for a value into a field, if anything. -/
def Descriptor.fit? (descriptor : Descriptor) (field : String) (value : Value) : Option Value :=
  (descriptor.field? field).bind fun declared =>
    if declared.writable then declared.kind.fit? value else none

theorem Kind.fit?_of_coerce {kind : Kind} {value coerced : Value}
    (hcoerce : kind.coerce value = .ok coerced) (haccepts : kind.accepts coerced = true) :
    kind.fit? value = some coerced := by
  simp [fit?, hcoerce, haccepts]

theorem Descriptor.fit?_of_writable {descriptor : Descriptor} {field : Field} (value : Value)
    (hfield : descriptor.field? field.name = some field) (hwritable : field.writable = true) :
    descriptor.fit? field.name value = field.kind.fit? value := by
  simp [fit?, hfield, hwritable]

/-- Writing a coerced value succeeds for what fits, and puts it. -/
theorem Model.toOption_set {model : Model} {field : Field} {value coerced : Value}
    (hfield : model.descriptor.field? field.name = some field)
    (hcoerce : field.kind.coerce value = .ok coerced) :
    (model.set field.name coerced).toOption =
      (model.descriptor.fit? field.name value).map (model.put field.name) := by
  cases hwritable : field.writable <;> cases haccepts : field.kind.accepts coerced <;>
    simp [set, Descriptor.checkAssignment, Descriptor.fit?, Kind.fit?, hfield, hwritable, haccepts,
      hcoerce, Except.toOption]

end Remodel
