import Remodel.Model.Value

/-!
# Equality of values

Two values are equal when they have the same kind and equal contents.  Floats are
compared as numbers, so that what is not a number differs from itself.  Models are
equal when they are of the same type and every declared field holds equal values or
nothing in both.  Maps are equal when they have equally many entries and every
entry of the first is in the second; the order of entries does not matter.

## Strategy

Looking for an entry of the first map in the second compares the entries the other
way round.  `sameValue` therefore carries a flag that says on which side its first
argument stands, and recurses on that argument alone.
-/

namespace Remodel

mutual

/-- Whether `a = b`, or `b = a` if `flipped`. -/
def sameValue (flipped : Bool) : Value → Value → Bool
  | .string a, .string b => a = b
  | .integer a, .integer b => a = b
  | .float a, .float b => if flipped then b == a else a == b
  | .boolean a, .boolean b => a = b
  | .bytes a, .bytes b => a = b
  | .enum a, .enum b => a = b
  | .file a, .file b => a = b
  | .model a, .model b => sameModel flipped a b
  | .list a, .list b => sameItems flipped a b
  | .map a, .map b =>
    a.length = b.length && (if flipped then b.all (hasEntry a) else entriesWithin a b)
  | _, _ => false
termination_by structural value => value

/-- Whether two models are of one type and agree in the declared fields. -/
def sameModel (flipped : Bool) : Instance Value → Instance Value → Bool
  | ⟨descriptor, values, _⟩, other =>
    let declared := if flipped then other.descriptor.fields else descriptor.fields
    descriptor.typeId = other.typeId &&
      declared.all fun field => sameField flipped field.name values (other.get? field.name)
termination_by structural model => model

/-- Whether a field holds what the other side holds, or nothing as the other side. -/
def sameField (flipped : Bool) (field : String) : List (String × Value) → Option Value → Bool
  | [], other => other.isNone
  | (name, value) :: rest, other =>
    if name = field then
      match other with
      | some otherValue => sameValue flipped value otherValue
      | none => false
    else sameField flipped field rest other
termination_by structural values => values

/-- Whether two lists are equal element by element. -/
def sameItems (flipped : Bool) : List Value → List Value → Bool
  | [], [] => true
  | a :: as, b :: bs => sameValue flipped a b && sameItems flipped as bs
  | _, _ => false
termination_by structural items => items

/-- Whether every entry on this side occurs on the other. -/
def entriesWithin : List (Value × Value) → List (Value × Value) → Bool
  | [], _ => true
  | (key, value) :: rest, others =>
    (others.any fun other => sameValue true key other.1 && sameValue true value other.2) &&
      entriesWithin rest others
termination_by structural entries => entries

/-- Whether an entry of the other side occurs on this one. -/
def hasEntry : List (Value × Value) → Value × Value → Bool
  | [], _ => false
  | (key, value) :: rest, other =>
    (sameValue false key other.1 && sameValue false value other.2) || hasEntry rest other
termination_by structural entries => entries

end

instance : BEq Value := ⟨sameValue false⟩

instance : BEq Model := ⟨sameModel false⟩

end Remodel
