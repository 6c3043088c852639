import Remodel.Error

/-!
# Notices

What a computation reports beside its result: parts that it skipped and defaults
that it used instead of what it was given.

## Strategy

`Traced α` is a result with the notices that led to it, in their order.  A notice is
a cause; its level, wording and fields are read off it.
-/

namespace Remodel

/-- How much a notice matters. -/
inductive NoticeLevel
  | debug
  | warn
  deriving Repr, DecidableEq

/-- Something that was skipped or replaced by a default. -/
inductive Notice
  | nestedElement (key : String) (index : Nat)
  | nestedEntry (key : String) (index : Nat)
  | otherModelType (oid expected found : String)
  | untaggedRecord (oid typeId : String)
  | skippedField (oid field error : String)
  | incompleteEntry (key : String) (index : Nat)
  | notAnOid (key : String)
  | notFileText (key : String)
  | invalidFileText (key : String)
  | otherSourceType (expected found : String)
  | skippedStep (step : String) (fault : StepFault)
  | valueMissing (step : String)
  | notMeasurable (function kind : String)
  | notANumber (parameter value : String) (default : Nat)
  | partMissing (index : Nat) (delimiter : String)
  | endClamped (last length : Nat)
  | operationStringIgnored (operation : String)
  | definitionFailed (path error : String)
  | unknownType (typeId : String)
  deriving Repr, DecidableEq

namespace Notice

/-- A step that only lacks its input matters less than one that fails. -/
def level : Notice → NoticeLevel
  | skippedStep _ (.unsetSource _) => .debug
  | skippedStep _ (.missingTemporary _) => .debug
  | _ => .warn

/-- The wording of a notice. -/
def message : Notice → String
  | nestedElement _ _ => "nested collections cannot be flattened, skipping element"
  | nestedEntry _ _ => "nested collections cannot be flattened, skipping entry"
  | otherModelType _ _ _ => "record holds a different model type"
  | untaggedRecord _ _ => "record carries no model type tag"
  | skippedField _ _ _ => "skipping field"
  | incompleteEntry _ _ => "incomplete map entry, skipping"
  | notAnOid _ => "nested model entry is not an OID string"
  | notFileText _ => "file entry is not base64 text"
  | invalidFileText _ => "file entry is not valid base64"
  | otherSourceType _ _ => "source model type differs from the description"
  | skippedStep _ _ => "skipping transformation step"
  | valueMissing _ => "value step has no value, skipping"
  | notMeasurable _ _ => "value doesn't support the length function, using 0"
  | notANumber _ _ _ => "parameter is not a number, using default"
  | partMissing _ _ => "split has not enough parts for the index, using the empty string"
  | endClamped _ _ => "substring end is past the end of the string, clamping"
  | operationStringIgnored _ => "operation-string ignored for this operation"
  | definitionFailed _ _ => "failed to load definition file"
  | unknownType _ => "cannot remove a type the graph doesn't know"

/-- The named fields of a notice. -/
def fields : Notice → List (String × String)
  | nestedElement key index => [("key", key), ("index", Text.ofNat index)]
  | nestedEntry key index => [("key", key), ("index", Text.ofNat index)]
  | otherModelType oid expected found => [("oid", oid), ("expected", expected), ("found", found)]
  | untaggedRecord oid typeId => [("oid", oid), ("type_id", typeId)]
  | skippedField oid field error => [("oid", oid), ("field", field), ("error", error)]
  | incompleteEntry key index => [("key", key), ("index", Text.ofNat index)]
  | notAnOid key => [("key", key)]
  | notFileText key => [("key", key)]
  | invalidFileText key => [("key", key)]
  | otherSourceType expected found => [("expected", expected), ("found", found)]
  | skippedStep step fault => [("step", step), ("error", fault.message)]
  | valueMissing step => [("step", step)]
  | notMeasurable function kind => [("function", function), ("kind", kind)]
  | notANumber parameter value default =>
    [("param", parameter), ("value", value), ("default", Text.ofNat default)]
  | partMissing index delimiter => [("index", Text.ofNat index), ("delimiter", delimiter)]
  | endClamped last length => [("to", Text.ofNat last), ("length", Text.ofNat length)]
  | operationStringIgnored operation => [("operation", operation)]
  | definitionFailed path error => [("path", path), ("error", error)]
  | unknownType typeId => [("type_id", typeId)]

end Notice

/-- A result with the notices that led to it. -/
structure Traced (α : Type) where
  value : α
  notices : List Notice

namespace Traced

/-- Runs a computation on the result of another, keeping the notices of both. -/
def andThen {α β : Type} (first : Traced α) (next : α → Traced β) : Traced β :=
  let second := next first.value
  ⟨second.value, first.notices ++ second.notices⟩

instance : Monad Traced where
  pure value := ⟨value, []⟩
  bind := andThen

/-- Reports a notice. -/
def note (notice : Notice) : Traced Unit := ⟨(), [notice]⟩

@[simp] theorem value_pure {α : Type} (a : α) : (pure a : Traced α).value = a := rfl

@[simp] theorem value_bind {α β : Type} (x : Traced α) (f : α → Traced β) :
    (x >>= f).value = (f x.value).value := rfl

@[simp] theorem value_map {α β : Type} (f : α → β) (x : Traced α) :
    (f <$> x).value = f x.value := rfl

@[simp] theorem notices_pure {α : Type} (a : α) : (pure a : Traced α).notices = [] := rfl

@[simp] theorem notices_bind {α β : Type} (x : Traced α) (f : α → Traced β) :
    (x >>= f).notices = x.notices ++ (f x.value).notices := rfl

end Traced

/-- A computation that reports notices and may fail. -/
abbrev Attempt (ε α : Type) := ExceptT ε Traced α

/-- The result of a computation without its notices. -/
def Attempt.result {ε α : Type} (attempt : Attempt ε α) : Except ε α := attempt.run.value

end Remodel
