import Remodel.Error

/-!
# Operations

The operators of transformation steps and their names in definitions.
-/

namespace Remodel

/-- What a step does with the fields it reads. -/
inductive Operation
  | forward
  | concat
  | split
  | splitRegex
  | map
  | substring
  | value
  | length
  | trim
  | toLower
  | toUpper
  | replace
  | reverse
  | pad
  | removeLeading
  | instantiate
  deriving Repr, DecidableEq, Inhabited

namespace Operation

/-- Every operation. -/
def all : List Operation :=
  [forward, concat, split, splitRegex, map, substring, value, length, trim, toLower, toUpper,
    replace, reverse, pad, removeLeading, instantiate]

/-- The name in definitions. -/
def name : Operation → String
  | forward => "forward"
  | concat => "concat"
  | split => "split"
  | splitRegex => "splitRegex"
  | map => "map"
  | substring => "substring"
  | value => "value"
  | length => "length"
  | trim => "trim"
  | toLower => "toLower"
  | toUpper => "toUpper"
  | replace => "replace"
  | reverse => "reverse"
  | pad => "pad"
  | removeLeading => "removeleading"
  | instantiate => "instantiate"

/-- The parameter that the operation string of a definition fills. -/
def filledParam? : Operation → Option String
  | concat => some "concat"
  | split => some "split"
  | splitRegex => some "regex"
  | removeLeading => some "regex"
  | value => some "value"
  | length => some "lengthFunction"
  | instantiate => some "targetType"
  | _ => none

/-- Whether the operation reads a source field. -/
def readsSource (operation : Operation) : Bool := operation ≠ value

/-- The operation of exactly this name. -/
def named? (text : String) : Option Operation := all.find? fun operation => operation.name = text

/-- A name without hyphens and underscores, with ASCII letters in lower case. -/
def normalName (text : String) : List Char :=
  (text.toList.filter fun c => c ≠ '-' && c ≠ '_').map Char.toLower

/-- The operation of a name, whatever its case, hyphens and underscores. -/
def parse (text : String) : Except DefinitionFault Operation :=
  match all.find? fun operation => operation.name.toList.map Char.toLower = normalName text with
  | some operation => .ok operation
  | none => .error (.unknownOperation text)

theorem mem_all (operation : Operation) : operation ∈ all := by
  cases operation <;> decide

theorem name_injective {a b : Operation} (h : a.name = b.name) : a = b := by
  cases a <;> cases b <;> simp_all [name]

end Operation

end Remodel
