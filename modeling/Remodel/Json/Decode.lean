import Remodel.Json.Draft

/-!
# Typed reading of JSON

Readers that take a draft to a value of a given type, part by part in the order of
the text, and that report the first fault they meet.

## Strategy

A structure is read from an object, whose unknown members are passed over and whose
known members may come once; or from an array that lists the fields in their order.
`readFields` handles both: it folds over the parts that are there and hands every
one to the reader of its field.
-/

namespace Remodel.Draft

/-- The fault of a draft that stands where something else is expected. -/
def mismatch : Draft → JsonFault
  | .broken fault => fault
  | .number none => .malformed
  | .string none => .malformed
  | _ => .misshapen

/-- Reads a string. -/
def readText : Draft → Except JsonFault String
  | .string (some s) => .ok s
  | draft => .error draft.mismatch

/-- Reads a string or `null`. -/
def readOptionalText : Draft → Except JsonFault (Option String)
  | .null => .ok none
  | draft => draft.readText.map some

/-- Reads a boolean. -/
def readBool : Draft → Except JsonFault Bool
  | .bool b => .ok b
  | draft => .error draft.mismatch

/-- Reads a natural number of 64 bits. -/
def readNatural : Draft → Except JsonFault Nat
  | .number (some n) =>
    match n.natural? with
    | some k => .ok k
    | none => .error .misshapen
  | draft => .error draft.mismatch

/-- Reads the items of a list one by one. -/
def readEach {α : Type} (read : Draft → Except JsonFault α) :
    List Draft → Except JsonFault (List α)
  | [] => .ok []
  | item :: rest => do
    let value ← read item
    return value :: (← readEach read rest)

/-- Reads an array whose items are all read alike. -/
def readList {α : Type} (read : Draft → Except JsonFault α) : Draft → Except JsonFault (List α)
  | .array items stop => do
    let values ← readEach read items
    match stop with
    | some fault => throw fault
    | none => return values
  | draft => .error draft.mismatch

/-- Reads the members of an object one by one. -/
def readEachMember {α : Type} (read : Draft → Except JsonFault α) :
    List (Option String × Draft) → Except JsonFault (List (String × α))
  | [] => .ok []
  | (none, _) :: _ => .error .malformed
  | (some key, value) :: rest => do
    let value ← read value
    return (key, value) :: (← readEachMember read rest)

/-- Reads an object whose members are all read alike. -/
def readTable {α : Type} (read : Draft → Except JsonFault α) :
    Draft → Except JsonFault (List (String × α))
  | .object members stop => do
    let values ← readEachMember read members
    match stop with
    | some fault => throw fault
    | none => return values
  | draft => .error draft.mismatch

/-- A field of a structure: its key, whether an array may leave it out, and its reader,
which adds the value to what has been read. -/
structure FieldReader (σ : Type) where
  key : String
  optional : Bool
  read : σ → Draft → Except JsonFault σ

/-- Reads the known members of an object in the order of the text; a known key may not
come twice. -/
def readKnown {σ : Type} (fields : List (FieldReader σ)) (seen : List String) (state : σ) :
    List (Option String × Draft) → Except JsonFault σ
  | [] => .ok state
  | (none, _) :: _ => .error .malformed
  | (some key, value) :: rest =>
    match fields.find? (fun field => field.key = key) with
    | some field =>
      if key ∈ seen then .error .misshapen
      else do
        let state ← field.read state value
        readKnown fields (key :: seen) state rest
    | none =>
      match value.fault? with
      | some fault => .error fault
      | none => readKnown fields seen state rest

/-- Reads the fields of a structure from the items of an array. -/
def readInOrder {σ : Type} (stop : Option JsonFault) :
    List (FieldReader σ) → σ → List Draft → Except JsonFault σ
  | [], state, [] =>
    match stop with
    | some fault => .error fault
    | none => .ok state
  | [], _, item :: _ =>
    .error (match item with
      | .broken .unfinished => .unfinished
      | _ => .malformed)
  | field :: fields, state, [] =>
    match stop with
    | some fault => .error fault
    | none => if field.optional then readInOrder stop fields state [] else .error .misshapen
  | field :: fields, state, item :: items => do
    let state ← field.read state item
    readInOrder stop fields state items

/-- Reads the fields of a structure from an object or an array. -/
def readFields {σ : Type} (fields : List (FieldReader σ)) (start : σ) :
    Draft → Except JsonFault σ
  | .object members stop => do
    let state ← readKnown fields [] start members
    match stop with
    | some fault => throw fault
    | none => return state
  | .array items stop => readInOrder stop fields start items
  | draft => .error draft.mismatch

/-- A field that must have been read. -/
def required {α : Type} : Option α → Except JsonFault α
  | some value => .ok value
  | none => .error .misshapen

/-- Reads a whole text with a reader of drafts. -/
def readText? {α : Type} (read : Draft → Except JsonFault α) (text : String) :
    Except JsonFault α := do
  let (draft, trailing) := ofText text
  let value ← read draft
  match trailing with
  | some fault => throw fault
  | none => return value

end Remodel.Draft
