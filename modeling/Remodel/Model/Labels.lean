import Remodel.Model.Value

/-!
# Labels of instances

A model that was made in one piece, such as one that was read from a text, holds
every nested model once.  `Model.labelled` gives each of them its own label, so that
reading a field twice gives the same instance.

## Strategy

One pass over the values carries the next free label along.
-/

namespace Remodel

mutual

/-- A value whose models have the labels from `next` on, and the next free label. -/
def labelValue (next : Nat) : Value → Value × Nat
  | .model m =>
    let (m, next) := labelModel next m
    (.model m, next)
  | .list items =>
    let (items, next) := labelItems next items
    (.list items, next)
  | .map entries =>
    let (entries, next) := labelEntries next entries
    (.map entries, next)
  | value => (value, next)

/-- A model with the label `next`, and its nested models with the labels after it. -/
def labelModel (next : Nat) : Instance Value → Instance Value × Nat
  | ⟨descriptor, values, _⟩ =>
    let (values, last) := labelValues (next + 1) values
    (⟨descriptor, values, some next⟩, last)

/-- The values of a model with labels. -/
def labelValues (next : Nat) : List (String × Value) → List (String × Value) × Nat
  | [] => ([], next)
  | (name, value) :: rest =>
    let (value, next) := labelValue next value
    let (rest, next) := labelValues next rest
    ((name, value) :: rest, next)

/-- The elements of a list with labels. -/
def labelItems (next : Nat) : List Value → List Value × Nat
  | [] => ([], next)
  | item :: rest =>
    let (item, next) := labelValue next item
    let (rest, next) := labelItems next rest
    (item :: rest, next)

/-- The entries of a map with labels. -/
def labelEntries (next : Nat) : List (Value × Value) → List (Value × Value) × Nat
  | [] => ([], next)
  | (key, value) :: rest =>
    let (key, next) := labelValue next key
    let (value, next) := labelValue next value
    let (rest, next) := labelEntries next rest
    ((key, value) :: rest, next)

end

/-- The model with a label of its own for every instance in it, counting from `next`;
and the next free label. -/
def Model.labelled (model : Model) (next : Nat) : Model × Nat := labelModel next model

end Remodel
