import Remodel.Transform.Description

/-!
# The catalog of descriptions

The description in use for every pair of types.

## Strategy

The descriptions stand in the order in which they were saved.  Saving one drops the
one of the same pair first, so that a pair never has two.
-/

namespace Remodel

/-- Descriptions in the order of saving, at most one for a pair of types. -/
structure Catalog where
  descriptions : List Description
  deriving Repr, DecidableEq, Inhabited

namespace Catalog

/-- The catalog without descriptions. -/
def empty : Catalog := ⟨[]⟩

/-- The catalog without the description of a pair. -/
def withoutPair (catalog : Catalog) (source target : String) : Catalog :=
  ⟨catalog.descriptions.filter fun description => !description.connects source target⟩

/-- Saves a description instead of the one of the same pair. -/
def save (catalog : Catalog) (description : Description) : Catalog :=
  ⟨(catalog.withoutPair description.source description.target).descriptions ++ [description]⟩

/-- Saves several descriptions in their order. -/
def saveAll (catalog : Catalog) (descriptions : List Description) : Catalog :=
  descriptions.foldl save catalog

/-- Removes the description of the same pair. -/
def delete (catalog : Catalog) (description : Description) : Catalog :=
  catalog.withoutPair description.source description.target

/-- Removes the description of the same pair if it also has the same id. -/
def deleteSame (catalog : Catalog) (description : Description) : Catalog :=
  ⟨catalog.descriptions.filter fun saved =>
    !(saved.connects description.source description.target && saved.id = description.id)⟩

/-- What is left of a catalog, and whether anything is gone. -/
def reduced (catalog left : Catalog) : Catalog × Bool :=
  (left, left.descriptions.length ≠ catalog.descriptions.length)

/-- Removes the description of the same pair, and says whether there was one. -/
def remove (catalog : Catalog) (description : Description) : Catalog × Bool :=
  catalog.reduced (catalog.delete description)

/-- Removes the description of the same pair if it also has the same id, and says whether
it was there. -/
def removeSame (catalog : Catalog) (description : Description) : Catalog × Bool :=
  catalog.reduced (catalog.deleteSame description)

/-- Removes several descriptions, each only if its id is that of the saved one. -/
def deleteAllExact (catalog : Catalog) (descriptions : List Description) : Catalog :=
  descriptions.foldl deleteSame catalog

/-- The description of a pair. -/
def lookup? (catalog : Catalog) (source target : String) : Option Description :=
  catalog.descriptions.find? fun description => description.connects source target

/-- Whether a pair has a description. -/
def canTransform (catalog : Catalog) (source target : String) : Bool :=
  catalog.descriptions.any fun description => description.connects source target

/-- The number of descriptions. -/
def size (catalog : Catalog) : Nat := catalog.descriptions.length

theorem canTransform_eq_isSome_lookup? (catalog : Catalog) (source target : String) :
    catalog.canTransform source target = (catalog.lookup? source target).isSome := by
  rw [canTransform, lookup?, Bool.eq_iff_iff]
  simp

end Catalog

end Remodel
