import Mathlib.Data.List.Induction
import Mathlib.Data.List.Pairwise
import Remodel.Proofs.Catalog

/-!
# What a catalog holds after a history

A catalog is a map from pairs of types to descriptions.  What it holds is told here by its history
alone: a description is in use if it was saved and nothing behind that displaces it (`InUse`), which
is a description of its pair that is saved, the deletion of its pair, or the deletion of the
description with its pair and its id.

One change takes out what it displaces and puts in what it saves (`mem_change`).  From this it
follows by induction on the history that the catalog holds the descriptions in use
(`mem_changeAll`).  To save several descriptions is to save them one after the other, so that a
batch that repeats a pair is no exception.
-/

namespace Remodel

namespace Catalog

/-- A change of a single description. -/
inductive Change
  | save (description : Description)
  | delete (description : Description)
  | deleteSame (description : Description)

/-- What a catalog can be told to do. -/
inductive Update
  | one (change : Change)
  | saveAll (descriptions : List Description)

/-- The description that a change is about. -/
def Change.description : Change → Description
  | save description => description
  | delete description => description
  | deleteSame description => description

/-- Whether a description is no longer in use after a change. -/
def Change.Displaces (description : Description) : Change → Prop
  | save other => description.connects other.source other.target = true
  | delete other => description.connects other.source other.target = true
  | deleteSame other =>
    description.connects other.source other.target = true ∧ description.id = other.id

/-- The changes that make up an update. -/
def Update.changes : Update → List Change
  | one change => [change]
  | saveAll descriptions => descriptions.map Change.save

/-- Whether a description was saved and not displaced since. -/
def InUse (history : List Change) (description : Description) : Prop :=
  ∃ before since, history = before ++ .save description :: since ∧
    ∀ change ∈ since, ¬ change.Displaces description

/-- The catalog after a change. -/
def change (catalog : Catalog) : Change → Catalog
  | .save description => catalog.save description
  | .delete description => catalog.delete description
  | .deleteSame description => catalog.deleteSame description

/-- The catalog after several changes. -/
def changeAll (catalog : Catalog) (changes : List Change) : Catalog := changes.foldl change catalog

/-- The catalog after an update. -/
def update (catalog : Catalog) : Update → Catalog
  | .one change => catalog.change change
  | .saveAll descriptions => catalog.saveAll descriptions

/-- The catalog after a run of updates. -/
def after (catalog : Catalog) (run : List Update) : Catalog := run.foldl update catalog

/-- Whether no two descriptions have the same pair. -/
def Distinct (catalog : Catalog) : Prop :=
  catalog.descriptions.Pairwise fun a b => a.connects b.source b.target = false

variable {catalog : Catalog} {source target : String}

/-! ## One change -/

/-- A change takes out what it displaces and puts in what it saves. -/
theorem mem_change {change : Change} {description : Description} :
    description ∈ (catalog.change change).descriptions ↔
      change = .save description ∨
        description ∈ catalog.descriptions ∧ ¬ change.Displaces description := by
  cases change with
  | save other =>
      show description ∈ (catalog.save other).descriptions ↔ _
      rw [mem_save, Change.save.injEq, Change.Displaces, Bool.not_eq_true, eq_comm]
  | delete other =>
      simp [Catalog.change, delete, withoutPair, Change.Displaces]
  | deleteSame other =>
      show description ∈ (catalog.deleteSame other).descriptions ↔ _
      rw [mem_deleteSame, Change.Displaces]
      simp

theorem Distinct.filter (h : catalog.Distinct) (keeps : Description → Bool) :
    Distinct ⟨catalog.descriptions.filter keeps⟩ := List.Pairwise.filter keeps h

theorem Distinct.change (h : catalog.Distinct) (change : Change) :
    (catalog.change change).Distinct := by
  cases change with
  | save description =>
      show List.Pairwise _ _
      refine List.pairwise_append.mpr ⟨h.filter _, List.pairwise_singleton _ _, ?_⟩
      intro saved hsaved other hother
      obtain rfl := List.mem_singleton.mp hother
      simpa using (List.mem_filter.mp hsaved).2
  | delete description => exact h.filter _
  | deleteSame description => exact h.filter _

/-- In a catalog without two for a pair, there is one description to find for each pair. -/
theorem Distinct.single (h : catalog.Distinct) : catalog.Single := by
  intro a ha b hb hab
  by_contra hne
  have hsymm : Std.Symm fun a b : Description => a.connects b.source b.target = false := by
    refine ⟨fun a b hother => ?_⟩
    rw [← Bool.not_eq_true, Description.connects_iff] at hother ⊢
    exact fun hsame => hother ⟨hsame.1.symm, hsame.2.symm⟩
  have hother : a.connects b.source b.target = false := List.Pairwise.forall h ha hb hne
  rw [hab] at hother
  cases hother

/-- What is found for a pair in a catalog without two for it. -/
theorem Distinct.lookup?_eq_some_iff (h : catalog.Distinct) {description : Description} :
    catalog.lookup? source target = some description ↔
      description ∈ catalog.descriptions ∧ description.connects source target = true := by
  constructor
  · intro hfound
    refine ⟨List.mem_of_find?_eq_some hfound, ?_⟩
    simpa using List.find?_some hfound
  · intro ⟨hmem, hpair⟩
    exact h.single.lookup?_eq hmem hpair

/-- A change of one pair leaves the descriptions of all others as they are. -/
theorem withoutPair_change (catalog : Catalog) (change : Change) :
    (catalog.change change).withoutPair change.description.source change.description.target =
      catalog.withoutPair change.description.source change.description.target := by
  cases change with
  | save description =>
      show (catalog.save description).withoutPair description.source description.target =
        catalog.withoutPair description.source description.target
      simp [save, withoutPair, List.filter_append]
  | delete description =>
      show (catalog.delete description).withoutPair description.source description.target =
        catalog.withoutPair description.source description.target
      simp [delete, withoutPair]
  | deleteSame description =>
      have hpair : ∀ other ∈ [description],
          other.connects description.source description.target = true := by simp
      exact withoutPair_deleteAllExact hpair

theorem ofPair_withoutPair {otherSource otherTarget : String}
    (h : ¬ (source = otherSource ∧ target = otherTarget)) :
    (catalog.withoutPair otherSource otherTarget).ofPair source target =
      catalog.ofPair source target := by
  simp only [ofPair, withoutPair, List.filter_filter]
  refine List.filter_congr fun saved _ => ?_
  rw [Bool.and_eq_left_iff_imp, Description.connects_iff, Bool.not_eq_true', ← Bool.not_eq_true,
    Description.connects_iff]
  rintro ⟨rfl, rfl⟩
  exact h

/-- A change leaves the descriptions of a pair as they are if it is about another one. -/
theorem ofPair_change {change : Change}
    (h : change.description.connects source target = false) :
    (catalog.change change).ofPair source target = catalog.ofPair source target := by
  have hother : ¬ (source = change.description.source ∧ target = change.description.target) := by
    rw [← Bool.not_eq_true, Description.connects_iff] at h
    exact fun hsame => h ⟨hsame.1.symm, hsame.2.symm⟩
  rw [← ofPair_withoutPair hother, withoutPair_change, ofPair_withoutPair hother]

/-! ## A history -/

theorem inUse_concat {history : List Change} {change : Change} {description : Description} :
    InUse (history ++ [change]) description ↔
      change = .save description ∨ InUse history description ∧ ¬ change.Displaces description := by
  constructor
  · rintro ⟨before, since, hhistory, hstays⟩
    obtain rfl | ⟨since, last, rfl⟩ := List.eq_nil_or_concat since
    · obtain ⟨-, hlast⟩ := List.append_inj' hhistory rfl
      exact Or.inl (List.cons.inj hlast).1
    · rw [List.concat_eq_append] at hhistory hstays
      rw [← List.cons_append, ← List.append_assoc] at hhistory
      obtain ⟨rfl, hlast⟩ := List.append_inj' hhistory rfl
      obtain rfl := (List.cons.inj hlast).1
      refine Or.inr ⟨⟨before, since, rfl, ?_⟩, hstays change (by simp)⟩
      exact fun other hother => hstays other (List.mem_append_left _ hother)
  · rintro (rfl | ⟨⟨before, since, rfl, hstays⟩, hlast⟩)
    · exact ⟨history, [], rfl, nofun⟩
    · refine ⟨before, since ++ [change], by simp, ?_⟩
      intro other hother
      rcases List.mem_append.mp hother with hother | hother
      · exact hstays other hother
      · obtain rfl := List.mem_singleton.mp hother
        exact hlast

/-- The catalog holds the descriptions in use. -/
theorem mem_changeAll {history : List Change} {description : Description} :
    description ∈ (empty.changeAll history).descriptions ↔ InUse history description := by
  induction history using List.reverseRecOn with
  | nil =>
      refine ⟨nofun, ?_⟩
      rintro ⟨before, since, hhistory, -⟩
      simp at hhistory
  | append_singleton history change ih =>
      have hlast : empty.changeAll (history ++ [change]) =
          (empty.changeAll history).change change := List.foldl_append
      rw [hlast, mem_change, ih, inUse_concat]

theorem Distinct.changeAll (h : catalog.Distinct) (changes : List Change) :
    (catalog.changeAll changes).Distinct := by
  induction changes generalizing catalog with
  | nil => exact h
  | cons change rest ih => exact ih (h.change change)

/-! ## Updates -/

theorem update_eq_changeAll (catalog : Catalog) (update : Update) :
    catalog.update update = catalog.changeAll update.changes := by
  cases update with
  | one change => rfl
  | saveAll descriptions =>
      show descriptions.foldl save catalog = (descriptions.map Change.save).foldl change catalog
      rw [List.foldl_map]
      rfl

/-- A run of updates is the history of the changes that make them up. -/
theorem after_eq_changeAll (catalog : Catalog) (run : List Update) :
    catalog.after run = catalog.changeAll (run.flatMap Update.changes) := by
  induction run generalizing catalog with
  | nil => rfl
  | cons update rest ih =>
      calc catalog.after (update :: rest)
          = (catalog.update update).after rest := rfl
        _ = (catalog.changeAll update.changes).changeAll (rest.flatMap Update.changes) := by
            rw [ih, update_eq_changeAll]
        _ = catalog.changeAll (update.changes ++ rest.flatMap Update.changes) :=
            List.foldl_append.symm

theorem ofPair_update {update : Update}
    (h : ∀ change ∈ update.changes, change.description.connects source target = false) :
    (catalog.update update).ofPair source target = catalog.ofPair source target := by
  rw [update_eq_changeAll]
  generalize update.changes = changes at h
  induction changes generalizing catalog with
  | nil => rfl
  | cons change rest ih =>
      rw [List.forall_mem_cons] at h
      exact (ih h.2).trans (ofPair_change h.1)

theorem lookup?_update {update : Update}
    (h : ∀ change ∈ update.changes, change.description.connects source target = false) :
    (catalog.update update).lookup? source target = catalog.lookup? source target := by
  have hfound : ∀ c : Catalog, c.lookup? source target = (c.ofPair source target).head? :=
    fun _ => List.head?_filter.symm
  rw [hfound, ofPair_update h, ← hfound]

/-- **A catalog is a map from pairs to descriptions.**  After every run no two descriptions have the
same pair.  What is found for a pair is what was saved for it last, if it was not deleted since,
and the pair can be transformed exactly if something is found.  A change leaves the descriptions of
all other pairs as they are, and so does an update with the pairs that it is not about.  To save
several descriptions is to save them one by one. -/
theorem isMapOfPairs_after (run : List Update) :
    (empty.after run).Distinct ∧
      (∀ source target description,
        (empty.after run).lookup? source target = some description ↔
          description.connects source target = true ∧
            InUse (run.flatMap Update.changes) description) ∧
      (∀ source target, (empty.after run).canTransform source target =
        ((empty.after run).lookup? source target).isSome) ∧
      (∀ change : Change,
        ((empty.after run).change change).withoutPair change.description.source
            change.description.target =
          (empty.after run).withoutPair change.description.source change.description.target) ∧
      (∀ update source target,
        (∀ change ∈ update.changes, change.description.connects source target = false) →
          ((empty.after run).update update).lookup? source target =
              (empty.after run).lookup? source target ∧
            ((empty.after run).update update).canTransform source target =
              (empty.after run).canTransform source target) ∧
      ∀ descriptions, (empty.after run).update (.saveAll descriptions) =
        (empty.after run).after (descriptions.map fun description => .one (.save description)) := by
  have hdistinct : (empty.after run).Distinct := by
    rw [after_eq_changeAll]
    exact Distinct.changeAll List.Pairwise.nil _
  refine ⟨hdistinct, ?_, canTransform_eq_isSome_lookup? _, withoutPair_change _, ?_, ?_⟩
  · intro source target description
    rw [hdistinct.lookup?_eq_some_iff, and_comm, after_eq_changeAll, mem_changeAll]
  · intro update source target hother
    have hsame : ((empty.after run).update update).lookup? source target =
        (empty.after run).lookup? source target := lookup?_update hother
    refine ⟨hsame, ?_⟩
    rw [canTransform_eq_isSome_lookup?, hsame, ← canTransform_eq_isSome_lookup?]
  · intro descriptions
    rw [update_eq_changeAll, after_eq_changeAll (empty.after run), List.flatMap_map]
    exact congrArg _ List.map_eq_flatMap

namespace Replaced

/-- The first description of a pair. -/
def first : Description := { Description.new "A" "B" with id := some "one" }

/-- The description that replaces the first one. -/
def second : Description := { Description.new "A" "B" with id := some "two" }

/-- A batch that saves two descriptions of a pair, with one of the opposite pair between them, and
the deletion of the one that was replaced. -/
def run : List Update :=
  [.saveAll [first, Description.new "B" "A", second], .one (.deleteSame first)]

/-- What was replaced cannot be deleted, and what concerns the opposite pair is of no effect. -/
theorem isMapOfPairs_after_replaced :
    (empty.after run).lookup? "A" "B" = some second ∧
      (∀ change ∈ (Update.one (.delete (Description.new "B" "A"))).changes,
        change.description.connects "A" "B" = false) ∧
      ((empty.after run).update (.one (.delete (Description.new "B" "A")))).lookup? "A" "B" =
        (empty.after run).lookup? "A" "B" := by
  obtain ⟨-, hlookup, -, -, hother, -⟩ := isMapOfPairs_after run
  refine ⟨(hlookup "A" "B" second).mpr ⟨by decide, ?_⟩, by decide, ?_⟩
  · refine ⟨[.save first, .save (Description.new "B" "A")], [.deleteSame first], rfl, ?_⟩
    simp [Change.Displaces, first, second]
  · exact (hother _ "A" "B" (by decide)).1

end Replaced

end Catalog

end Remodel
