import Remodel.Engine
import Remodel.Proofs.Catalog
import Remodel.Proofs.Graph.Adding

/-!
# The catalog and the graph of an engine

What the graph holds is in the catalog, and neither has two descriptions for a pair (`InStep`).
The converse fails where a description is saved under the id of an edge of another pair: the
graph drops that edge, and the catalog keeps its description (`Robs`).  For a pair whose
description is in the catalog only (`Stranded`) this is the only way to become one, and being
saved is the only way out:

* `stranded_save`: what saving a description does to a pair;
* `stranded_afterRemoval`: a removal never changes whether a pair is stranded.
-/

namespace Remodel

namespace Engine

/-- What the graph holds is in the catalog, and a pair has at most one description in either. -/
structure InStep (engine : Engine) : Prop where
  graph : engine.graph.WellFormed
  catalog : engine.catalog.Single
  single : ∀ {a b}, engine.graph.Holds a → engine.graph.Holds b →
    a.connects b.source b.target = true → a = b
  listed : ∀ {description}, engine.graph.Holds description →
    description ∈ engine.catalog.descriptions

/-- The pair can be transformed by the catalog, and has no path in the graph. -/
def Stranded (engine : Engine) (source target : String) : Prop :=
  engine.canTransform source target = true ∧ engine.graph.hasPath source target [] = false

/-- Saving a description takes the edge of another pair, the one with the id that the description
is saved under. -/
def Robs (engine : Engine) (description : Description) (source target : String) : Prop :=
  description.connects source target = false ∧
    ∃ other, engine.graph.path source target [] = .ok other ∧
      other.id = some (engine.save description).2

theorem inStep_new (types : TypeTable) (idStart : String) : (new types idStart).InStep where
  graph := Graph.wellFormed_empty idStart
  catalog _ h := absurd h List.not_mem_nil
  single := fun ⟨_, h, _⟩ => absurd h List.not_mem_nil
  listed := fun ⟨_, h, _⟩ => absurd h List.not_mem_nil

variable {engine : Engine} {source target : String}

theorem canTransform_iff : engine.canTransform source target = true ↔
    ∃ description ∈ engine.catalog.descriptions, description.connects source target = true :=
  Catalog.canTransform_iff

namespace InStep

theorem hasPath_iff (h : engine.InStep) : engine.graph.hasPath source target [] = true ↔
    ∃ description, engine.graph.Holds description ∧
      description.connects source target = true := by
  rw [Graph.hasPath_iff, h.graph.exists_path_iff]

theorem hasPath_eq_false_iff (h : engine.InStep) :
    engine.graph.hasPath source target [] = false ↔
      ∀ description, engine.graph.Holds description →
        description.connects source target = false := by
  rw [← Bool.not_eq_true, h.hasPath_iff]
  simp

/-- Where the graph has a path, the catalog has a description. -/
theorem canTransform_of_hasPath (h : engine.InStep)
    (hpath : engine.graph.hasPath source target [] = true) :
    engine.canTransform source target = true := by
  obtain ⟨description, hheld, hconnects⟩ := h.hasPath_iff.mp hpath
  exact canTransform_iff.mpr ⟨description, h.listed hheld, hconnects⟩

/-- The description of a path is the only one that is held for its pair. -/
theorem path_eq_iff (h : engine.InStep) {description : Description} :
    engine.graph.path source target [] = .ok description ↔
      engine.graph.Holds description ∧ description.connects source target = true := by
  refine ⟨h.graph.holds_of_path, fun ⟨hheld, hconnects⟩ => ?_⟩
  obtain ⟨found, hpath⟩ := h.graph.exists_path_iff.mpr ⟨description, hheld, hconnects⟩
  obtain ⟨hfound, hfoundConnects⟩ := h.graph.holds_of_path hpath
  rw [hpath, h.single hfound hheld (Description.connects_congr hfoundConnects hconnects)]

end InStep

/-! ## Saving -/

section Save

variable {description : Description}

theorem mem_catalog_save {saved : Description} :
    saved ∈ (engine.save description).1.catalog.descriptions ↔
      saved = (engine.graph.replace description).stored ∨ saved ∈ engine.catalog.descriptions ∧
        saved.connects description.source description.target = false :=
  Catalog.mem_save

theorem InStep.save (h : engine.InStep) (description : Description) :
    (engine.save description).1.InStep where
  graph := h.graph.replace description
  catalog := h.catalog.save _
  single {a b} ha hb hab := by
    rcases h.graph.holds_replace.mp ha with rfl | ⟨⟨ha, hother⟩, -⟩
    · rcases h.graph.holds_replace.mp hb with rfl | ⟨⟨hb, hother⟩, -⟩
      · rfl
      · -- one that stays is of another pair than the new one
        obtain ⟨hsource, htarget⟩ := Description.connects_iff.mp hab
        have hsame : b.connects description.source description.target = true :=
          Description.connects_iff.mpr ⟨hsource.symm, htarget.symm⟩
        exact absurd (hsame.symm.trans hother) (by decide)
    · rcases h.graph.holds_replace.mp hb with rfl | ⟨⟨hb, -⟩, -⟩
      · exact absurd (hab.symm.trans hother) (by decide)
      · exact h.single ha hb hab
  listed hheld := by
    rcases h.graph.holds_replace.mp hheld with rfl | ⟨⟨hheld, hother⟩, -⟩
    · exact mem_catalog_save.mpr (Or.inl rfl)
    · exact mem_catalog_save.mpr (Or.inr ⟨h.listed hheld, hother⟩)

/-- What stays for another pair than that of the new description. -/
theorem InStep.holds_save_of_connects (h : engine.InStep)
    (hother : description.connects source target = false) {held : Description}
    (hconnects : held.connects source target = true) :
    (engine.save description).1.graph.Holds held ↔
      engine.graph.Holds held ∧ held.id ≠ some (engine.save description).2 := by
  have hpair := Description.connects_eq_false hconnects hother
  refine h.graph.holds_replace.trans ⟨?_, fun ⟨hheld, hid⟩ => Or.inr ⟨⟨hheld, hpair⟩, hid⟩⟩
  rintro (rfl | ⟨⟨hheld, -⟩, hid⟩)
  · exact absurd (hconnects.symm.trans hother) (by decide)
  · exact ⟨hheld, hid⟩

theorem canTransform_save_of_connects (hother : description.connects source target = false) :
    (engine.save description).1.canTransform source target = true ↔
      engine.canTransform source target = true := by
  rw [canTransform_iff, canTransform_iff]
  constructor
  · rintro ⟨saved, hsaved, hconnects⟩
    rcases mem_catalog_save.mp hsaved with rfl | ⟨hsaved, -⟩
    · exact absurd (hconnects.symm.trans hother) (by decide)
    · exact ⟨saved, hsaved, hconnects⟩
  · rintro ⟨saved, hsaved, hconnects⟩
    have hpair := Description.connects_eq_false hconnects hother
    exact ⟨saved, mem_catalog_save.mpr (Or.inr ⟨hsaved, hpair⟩), hconnects⟩

/-- A pair is stranded by the description of another pair that takes its edge, and until it is
saved. -/
theorem InStep.stranded_save (h : engine.InStep) :
    (engine.save description).1.Stranded source target ↔
      description.connects source target = false ∧
        (engine.Stranded source target ∨ engine.Robs description source target) := by
  have hafter : (engine.save description).1.graph.hasPath source target [] = false ↔ _ :=
    (h.save description).hasPath_eq_false_iff
  constructor
  · rintro ⟨hcan, hpath⟩
    have hother : description.connects source target = false :=
      hafter.mp hpath (engine.graph.replace description).stored
        (h.graph.holds_replace.mpr (Or.inl rfl))
    refine ⟨hother, ?_⟩
    rw [canTransform_save_of_connects hother] at hcan
    cases hbefore : engine.graph.hasPath source target [] with
    | false => exact Or.inl ⟨hcan, hbefore⟩
    | true =>
        -- the description of the path has gone, and only its id can be the reason
        obtain ⟨held, hheld, hconnects⟩ := h.hasPath_iff.mp hbefore
        refine Or.inr ⟨hother, held, h.path_eq_iff.mpr ⟨hheld, hconnects⟩, ?_⟩
        by_contra hid
        have hstays := (h.holds_save_of_connects hother hconnects).mpr ⟨hheld, hid⟩
        exact absurd (hconnects.symm.trans (hafter.mp hpath held hstays)) (by decide)
  · rintro ⟨hother, hbefore⟩
    have hcan : engine.canTransform source target = true := by
      rcases hbefore with ⟨hcan, -⟩ | ⟨-, other, hpath, -⟩
      · exact hcan
      · exact h.canTransform_of_hasPath (Graph.hasPath_iff.mpr ⟨other, hpath⟩)
    refine ⟨(canTransform_save_of_connects hother).mpr hcan, hafter.mpr fun held hheld => ?_⟩
    rw [← Bool.not_eq_true]
    intro hconnects
    obtain ⟨hheld, hid⟩ := (h.holds_save_of_connects hother hconnects).mp hheld
    rcases hbefore with ⟨-, hpath⟩ | ⟨-, other, hpath, hotherId⟩
    · exact absurd (hconnects.symm.trans (h.hasPath_eq_false_iff.mp hpath held hheld)) (by decide)
    · -- the path that was robbed is that of the held description
      rw [h.path_eq_iff.mpr ⟨hheld, hconnects⟩] at hpath
      exact hid (Except.ok.inj hpath ▸ hotherId)

end Save

/-! ## Removing -/

section Removal

variable {chosen : Edge → Bool} {test : Description → Bool}

theorem InStep.mem_catalog_afterRemoval (h : engine.InStep)
    (hchosen : ∀ {edge description}, engine.graph.Describes edge description →
      chosen edge = test description) {saved : Description} :
    saved ∈ (engine.afterRemoval (engine.graph.removeWhere chosen).1
        (engine.graph.removeWhere chosen).2).catalog.descriptions ↔
      saved ∈ engine.catalog.descriptions ∧
        ¬ (engine.graph.Holds saved ∧ test saved = true) := by
  refine Catalog.mem_deleteAllExact.trans (and_congr_right fun hsaved => ?_)
  constructor
  · rintro hkept ⟨hheld, htest⟩
    exact hkept saved (h.graph.mem_removeWhere hchosen |>.mpr ⟨hheld, htest⟩)
      ⟨Description.connects_self saved, rfl⟩
  · rintro hkept removed hremoved ⟨hconnects, -⟩
    obtain ⟨hheld, htest⟩ := (h.graph.mem_removeWhere hchosen).mp hremoved
    -- a removed description of the same pair is the saved one
    obtain rfl := h.catalog saved hsaved removed (h.listed hheld) hconnects
    exact hkept ⟨hheld, htest⟩

/-- Removing some descriptions from the graph and the same from the catalog. -/
theorem InStep.afterRemoval (h : engine.InStep)
    (hchosen : ∀ {edge description}, engine.graph.Describes edge description →
      chosen edge = test description) :
    (engine.afterRemoval (engine.graph.removeWhere chosen).1
      (engine.graph.removeWhere chosen).2).InStep where
  graph := h.graph.removeWhere chosen
  catalog := h.catalog.deleteAllExact _
  single ha hb := h.single ((h.graph.holds_removeWhere hchosen).mp ha).1
    ((h.graph.holds_removeWhere hchosen).mp hb).1
  listed hheld := by
    obtain ⟨hheld, htest⟩ := (h.graph.holds_removeWhere hchosen).mp hheld
    refine (h.mem_catalog_afterRemoval hchosen).mpr ⟨h.listed hheld, fun ⟨_, hremoved⟩ => ?_⟩
    exact absurd (hremoved.symm.trans htest) (by decide)

/-- A removal does not change whether a pair is stranded. -/
theorem InStep.stranded_afterRemoval (h : engine.InStep)
    (hchosen : ∀ {edge description}, engine.graph.Describes edge description →
      chosen edge = test description) :
    (engine.afterRemoval (engine.graph.removeWhere chosen).1
      (engine.graph.removeWhere chosen).2).Stranded source target ↔
      engine.Stranded source target := by
  unfold Stranded
  rw [(h.afterRemoval hchosen).hasPath_eq_false_iff, h.hasPath_eq_false_iff, canTransform_iff,
    canTransform_iff]
  constructor
  · rintro ⟨⟨saved, hsaved, hconnects⟩, hnone⟩
    obtain ⟨hsaved, hkept⟩ := (h.mem_catalog_afterRemoval hchosen).mp hsaved
    refine ⟨⟨saved, hsaved, hconnects⟩, fun held hheld => ?_⟩
    rw [← Bool.not_eq_true]
    intro hpair
    obtain rfl := h.catalog saved hsaved held (h.listed hheld)
      (Description.connects_congr hconnects hpair)
    -- it is not among those that stay, so it was removed, and from the catalog as well
    refine hkept ⟨hheld, ?_⟩
    by_contra htest
    have hstays := (h.graph.holds_removeWhere hchosen).mpr
      ⟨hheld, Bool.not_eq_true _ ▸ htest⟩
    exact absurd (hpair.symm.trans (hnone saved hstays)) (by decide)
  · rintro ⟨⟨saved, hsaved, hconnects⟩, hnone⟩
    refine ⟨⟨saved, (h.mem_catalog_afterRemoval hchosen).mpr ⟨hsaved, fun ⟨hheld, _⟩ => ?_⟩,
      hconnects⟩, fun held hheld => hnone held ((h.graph.holds_removeWhere hchosen).mp hheld).1⟩
    exact absurd (hconnects.symm.trans (hnone saved hheld)) (by decide)

end Removal

end Engine

end Remodel
