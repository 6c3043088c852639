import Mathlib.Data.List.Basic
import Mathlib.Data.List.Induction
import Remodel.Catalog

/-!
# What a catalog holds

Saving a description drops the one of its pair, so a catalog in use is `Single`: no pair has two.
A description that is removed before one of its pair is saved need not be removed
(`saveAll_replaced`).
-/

namespace Remodel

namespace Description

theorem connects_iff {description : Description} {source target : String} :
    description.connects source target = true ↔
      description.source = source ∧ description.target = target := by
  simp [connects]

@[simp] theorem connects_self (description : Description) :
    description.connects description.source description.target = true := by
  simp [connects]

/-- Two descriptions with a pair in common have the same pair. -/
theorem connects_congr {a b : Description} {source target : String}
    (ha : a.connects source target = true) (hb : b.connects source target = true) :
    a.connects b.source b.target = true := by
  rw [connects_iff] at *
  exact ⟨ha.1.trans hb.1.symm, ha.2.trans hb.2.symm⟩

/-- A description of one pair is not of the pair of a description that does not have this one. -/
theorem connects_eq_false {a b : Description} {source target : String}
    (ha : a.connects source target = true) (hb : b.connects source target = false) :
    a.connects b.source b.target = false := by
  rw [← Bool.not_eq_true] at hb ⊢
  rw [connects_iff] at *
  exact fun h => hb ⟨h.1.symm.trans ha.1, h.2.symm.trans ha.2⟩

end Description

namespace Catalog

variable {catalog : Catalog}

/-- No pair has two descriptions. -/
def Single (catalog : Catalog) : Prop :=
  ∀ a ∈ catalog.descriptions, ∀ b ∈ catalog.descriptions,
    a.connects b.source b.target = true → a = b

theorem mem_save {description saved : Description} :
    saved ∈ (catalog.save description).descriptions ↔ saved = description ∨
      saved ∈ catalog.descriptions ∧
        saved.connects description.source description.target = false := by
  simp only [save, withoutPair, List.mem_append, List.mem_filter, List.mem_singleton,
    Bool.not_eq_true']
  exact or_comm

theorem mem_deleteSame {description saved : Description} :
    saved ∈ (catalog.deleteSame description).descriptions ↔ saved ∈ catalog.descriptions ∧
      ¬ (saved.connects description.source description.target = true ∧
        saved.id = description.id) := by
  simp [deleteSame, imp_iff_not_or]

/-- What is left when exact descriptions are removed. -/
theorem mem_deleteAllExact {removed : List Description} {saved : Description} :
    saved ∈ (catalog.deleteAllExact removed).descriptions ↔ saved ∈ catalog.descriptions ∧
      ∀ description ∈ removed, ¬ (saved.connects description.source description.target = true ∧
        saved.id = description.id) := by
  unfold deleteAllExact
  induction removed generalizing catalog with
  | nil => simp
  | cons description rest ih =>
      rw [List.foldl_cons, ih, mem_deleteSame, List.forall_mem_cons, and_assoc]

theorem Single.save (h : catalog.Single) (description : Description) :
    (catalog.save description).Single := by
  intro a ha b hb hab
  rcases mem_save.mp ha with rfl | ⟨ha, hother⟩
  · rcases mem_save.mp hb with rfl | ⟨hb, hother⟩
    · rfl
    · rw [Description.connects_iff] at hab
      rw [hab.1, hab.2, Description.connects_self] at hother
      cases hother
  · rcases mem_save.mp hb with rfl | ⟨hb, -⟩
    · rw [hab] at hother
      cases hother
    · exact h a ha b hb hab

theorem Single.deleteAllExact (h : catalog.Single) (removed : List Description) :
    (catalog.deleteAllExact removed).Single := fun a ha b hb =>
  h a (mem_deleteAllExact.mp ha).1 b (mem_deleteAllExact.mp hb).1

theorem canTransform_iff {source target : String} : catalog.canTransform source target = true ↔
    ∃ description ∈ catalog.descriptions, description.connects source target = true := by
  simp [canTransform]

/-! ## How many descriptions a pair has -/

/-- The descriptions of a pair. -/
def ofPair (catalog : Catalog) (source target : String) : List Description :=
  catalog.descriptions.filter fun description => description.connects source target

theorem ofPair_save (description : Description) (source target : String) :
    (catalog.save description).ofPair source target =
      if description.connects source target = true then [description]
      else catalog.ofPair source target := by
  simp only [ofPair, save, withoutPair, List.filter_append, List.filter_filter]
  split
  · rename_i hpair
    have hnone : (catalog.descriptions.filter fun saved => saved.connects source target &&
        !saved.connects description.source description.target) = [] := by
      rw [List.filter_eq_nil_iff]
      intro saved _ hboth
      rw [Bool.and_eq_true, Bool.not_eq_true'] at hboth
      have hsame := Description.connects_congr hboth.1 hpair
      exact absurd (hsame.symm.trans hboth.2) (by decide)
    rw [hnone]
    simp [hpair]
  · rename_i hother
    rw [Bool.not_eq_true] at hother
    have hkept : (catalog.descriptions.filter fun saved => saved.connects source target &&
        !saved.connects description.source description.target) =
          catalog.descriptions.filter fun saved => saved.connects source target := by
      refine List.filter_congr fun saved _ => ?_
      cases hsaved : saved.connects source target with
      | false => rfl
      | true => rw [Description.connects_eq_false hsaved hother]; rfl
    rw [hkept]
    simp [hother]

theorem length_ofPair_deleteAllExact_le (removed : List Description) (source target : String) :
    ((catalog.deleteAllExact removed).ofPair source target).length ≤
      (catalog.ofPair source target).length := by
  unfold deleteAllExact
  induction removed generalizing catalog with
  | nil => exact Nat.le_refl _
  | cons description rest ih =>
      have hfirst : ((catalog.deleteSame description).ofPair source target).length ≤
          (catalog.ofPair source target).length :=
        (List.filter_sublist.filter _).length_le
      rw [List.foldl_cons]
      exact Nat.le_trans ih hfirst

/-- In a catalog without two for a pair, the description that is found is the only one. -/
theorem Single.lookup?_eq (h : catalog.Single) {description : Description}
    (hmem : description ∈ catalog.descriptions) {source target : String}
    (hpair : description.connects source target = true) :
    catalog.lookup? source target = some description := by
  unfold lookup?
  cases hfound : catalog.descriptions.find? fun saved => saved.connects source target with
  | none => exact absurd hpair (List.find?_eq_none.mp hfound description hmem)
  | some found =>
      have hfoundPair : found.connects source target = true := by
        simpa using List.find?_some hfound
      have hsame := Description.connects_congr hfoundPair hpair
      rw [h found (List.mem_of_find?_eq_some hfound) description hmem hsame]

/-! ## What removals say -/

/-- What a removal says tells whether one of the descriptions did not pass the test. -/
theorem reduced_filter (keep : Description → Bool) :
    (catalog.reduced ⟨catalog.descriptions.filter keep⟩).2 =
      catalog.descriptions.any fun description => !keep description := by
  rw [reduced, Bool.eq_iff_iff, decide_eq_true_eq, ne_eq, List.length_filter_eq_length_iff,
    List.any_eq_true]
  simp

/-- The removal of a pair says whether it had a description. -/
theorem remove_eq (catalog : Catalog) (description : Description) :
    catalog.remove description = (catalog.delete description,
      catalog.canTransform description.source description.target) := by
  refine Prod.ext rfl ((reduced_filter _).trans ?_)
  simp [canTransform]

/-- The exact removal says whether the description that is looked up has the same id. -/
theorem Single.removeSame_eq (h : catalog.Single) (description : Description) :
    catalog.removeSame description = (catalog.deleteSame description,
      (catalog.lookup? description.source description.target).any fun saved =>
        saved.id = description.id) := by
  refine Prod.ext rfl ((reduced_filter _).trans ?_)
  rw [Bool.eq_iff_iff, List.any_eq_true, Option.any_eq_true]
  constructor
  · rintro ⟨saved, hsaved, hsame⟩
    rw [Bool.not_not, Bool.and_eq_true] at hsame
    exact ⟨saved, h.lookup?_eq hsaved hsame.1, hsame.2⟩
  · rintro ⟨saved, hlookup, hid⟩
    have hpair := List.find?_some hlookup
    exact ⟨saved, List.mem_of_find?_eq_some hlookup, by
      rw [Bool.not_not, Bool.and_eq_true]
      exact ⟨hpair, hid⟩⟩

/-! ## Removals before a replacement -/

theorem deleteAllExact_append (catalog : Catalog) (first second : List Description) :
    catalog.deleteAllExact (first ++ second) =
      (catalog.deleteAllExact first).deleteAllExact second := List.foldl_append

theorem saveAll_concat (catalog : Catalog) (descriptions : List Description)
    (last : Description) :
    catalog.saveAll (descriptions ++ [last]) = (catalog.saveAll descriptions).save last :=
  List.foldl_append

/-- Saving keeps catalogs alike that are alike without a pair. -/
theorem withoutPair_saveAll_congr {a b : Catalog} {source target : String}
    (h : a.withoutPair source target = b.withoutPair source target)
    (descriptions : List Description) :
    (a.saveAll descriptions).withoutPair source target =
      (b.saveAll descriptions).withoutPair source target := by
  unfold saveAll
  induction descriptions generalizing a b with
  | nil => exact h
  | cons description rest ih =>
      refine ih ?_
      have hlists := congrArg Catalog.descriptions h
      simp only [withoutPair] at hlists
      simp only [withoutPair, Catalog.save, List.filter_append]
      rw [List.filter_comm, hlists, List.filter_comm]

theorem withoutPair_deleteAllExact {source target : String} {removed : List Description}
    (h : ∀ description ∈ removed, description.connects source target = true) :
    (catalog.deleteAllExact removed).withoutPair source target =
      catalog.withoutPair source target := by
  unfold deleteAllExact
  induction removed generalizing catalog with
  | nil => rfl
  | cons description rest ih =>
      rw [List.forall_mem_cons, Description.connects_iff] at h
      obtain ⟨⟨rfl, rfl⟩, hrest⟩ := h
      rw [List.foldl_cons, ih hrest]
      simp only [withoutPair, deleteSame, List.filter_filter]
      congr 1
      refine List.filter_congr fun saved _ => ?_
      cases saved.connects description.source description.target <;> simp

/-- The last of the removed descriptions are of the pair of the last saved one: it makes no
difference whether they are removed, since saving drops them. -/
theorem saveAll_replaced {removed replaced added : List Description} {stored : Description}
    (h : ∀ other ∈ replaced, other.connects stored.source stored.target = true) :
    (catalog.deleteAllExact (removed ++ replaced)).saveAll (added ++ [stored]) =
      ((catalog.deleteAllExact removed).saveAll added).save stored := by
  have hpair : ((catalog.deleteAllExact removed).deleteAllExact replaced).withoutPair
        stored.source stored.target =
      (catalog.deleteAllExact removed).withoutPair stored.source stored.target :=
    withoutPair_deleteAllExact h
  rw [deleteAllExact_append, saveAll_concat, save, withoutPair_saveAll_congr hpair added, save]

/-! ## Saving several descriptions -/

/-- The catalog without the pairs of several descriptions. -/
def withoutPairs (catalog : Catalog) (descriptions : List Description) : Catalog :=
  ⟨catalog.descriptions.filter fun saved =>
    descriptions.all fun description => !saved.connects description.source description.target⟩

/-- What was there for other pairs stays in front of what is saved. -/
theorem descriptions_saveAll (catalog : Catalog) (descriptions : List Description) :
    (catalog.saveAll descriptions).descriptions =
      (catalog.withoutPairs descriptions).descriptions ++
        (empty.saveAll descriptions).descriptions := by
  induction descriptions using List.reverseRecOn with
  | nil => exact ((List.append_nil _).trans (List.filter_eq_self.mpr fun _ _ => rfl)).symm
  | append_singleton descriptions last ih =>
      rw [saveAll_concat, saveAll_concat, save, save, withoutPair, withoutPair]
      simp only [ih, withoutPairs, List.filter_append, List.append_assoc, List.filter_filter]
      congr 1
      refine List.filter_congr fun saved _ => ?_
      simp [Bool.and_comm]

/-- Only what is saved is in a catalog that was empty. -/
theorem saveAll_empty_subset (descriptions : List Description) :
    (empty.saveAll descriptions).descriptions ⊆ descriptions := by
  induction descriptions using List.reverseRecOn with
  | nil => exact List.Subset.refl _
  | append_singleton descriptions last ih =>
      intro saved hsaved
      rw [saveAll_concat] at hsaved
      rcases mem_save.mp hsaved with rfl | ⟨hsaved, -⟩
      · exact List.mem_append_right _ (List.mem_singleton_self _)
      · exact List.mem_append_left _ (ih hsaved)

/-- Nothing of the pairs of several descriptions is left without these pairs. -/
theorem filter_ofPairs_eq_nil {descriptions gone : List Description}
    (h : ∀ saved ∈ gone, ∃ description ∈ descriptions,
      saved.connects description.source description.target = true) :
    (gone.filter fun saved => descriptions.all fun description =>
      !saved.connects description.source description.target) = [] := by
  refine List.filter_eq_nil_iff.mpr fun saved hsaved hall => ?_
  obtain ⟨description, hdescription, hconnects⟩ := h saved hsaved
  have hother := List.all_eq_true.mp hall description hdescription
  rw [hconnects] at hother
  cases hother

theorem withoutPairs_saveAll (catalog : Catalog) (descriptions : List Description) :
    (catalog.saveAll descriptions).withoutPairs descriptions =
      catalog.withoutPairs descriptions := by
  have hnew := filter_ofPairs_eq_nil fun saved hsaved =>
    ⟨saved, saveAll_empty_subset descriptions hsaved, Description.connects_self saved⟩
  rw [withoutPairs, descriptions_saveAll, List.filter_append, hnew, List.append_nil]
  simp [withoutPairs]

theorem descriptions_deleteAllExact (catalog : Catalog) (removed : List Description) :
    (catalog.deleteAllExact removed).descriptions = catalog.descriptions.filter fun saved =>
      removed.all fun other =>
        !(saved.connects other.source other.target && saved.id = other.id) := by
  unfold deleteAllExact
  induction removed generalizing catalog with
  | nil => exact (List.filter_eq_self.mpr fun _ _ => rfl).symm
  | cons other rest ih =>
      rw [List.foldl_cons, ih, deleteSame, List.filter_filter]
      simp [Bool.and_comm]

theorem withoutPairs_deleteAllExact {removed descriptions : List Description}
    (h : ∀ other ∈ removed, ∃ description ∈ descriptions,
      other.connects description.source description.target = true) :
    (catalog.deleteAllExact removed).withoutPairs descriptions =
      catalog.withoutPairs descriptions := by
  rw [withoutPairs, withoutPairs, descriptions_deleteAllExact, List.filter_filter]
  refine congrArg Catalog.mk (List.filter_congr fun saved _ => ?_)
  rw [Bool.and_eq_left_iff_imp]
  intro hpairs
  -- what is of no pair of the descriptions is not of the pair of a removed one
  refine List.all_eq_true.mpr fun other hother => ?_
  obtain ⟨description, hdescription, hconnects⟩ := h other hother
  have hsaved := List.all_eq_true.mp hpairs description hdescription
  rw [Description.connects_iff] at hconnects
  rw [hconnects.1, hconnects.2, Bool.not_and, hsaved, Bool.true_or]

/-- Saving the same again makes no difference, not even if something of the same pairs was removed
in between. -/
theorem saveAll_again (catalog : Catalog) {removed descriptions : List Description}
    (h : ∀ other ∈ removed, ∃ description ∈ descriptions,
      other.connects description.source description.target = true) :
    ((catalog.saveAll descriptions).deleteAllExact removed).saveAll descriptions =
      catalog.saveAll descriptions := by
  have hsame : (((catalog.saveAll descriptions).deleteAllExact removed).saveAll
      descriptions).descriptions = (catalog.saveAll descriptions).descriptions := by
    rw [descriptions_saveAll, withoutPairs_deleteAllExact h, withoutPairs_saveAll,
      ← descriptions_saveAll]
  exact congrArg Catalog.mk hsame

end Catalog

end Remodel
