import Mathlib.Data.Fintype.EquivFin
import Remodel.Proofs.Model.Comparing
import Remodel.Types

/-!
# How far equality is an equivalence

Models that are compared have their types from one table, so that equal type ids mean equal
declared fields.  Then equality is transitive (`beq_trans_of_typed`).

It is symmetric as long as no map repeats an entry.  A map equals another when its entries are met
in the other and the numbers of entries are the same.  If its entries are all different, no two of
them are met in the same entry, so that by the numbers every entry of the other is used, and can be
turned around (`covered_of_apart`).  If it repeats an entry, the other map may hold something else
instead of the repetition, and equals the first one from one side only.
-/

namespace Remodel

namespace Value

/-- Whether the type of a model is the one that a table has under its id. -/
def Known (types : TypeTable) (value : Value) : Prop :=
  ∀ m ∈ value.model?, types.resolve m.typeId = .ok m.descriptor

instance (types : TypeTable) (value : Value) : Decidable (value.Known types) :=
  decidable_of_iff
    (∀ m ∈ value.model?,
      (types.entries.lookup m.typeId).map TypeEntry.descriptor = some m.descriptor)
    (forall₂_congr fun m _ => by
      unfold TypeTable.resolve
      cases types.entries.lookup m.typeId <;> simp)

/-- A value whose models, at every depth, have their types from a table. -/
def Typed (types : TypeTable) (value : Value) : Prop := value.Throughout (Known types)

instance (types : TypeTable) : DecidablePred (Typed types) := fun value =>
  inferInstanceAs (Decidable (value.Throughout (Known types)))

/-- Whether the entries of a map are all different. -/
def Apart (value : Value) : Prop :=
  ∀ entries ∈ value.entries?, entries.Pairwise fun entry other => (entry == other) = false

instance : DecidablePred Apart := fun value =>
  inferInstanceAs (Decidable (∀ entries ∈ value.entries?,
    entries.Pairwise fun entry other => (entry == other) = false))

/-- A value in which no map, at any depth, repeats an entry. -/
def Unrepeated (value : Value) : Prop := value.Throughout Apart

instance : DecidablePred Unrepeated := fun value =>
  inferInstanceAs (Decidable (value.Throughout Apart))

variable {types : TypeTable}

theorem Typed.descriptor_eq {m n : Model} (hm : (model m).Typed types) (hn : (model n).Typed types)
    (htype : m.typeId = n.typeId) : m.descriptor = n.descriptor := by
  have hresolve := hm.self m rfl
  rw [htype, hn.self n rfl] at hresolve
  exact (Except.ok.inj hresolve).symm

/-! ## Transitivity -/

theorem option_beq_trans {x y z : Option Value}
    (htrans : ∀ a ∈ x, ∀ b ∈ y, ∀ c ∈ z, (a == b) = true → (b == c) = true → (a == c) = true)
    (hxy : (x == y) = true) (hyz : (y == z) = true) : (x == z) = true := by
  cases x <;> cases y <;> cases z <;> simp_all

/-- Equality is transitive. -/
theorem beq_trans_of_typed {a b c : Value} (ha : a.Typed types) (hb : b.Typed types)
    (hc : c.Typed types) (hab : (a == b) = true) (hbc : (b == c) = true) : (a == c) = true := by
  -- on the value in the middle, for in maps the outer ones change places
  induction b using nested_induction generalizing a c with
  | plain b hmodel hplain =>
      rcases eq_or_floats_of_beq hmodel hplain hab with rfl | ⟨x, y, rfl, rfl, hxy⟩
      · exact hbc
      · cases c with
        | float z => exact float_beq_trans hxy hbc
        | _ => exact absurd hbc Bool.false_ne_true
  | model n ih =>
      cases a with
      | model m =>
          cases c with
          | model k =>
              obtain ⟨htypes, hfields⟩ := Model.beq_iff.mp hab
              obtain ⟨htypes', hfields'⟩ := Model.beq_iff.mp hbc
              refine Model.beq_iff.mpr ⟨htypes.trans htypes', fun field hfield => ?_⟩
              have hown := hfields' field (ha.descriptor_eq hb htypes ▸ hfield)
              refine option_beq_trans ?_ (hfields field hfield) hown
              exact fun a ha' b hb' c hc' =>
                ih field.name b hb' (ha.field ha') (hb.field hb') (hc.field hc')
          | _ => exact absurd hbc Bool.false_ne_true
      | _ => exact absurd hab Bool.false_ne_true
  | list others ih =>
      cases a with
      | list items =>
          cases c with
          | list items' =>
              obtain ⟨hlength, hsame⟩ := list_beq_list_iff.mp hab
              obtain ⟨hlength', hsame'⟩ := list_beq_list_iff.mp hbc
              refine list_beq_list_iff.mpr ⟨hlength.trans hlength', fun i hi hi' => ?_⟩
              have hmid : i < others.length := hlength ▸ hi
              exact ih others[i] (List.getElem_mem hmid) (ha.item (List.getElem_mem hi))
                (hb.item (List.getElem_mem hmid)) (hc.item (List.getElem_mem hi'))
                (hsame i hi hmid) (hsame' i hmid hi')
          | _ => exact absurd hbc Bool.false_ne_true
      | _ => exact absurd hab Bool.false_ne_true
  | map others ih =>
      cases a with
      | map entries =>
          cases c with
          | map entries' =>
              obtain ⟨hlength, hmet⟩ := map_beq_map_iff.mp hab
              obtain ⟨hlength', hmet'⟩ := map_beq_map_iff.mp hbc
              refine map_beq_map_iff.mpr ⟨hlength.trans hlength', fun entry hentry => ?_⟩
              obtain ⟨other, hother, hsame⟩ := hmet entry hentry
              obtain ⟨entry', hentry', hsame'⟩ := hmet' other hother
              refine ⟨entry', hentry', ?_⟩
              rw [entry_beq_iff] at hsame hsame' ⊢
              obtain ⟨hkeys, hvalues⟩ := ih other hother
              exact ⟨hkeys (hc.key hentry') (hb.key hother) (ha.key hentry) hsame'.1 hsame.1,
                hvalues (hc.value hentry') (hb.value hother) (ha.value hentry) hsame'.2 hsame.2⟩
          | _ => exact absurd hbc Bool.false_ne_true
      | _ => exact absurd hab Bool.false_ne_true

/-! ## Symmetry -/

/-- If each of some things is related to one of equally many others, and no two of them to the same
one, then each of the others is related to one of them. -/
theorem covered_of_apart {α β : Type} {R : α → β → Prop} {as : List α} {bs : List β}
    (hlength : as.length = bs.length) (hcover : ∀ a ∈ as, ∃ b ∈ bs, R a b)
    (hapart : as.Pairwise fun a a' => ∀ b ∈ bs, R a b → ¬ R a' b) :
    ∀ b ∈ bs, ∃ a ∈ as, R a b := by
  induction as generalizing bs with
  | nil =>
      obtain rfl : bs = [] := List.length_eq_zero_iff.mp hlength.symm
      exact fun b hb => absurd hb List.not_mem_nil
  | cons a rest ih =>
      obtain ⟨hfirst, hrest⟩ := List.pairwise_cons.mp hapart
      -- the one to which the first is related can be left out
      obtain ⟨own, hown, hrelated⟩ := hcover a (List.mem_cons_self ..)
      obtain ⟨before, after, rfl⟩ := List.append_of_mem hown
      have hsubset : before ++ after ⊆ before ++ own :: after :=
        ((List.sublist_cons_self own after).append_left before).subset
      have hcovered : ∀ b ∈ before ++ after, ∃ a ∈ rest, R a b := by
        refine ih ?_ ?_ (hrest.imp fun h b hb => h b (hsubset hb))
        · simp only [List.length_cons, List.length_append] at hlength ⊢
          omega
        · intro a' ha'
          obtain ⟨b, hb, hab⟩ := hcover a' (List.mem_cons_of_mem a ha')
          refine ⟨b, ?_, hab⟩
          have hne : b ≠ own := fun heq => hfirst a' ha' own hown hrelated (heq ▸ hab)
          simpa [hne] using hb
      intro b hb
      by_cases heq : b = own
      · exact ⟨a, List.mem_cons_self .., heq ▸ hrelated⟩
      · obtain ⟨a', ha', hab⟩ := hcovered b (by simpa [heq] using hb)
        exact ⟨a', List.mem_cons_of_mem a ha', hab⟩

theorem option_beq_comm {x y : Option Value}
    (hcomm : ∀ a ∈ x, ∀ b ∈ y, (a == b) = (b == a)) : (x == y) = (y == x) := by
  cases x <;> cases y
  · rfl
  · rfl
  · rfl
  · exact hcomm _ rfl _ rfl

theorem beq_comm_of_plain {a : Value} (hmodel : a.model? = none) (hplain : a.isCollection = false)
    (b : Value) : (a == b) = (b == a) := by
  change sameValue false a b = sameValue false b a
  cases a with
  | model m => cases hmodel
  | list items => cases hplain
  | map entries => cases hplain
  | float x =>
      cases b with
      | float y =>
          rw [sameValue, sameValue]
          exact Bool.eq_iff_iff.mpr ⟨float_beq_symm, float_beq_symm⟩
      | _ => simp [sameValue]
  | _ => cases b <;> simp [sameValue, eq_comm]

section Maps

variable {entries others : List (Value × Value)}

/-- When the entries of a map are all different and are met in another map of as many entries, the
entries of the other are met in the first. -/
theorem met_of_apart (hentries : (map entries).Typed types) (hothers : (map others).Typed types)
    (hcomm : ∀ entry ∈ entries, ∀ other ∈ others, (entry == other) = (other == entry))
    (hlength : entries.length = others.length) (hapart : (map entries).Apart)
    (hmet : ∀ entry ∈ entries, ∃ other ∈ others, (other == entry) = true) :
    ∀ other ∈ others, ∃ entry ∈ entries, (entry == other) = true := by
  have hcovered : ∀ other ∈ others, ∃ entry ∈ entries, (other == entry) = true := by
    refine covered_of_apart hlength hmet ((hapart entries rfl).imp_of_mem ?_)
    intro entry entry' hentry hentry' hdifferent other hother hsame hsame'
    -- both are equal to the same entry, and so to each other
    rw [← hcomm entry hentry other hother, entry_beq_iff] at hsame
    rw [entry_beq_iff] at hsame'
    have hequal : (entry == entry') = true := entry_beq_iff.mpr
      ⟨beq_trans_of_typed (hentries.key hentry) (hothers.key hother) (hentries.key hentry')
          hsame.1 hsame'.1,
        beq_trans_of_typed (hentries.value hentry) (hothers.value hother) (hentries.value hentry')
          hsame.2 hsame'.2⟩
    rw [hdifferent] at hequal
    cases hequal
  intro other hother
  obtain ⟨entry, hentry, hsame⟩ := hcovered other hother
  exact ⟨entry, hentry, (hcomm entry hentry other hother).trans hsame⟩

end Maps

theorem entry_beq_comm {entry other : Value × Value}
    (hkey : (entry.1 == other.1) = (other.1 == entry.1))
    (hvalue : (entry.2 == other.2) = (other.2 == entry.2)) :
    (entry == other) = (other == entry) := by
  rw [Bool.eq_iff_iff, entry_beq_iff, entry_beq_iff, hkey, hvalue]

/-- Equality is symmetric where no map repeats an entry. -/
theorem beq_comm_of_typed {a b : Value} (ha : a.Typed types) (hb : b.Typed types)
    (hua : a.Unrepeated) (hub : b.Unrepeated) : (a == b) = (b == a) := by
  induction a using nested_induction generalizing b with
  | plain a hmodel hplain => exact beq_comm_of_plain hmodel hplain b
  | model m ih =>
      cases b with
      | model n =>
          have hfield : ∀ name, (m.get? name == n.get? name) = (n.get? name == m.get? name) :=
            fun name => option_beq_comm fun v hv w hw =>
              ih name v hv (ha.field hv) (hb.field hw) (hua.field hv) (hub.field hw)
          rw [model_beq_model, model_beq_model, Bool.eq_iff_iff, Model.beq_iff, Model.beq_iff]
          simp only [hfield]
          refine ⟨fun ⟨htype, h⟩ => ⟨htype.symm, ?_⟩, fun ⟨htype, h⟩ => ⟨htype.symm, ?_⟩⟩
          · rwa [← ha.descriptor_eq hb htype]
          · rwa [← hb.descriptor_eq ha htype]
      | _ => exact Bool.eq_iff_iff.mpr ⟨nofun, nofun⟩
  | list items ih =>
      cases b with
      | list others =>
          have hitem : ∀ item ∈ items, ∀ other ∈ others, (item == other) = (other == item) :=
            fun item hitem other hother => ih item hitem (ha.item hitem) (hb.item hother)
              (hua.item hitem) (hub.item hother)
          rw [Bool.eq_iff_iff, list_beq_list_iff, list_beq_list_iff]
          constructor
          · rintro ⟨hlength, h⟩
            refine ⟨hlength.symm, fun i hi hi' => ?_⟩
            rw [← hitem _ (List.getElem_mem hi') _ (List.getElem_mem hi)]
            exact h i hi' hi
          · rintro ⟨hlength, h⟩
            refine ⟨hlength.symm, fun i hi hi' => ?_⟩
            rw [hitem _ (List.getElem_mem hi) _ (List.getElem_mem hi')]
            exact h i hi' hi
      | _ => exact Bool.eq_iff_iff.mpr ⟨nofun, nofun⟩
  | map entries ih =>
      cases b with
      | map others =>
          have hcomm : ∀ entry ∈ entries, ∀ other ∈ others,
              (entry == other) = (other == entry) := by
            intro entry hentry other hother
            obtain ⟨hkeys, hvalues⟩ := ih entry hentry
            exact entry_beq_comm
              (hkeys (ha.key hentry) (hb.key hother) (hua.key hentry) (hub.key hother))
              (hvalues (ha.value hentry) (hb.value hother) (hua.value hentry) (hub.value hother))
          rw [Bool.eq_iff_iff, map_beq_map_iff, map_beq_map_iff]
          constructor
          · rintro ⟨hlength, hmet⟩
            exact ⟨hlength.symm, met_of_apart ha hb hcomm hlength hua.self hmet⟩
          · rintro ⟨hlength, hmet⟩
            exact ⟨hlength.symm, met_of_apart hb ha
              (fun other hother entry hentry => (hcomm entry hentry other hother).symm)
              hlength hub.self hmet⟩
      | _ => exact Bool.eq_iff_iff.mpr ⟨nofun, nofun⟩

/-! ## Maps that repeat an entry -/

theorem unlike_of_fresh {entry : Value × Value} {fresh : String} {entries : List (Value × Value)}
    (hfresh : fresh ∉ entries.filterMap fun entry => entry.1.text?) (hentry : entry ∈ entries)
    (value : Value) : (entry == (string fresh, value)) = false := by
  refine Bool.eq_false_iff.mpr fun hsame => hfresh (List.mem_filterMap.mpr ⟨entry, hentry, ?_⟩)
  rcases eq_or_floats_of_beq rfl rfl (entry_beq_iff.mp hsame).1 with hkey | ⟨x, y, -, hfloat, -⟩
  · rw [hkey]
    rfl
  · cases hfloat

/-- A map repeats an entry when its entries are not all different. -/
theorem exists_getElem_beq {entries : List (Value × Value)} (hrepeated : ¬ (map entries).Apart) :
    ∃ i j, ∃ (hi : i < entries.length) (hj : j < entries.length), i < j ∧
      (entries[i] == entries[j]) = true := by
  by_contra hnone
  refine hrepeated ?_
  rintro _ ⟨⟩
  refine List.pairwise_iff_getElem.mpr fun i j hi hj hlt => Bool.eq_false_iff.mpr fun hsame => ?_
  exact hnone ⟨i, j, hi, hj, hlt, hsame⟩

theorem throughout_string {holds : Value → Prop} {text : String} (h : holds (string text)) :
    (string text).Throughout holds := by
  intro part hpart
  have hparts : (string text).parts = [string text] := rfl
  rw [hparts, List.mem_singleton] at hpart
  exact hpart ▸ h

/-- A map that repeats an entry equals the map with anything else instead of the repetition, but
not the other way round. -/
theorem exists_unlike {entries : List (Value × Value)} (htyped : (map entries).Typed types)
    (hentries : ∀ entry ∈ entries,
      entry.1.Unrepeated ∧ entry.2.Unrepeated ∧ (entry == entry) = true)
    (hrepeated : ¬ (map entries).Apart) :
    ∃ others, (map others).Typed types ∧
      (∀ other ∈ others, other.1.Unrepeated ∧ other.2.Unrepeated) ∧
      (map entries == map others) = true ∧ (map others == map entries) = false := by
  -- the entry at `j` repeats that at `i`
  obtain ⟨i, j, hi, hj, hlt, hsame⟩ := exists_getElem_beq hrepeated
  obtain ⟨fresh, hfresh⟩ :=
    Infinite.exists_notMem_finset (entries.filterMap fun entry => entry.1.text?).toFinset
  rw [List.mem_toFinset] at hfresh
  refine ⟨entries.set j (string fresh, string fresh), ?_, ?_, ?_, ?_⟩
  · refine Throughout.map_iff.mpr ⟨nofun, fun other hother => ?_⟩
    rcases List.mem_or_eq_of_mem_set hother with hmem | rfl
    · exact ⟨htyped.key hmem, htyped.value hmem⟩
    · exact ⟨throughout_string nofun, throughout_string nofun⟩
  · intro other hother
    rcases List.mem_or_eq_of_mem_set hother with hmem | rfl
    · exact ⟨(hentries other hmem).1, (hentries other hmem).2.1⟩
    · exact ⟨throughout_string nofun, throughout_string nofun⟩
  · refine map_beq_map_iff.mpr ⟨(List.length_set ..).symm, fun entry hentry => ?_⟩
    obtain ⟨k, hk, rfl⟩ := List.getElem_of_mem hentry
    by_cases hkj : k = j
    · subst hkj
      refine ⟨entries[i], ?_, hsame⟩
      rw [← List.getElem_set_ne (Nat.ne_of_gt hlt) (by simpa using hi)]
      exact List.getElem_mem _
    · refine ⟨entries[k], ?_, (hentries _ hentry).2.2⟩
      rw [← List.getElem_set_ne (Ne.symm hkj) (by simpa using hk)]
      exact List.getElem_mem _
  · refine Bool.eq_false_iff.mpr fun hequal => ?_
    obtain ⟨entry, hentry, hmet⟩ :=
      (map_beq_map_iff.mp hequal).2 _ (List.mem_set hj (string fresh, string fresh))
    rw [unlike_of_fresh hfresh hentry] at hmet
    cases hmet

/-- **Equality does not depend on the side where no map repeats an entry.**  And only there: an
equality with a map on the left can be turned around, whatever map stands on the right, exactly if
the entries of the left one are all different. -/
theorem beq_comm_of_unrepeated (types : TypeTable) :
    (∀ a b : Value, a.Typed types → b.Typed types → a.Unrepeated → b.Unrepeated →
        (a == b) = (b == a)) ∧
      ∀ entries, (map entries).Typed types →
        (∀ entry ∈ entries,
          entry.1.Unrepeated ∧ entry.2.Unrepeated ∧ (entry == entry) = true) →
        ((∀ others, (map others).Typed types →
            (∀ other ∈ others, other.1.Unrepeated ∧ other.2.Unrepeated) →
            (map entries == map others) = true → (map others == map entries) = true) ↔
          (map entries).Apart) := by
  refine ⟨fun a b ha hb hua hub => beq_comm_of_typed ha hb hua hub, ?_⟩
  intro entries htyped hentries
  constructor
  · intro hturn
    by_contra hrepeated
    obtain ⟨others, hothers, hunrepeated, hequal, hunequal⟩ :=
      exists_unlike htyped hentries hrepeated
    rw [hturn others hothers hunrepeated hequal] at hunequal
    cases hunequal
  · intro hapart others hothers hunrepeated hequal
    obtain ⟨hlength, hmet⟩ := map_beq_map_iff.mp hequal
    have hcomm : ∀ entry ∈ entries, ∀ other ∈ others, (entry == other) = (other == entry) :=
      fun entry hentry other hother => entry_beq_comm
        (beq_comm_of_typed (htyped.key hentry) (hothers.key hother) (hentries entry hentry).1
          (hunrepeated other hother).1)
        (beq_comm_of_typed (htyped.value hentry) (hothers.value hother)
          (hentries entry hentry).2.1 (hunrepeated other hother).2)
    exact map_beq_map_iff.mpr
      ⟨hlength.symm, met_of_apart htyped hothers hcomm hlength hapart hmet⟩

/-! ### A map in another order, and one that repeats an entry -/

namespace Reordered

def board : Descriptor := ⟨"Board", none, [⟨"marks", .map .string .integer, true⟩]⟩

def table : TypeTable := TypeTable.empty.insert board

/-- A board with marks, and a label. -/
def marked (entries : List (Value × Value)) (label : Option Nat) : Value :=
  model ⟨board, [("marks", map entries)], label⟩

def first : Value :=
  map [(string "a", marked [(string "x", integer 1), (string "y", integer 2)] none),
    (string "b", list [float (-0.0)])]

def second : Value :=
  map [(string "b", list [float 0.0]),
    (string "a", marked [(string "y", integer 2), (string "x", integer 1)] (some 1))]

def doubled : List (Value × Value) :=
  [(string "a", marked [(string "x", integer 1)] none),
    (string "a", marked [(string "x", integer 1)] (some 2))]

theorem beq_comm_of_unrepeated_reordered :
    (first.Typed table ∧ second.Typed table ∧ first.Unrepeated ∧ second.Unrepeated ∧
      (first == second) = true ∧ (second == first) = true) ∧
    (map doubled).Typed table ∧
      (∀ entry ∈ doubled,
        entry.1.Unrepeated ∧ entry.2.Unrepeated ∧ (entry == entry) = true) ∧
      ∃ others, (map doubled == map others) = true ∧ (map others == map doubled) = false := by
  obtain ⟨hcomm, hturn⟩ := beq_comm_of_unrepeated table
  have hfirst : first.Typed table ∧ first.Unrepeated := by decide +kernel
  have hsecond : second.Typed table ∧ second.Unrepeated := by decide +kernel
  have hequal : (first == second) = true := by decide +kernel
  have htyped : (map doubled).Typed table := by decide +kernel
  have hentries : ∀ entry ∈ doubled,
      entry.1.Unrepeated ∧ entry.2.Unrepeated ∧ (entry == entry) = true := by decide +kernel
  have hrepeated : ¬ (map doubled).Apart := by decide +kernel
  refine ⟨⟨hfirst.1, hsecond.1, hfirst.2, hsecond.2, hequal, ?_⟩, htyped, hentries, ?_⟩
  · rw [← hcomm first second hfirst.1 hsecond.1 hfirst.2 hsecond.2, hequal]
  · -- otherwise every equality could be turned around
    by_contra hnone
    refine hrepeated ((hturn doubled htyped hentries).mp fun others _ _ hsame => ?_)
    by_contra hother
    exact hnone ⟨others, hsame, Bool.eq_false_iff.mpr hother⟩

end Reordered

/-- A map with one entry twice equals a map with two entries, which does not equal it. -/
theorem beq_of_repeated :
    (map [(string "x", integer 1), (string "x", integer 1)] ==
        map [(string "x", integer 1), (string "y", integer 2)]) = true ∧
      (map [(string "x", integer 1), (string "y", integer 2)] ==
        map [(string "x", integer 1), (string "x", integer 1)]) = false := by
  decide

end Value

end Remodel
