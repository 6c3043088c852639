import Remodel.Proofs.Model.Equivalence

/-!
# Equality is a preorder on values without NaN

A float that is not a number equals nothing, not even itself, and it is all that keeps a value from
being equal to itself (`beq_self_of_numeric`): each field of a model and each element of a list is
compared with itself, and each entry of a map is met in the map, where it stands.  With the
transitivity of equality on values whose models have their types from one table, equality is a
preorder on the values without NaN; it is not symmetric where maps repeat an entry.
-/

namespace Remodel

namespace Value

/-- Whether no float in a value, at any depth, is NaN. -/
def Numeric (value : Value) : Prop := value.Throughout fun part => part.isNaN = false

instance : DecidablePred Numeric := fun value =>
  inferInstanceAs (Decidable (value.Throughout fun part => part.isNaN = false))

/-- Not a number: equal to nothing, from either side. -/
theorem beq_eq_false_of_isNaN {x : Float} (h : x.isNaN = true) (value : Value) :
    (float x == value) = false ∧ (value == float x) = false := by
  cases value with
  | float y =>
      constructor
      · refine Bool.eq_false_iff.mpr fun hsame => ?_
        have hnumber : x.isNaN = false := (compare_eq_iff.mp (float_beq_iff.mp hsame)).1
        exact absurd (h.symm.trans hnumber) (by decide)
      · refine Bool.eq_false_iff.mpr fun hsame => ?_
        have hnumber : x.isNaN = false :=
          (compare_eq_iff.mp (float_beq_iff.mp (float_beq_symm hsame))).1
        exact absurd (h.symm.trans hnumber) (by decide)
  | _ => exact ⟨rfl, rfl⟩

/-- A value without NaN equals itself. -/
theorem beq_self_of_numeric {value : Value} (h : value.Numeric) : (value == value) = true := by
  induction value using nested_induction with
  | plain value hmodel hplain => exact sameValue_self_of_plain hmodel hplain h.self false
  | model m ih =>
      rw [model_beq_model, Model.beq_iff]
      refine ⟨rfl, fun field _ => ?_⟩
      cases hheld : m.get? field.name with
      | none => rfl
      | some held => exact ih field.name held hheld (h.field hheld)
  | list items ih =>
      refine list_beq_list_iff.mpr ⟨rfl, fun i hi _ => ?_⟩
      have hitem : items[i] ∈ items := List.getElem_mem hi
      exact ih items[i] hitem (h.item hitem)
  | map entries ih =>
      refine map_beq_map_iff.mpr ⟨rfl, fun entry hentry => ⟨entry, hentry, ?_⟩⟩
      obtain ⟨hkey, hvalue⟩ := ih entry hentry
      exact entry_beq_iff.mpr ⟨hkey (h.key hentry), hvalue (h.value hentry)⟩

/-- **Equality is transitive, and reflexive without NaN.**  It is transitive on the values whose
models have their types from one table, whatever maps they hold.  Every value in which no NaN occurs
equals itself, and a NaN equals nothing. -/
theorem beq_trans_and_refl (types : TypeTable) :
    (∀ a b c : Value, a.Typed types → b.Typed types → c.Typed types →
        (a == b) = true → (b == c) = true → (a == c) = true) ∧
      (∀ a : Value, a.Numeric → (a == a) = true) ∧
      ∀ x : Float, x.isNaN = true → ∀ value : Value,
        (float x == value) = false ∧ (value == float x) = false :=
  ⟨fun _ _ _ ha hb hc hab hbc => beq_trans_of_typed ha hb hc hab hbc,
    fun _ h => beq_self_of_numeric h, fun _ h value => beq_eq_false_of_isNaN h value⟩

/-! ## Maps that are met from one side only -/

namespace Turned

def tag : Descriptor := ⟨"Tag", none, [⟨"weights", .map .string .float, true⟩]⟩

def table : TypeTable := TypeTable.empty.insert tag

/-- A tag with an entry of weight, which is repeated or not, and a label. -/
def weighed (entries : List (Value × Value)) (label : Option Nat) : Value :=
  model ⟨tag, [("weights", map entries)], label⟩

def twice : Value :=
  list [map [(weighed [(string "x", float 1.5), (string "x", float 1.5)] none, integer 1)]]

def once : Value :=
  list [map [(weighed [(string "x", float 1.5), (string "y", float (-0.0))] (some 3), integer 1)]]

def other : Value :=
  list [map [(weighed [(string "y", float 0.0), (string "x", float 1.5)] (some 4), integer 1)]]

/-- Inside a map the maps are compared the other way round: the one with a repeated entry stands on
the left then, where it equals more. -/
theorem beq_trans_and_refl_turned :
    (other == once) = true ∧ (once == twice) = true ∧ (other == twice) = true ∧
      (once == once) = true ∧ (float (0.0 / 0.0) == float (0.0 / 0.0)) = false := by
  obtain ⟨htrans, hrefl, hnan⟩ := beq_trans_and_refl table
  have hfirst : (other == once) = true := by decide +kernel
  have hsecond : (once == twice) = true := by decide +kernel
  refine ⟨hfirst, hsecond, ?_, hrefl once (by decide +kernel), (hnan _ (by decide +kernel) _).1⟩
  exact htrans other once twice (by decide +kernel) (by decide +kernel) (by decide +kernel) hfirst
    hsecond

end Turned

end Value

end Remodel
