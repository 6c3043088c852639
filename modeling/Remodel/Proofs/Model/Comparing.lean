import Remodel.Model.Equality
import Remodel.Proofs.Model.Parts
import Remodel.Proofs.Trace

/-!
# Comparing values

What it means that two values compare equal, one rule for each kind of value.  Floats are compared
as numbers, models by their declared fields, lists element by element.  Two maps are equal when
they have equally many entries and each entry of the first is met in the second, the entry of the
second standing on the left then (`map_beq_map_iff`).

The comparison is computed with a flag that says on which side its first argument stands.
`sameValue_flip` shows that the flag does what it says, and the rules after it are stated without
it.
-/

namespace Remodel

open Float.Model (UnpackedFloat)

/-! ## Floats -/

theorem compare_sign_eq_iff {s t : UnpackedFloat.Sign} : compare s t = .eq ↔ s = t := by
  constructor
  · cases s <;> cases t
    · exact fun _ => rfl
    · exact nofun
    · exact nofun
    · exact fun _ => rfl
  · rintro rfl
    cases s <;> rfl

theorem compare_finite_eq_iff {s t : UnpackedFloat.Sign} {m n : Nat} {e f : Int} {hm : 0 < m}
    {hn : 0 < n} :
    (UnpackedFloat.finite s m e hm).compare (.finite t n f hn) = some .eq ↔
      UnpackedFloat.finite s m e hm = .finite t n f hn := by
  have hthen : (compare e f).then (compare m n) = .eq ↔ m = n ∧ e = f := by
    rw [Ordering.then_eq_eq, Std.LawfulEqCmp.compare_eq_iff_eq,
      Std.LawfulEqCmp.compare_eq_iff_eq, and_comm]
  rw [UnpackedFloat.finite.injEq]
  cases s <;> cases t
  · show some ((compare e f).then (compare m n)).swap = some .eq ↔ _
    rw [Option.some_inj, Ordering.swap_eq_eq, hthen]
    exact (and_iff_right rfl).symm
  · exact ⟨nofun, nofun⟩
  · exact ⟨nofun, nofun⟩
  · show some ((compare e f).then (compare m n)) = some .eq ↔ _
    rw [Option.some_inj, hthen]
    exact (and_iff_right rfl).symm

/-- Two numbers compare equal when they are the same, or zeros of either sign. -/
theorem compare_eq_iff {x y : UnpackedFloat} :
    x.compare y = some .eq ↔ x.isNaN = false ∧ (x = y ∨ ∃ s t, x = .zero s ∧ y = .zero t) := by
  constructor
  · intro h
    cases x with
    | notANumber => cases h
    | infinity s =>
        cases y with
        | infinity t =>
            obtain rfl : s = t := compare_sign_eq_iff.mp (Option.some.inj h)
            exact ⟨rfl, Or.inl rfl⟩
        | _ => cases s <;> cases h
    | zero s =>
        cases y with
        | zero t => exact ⟨rfl, Or.inr ⟨s, t, rfl, rfl⟩⟩
        | notANumber => cases h
        | infinity t => cases t <;> cases h
        | finite t => cases t <;> cases h
    | finite s =>
        cases y with
        | finite t => exact ⟨rfl, Or.inl (compare_finite_eq_iff.mp h)⟩
        | infinity t => cases s <;> cases t <;> cases h
        | _ => cases s <;> cases h
  · rintro ⟨hnumber, rfl | ⟨s, t, rfl, rfl⟩⟩
    · cases x with
      | notANumber => cases hnumber
      | infinity s => exact congrArg some (compare_sign_eq_iff.mpr rfl)
      | zero s => rfl
      | finite s => exact compare_finite_eq_iff.mpr rfl
    · rfl

theorem float_beq_iff {x y : Float} :
    (x == y) = true ↔ x.toModel.unpack.compare y.toModel.unpack = some .eq := by
  change (_ == some Ordering.eq) = true ↔ _
  rw [beq_iff_eq]

/-- A number equals itself. -/
theorem float_beq_self {x : Float} (h : x.isNaN = false) : (x == x) = true :=
  float_beq_iff.mpr (compare_eq_iff.mpr ⟨h, Or.inl rfl⟩)

theorem float_beq_symm {x y : Float} (h : (x == y) = true) : (y == x) = true := by
  rw [float_beq_iff, compare_eq_iff] at h ⊢
  obtain ⟨hnumber, hsame | ⟨s, t, hx, hy⟩⟩ := h
  · exact ⟨hsame ▸ hnumber, Or.inl hsame.symm⟩
  · exact ⟨by rw [hy]; rfl, Or.inr ⟨t, s, hy, hx⟩⟩

theorem float_beq_trans {x y z : Float} (hxy : (x == y) = true) (hyz : (y == z) = true) :
    (x == z) = true := by
  rw [float_beq_iff, compare_eq_iff] at hxy hyz ⊢
  refine ⟨hxy.1, ?_⟩
  rcases hxy.2 with hsame | ⟨s, t, hx, hy⟩
  · rw [hsame]
    exact hyz.2
  · rcases hyz.2 with hsame | ⟨s', t', -, hz⟩
    · exact Or.inr ⟨s, t, hx, hsame ▸ hy⟩
    · exact Or.inr ⟨s, t', hx, hz⟩

/-- Whether a value is a float that is not a number. -/
def Value.isNaN : Value → Bool
  | .float x => x.isNaN
  | _ => false

/-! ## The flag -/

theorem sameField_eq (flipped : Bool) (field : String) (values : List (String × Value))
    (other : Option Value) :
    sameField flipped field values other =
      match values.lookup field, other with
      | some value, some otherValue => sameValue flipped value otherValue
      | none, none => true
      | _, _ => false := by
  induction values with
  | nil => cases other <;> rfl
  | cons entry rest ih =>
      obtain ⟨name, value⟩ := entry
      rw [sameField.eq_def]
      by_cases hname : name = field
      · subst hname
        cases other <;> simp
      · simp only [if_neg hname, ih, Table.lookup_cons_of_ne value rest (Ne.symm hname)]

/-- Whether two fields that may hold nothing agree, on the side that the flag says. -/
def sameHeld (flipped : Bool) : Option Value → Option Value → Bool
  | some a, some b => sameValue flipped a b
  | none, none => true
  | _, _ => false

theorem sameModel_eq (flipped : Bool) (a b : Model) :
    sameModel flipped a b = (a.typeId = b.typeId &&
      (if flipped then b.descriptor.fields else a.descriptor.fields).all fun field =>
        sameHeld flipped (a.get? field.name) (b.get? field.name)) := by
  obtain ⟨descriptor, values, label⟩ := a
  rw [sameModel]
  refine congrArg _ (List.all_congr rfl fun field => ?_)
  rw [sameField_eq]
  rfl

theorem entriesWithin_eq (entries others : List (Value × Value)) :
    entriesWithin entries others = entries.all fun entry =>
      others.any fun other => sameValue true entry.1 other.1 && sameValue true entry.2 other.2 := by
  induction entries with
  | nil => rfl
  | cons entry rest ih =>
      rw [entriesWithin, ih]
      rfl

theorem hasEntry_eq (entries : List (Value × Value)) (other : Value × Value) :
    hasEntry entries other =
      entries.any fun entry =>
        sameValue false entry.1 other.1 && sameValue false entry.2 other.2 := by
  induction entries with
  | nil => rfl
  | cons entry rest ih =>
      rw [hasEntry, ih]
      rfl

theorem sameItems_flip {items : List Value}
    (h : ∀ item ∈ items, ∀ other flipped,
      sameValue flipped item other = sameValue (!flipped) other item)
    (others : List Value) (flipped : Bool) :
    sameItems flipped items others = sameItems (!flipped) others items := by
  induction items generalizing others with
  | nil => cases others <;> rfl
  | cons item rest ih =>
      cases others with
      | nil => rfl
      | cons other others =>
          rw [sameItems, sameItems, h item (List.mem_cons_self ..),
            ih fun held hheld => h held (List.mem_cons_of_mem item hheld)]

theorem sameValue_map_flip {entries : List (Value × Value)}
    (h : ∀ entry ∈ entries, ∀ (other : Value × Value) flipped,
      (sameValue flipped entry.1 other.1 && sameValue flipped entry.2 other.2) =
        (sameValue (!flipped) other.1 entry.1 && sameValue (!flipped) other.2 entry.2))
    (others : List (Value × Value)) (flipped : Bool) :
    sameValue flipped (.map entries) (.map others) =
      sameValue (!flipped) (.map others) (.map entries) := by
  rw [sameValue, sameValue]
  refine congrArg₂ (· && ·) (by simp only [eq_comm]) (Bool.eq_iff_iff.mpr ?_)
  -- the containment that is checked is the same, with the sides of its entries changed
  cases flipped with
  | false =>
      change entriesWithin entries others = true ↔ entries.all (hasEntry others) = true
      rw [entriesWithin_eq, List.all_eq_true, List.all_eq_true]
      refine forall₂_congr fun entry hmem => ?_
      simp only [hasEntry_eq, h entry hmem _ true, Bool.not_true]
  | true =>
      change others.all (hasEntry entries) = true ↔ entriesWithin others entries = true
      rw [entriesWithin_eq, List.all_eq_true, List.all_eq_true]
      refine forall₂_congr fun other _ => ?_
      rw [hasEntry_eq, List.any_eq_true, List.any_eq_true]
      refine exists_congr fun entry => and_congr_right fun hmem => ?_
      rw [h entry hmem other false, Bool.not_false]

/-- The flag says on which side the first value stands. -/
theorem sameValue_flip (a b : Value) (flipped : Bool) :
    sameValue flipped a b = sameValue (!flipped) b a := by
  induction a using Value.nested_induction generalizing b flipped with
  | plain a hmodel hplain =>
      cases a with
      | model m => cases hmodel
      | list items => cases hplain
      | map entries => cases hplain
      | float x =>
          cases b with
          | float y => cases flipped <;> simp [sameValue]
          | _ => simp [sameValue]
      | _ => cases b <;> simp [sameValue, eq_comm]
  | model m ih =>
      cases b with
      | model n =>
          have hheld : ∀ name, sameHeld flipped (m.get? name) (n.get? name) =
              sameHeld (!flipped) (n.get? name) (m.get? name) := by
            intro name
            cases hm : m.get? name <;> cases n.get? name
            · rfl
            · rfl
            · rfl
            · exact ih name _ hm _ flipped
          simp only [sameValue, sameModel_eq, hheld, eq_comm]
          cases flipped <;> rfl
      | _ => simp [sameValue]
  | list items ih =>
      cases b with
      | list others =>
          rw [sameValue, sameValue]
          exact sameItems_flip ih others flipped
      | _ => simp [sameValue]
  | map entries ih =>
      cases b with
      | map others =>
          refine sameValue_map_flip (fun entry hmem other flipped => ?_) others flipped
          rw [(ih entry hmem).1, (ih entry hmem).2]
      | _ => simp [sameValue]

/-! ## The rules -/

theorem sameValue_true_eq (a b : Value) : sameValue true a b = (b == a) := sameValue_flip a b true

/-- What is no model, list or map equals only itself, floats apart. -/
theorem eq_or_floats_of_beq {a b : Value} (hmodel : b.model? = none)
    (hplain : b.isCollection = false) (h : (a == b) = true) :
    a = b ∨ ∃ x y, a = .float x ∧ b = .float y ∧ (x == y) = true := by
  change sameValue false a b = true at h
  cases b with
  | model m => cases hmodel
  | list items => cases hplain
  | map entries => cases hplain
  | float y =>
      cases a with
      | float x => exact Or.inr ⟨x, y, rfl, rfl, h⟩
      | _ => exact absurd h Bool.false_ne_true
  | _ => cases a <;> simp_all [sameValue]

/-- What is no model, list or map equals itself from either side, NaN apart. -/
theorem sameValue_self_of_plain {value : Value} (hmodel : value.model? = none)
    (hplain : value.isCollection = false) (hnumber : value.isNaN = false) (flipped : Bool) :
    sameValue flipped value value = true := by
  cases value with
  | model m => cases hmodel
  | list items => cases hplain
  | map entries => cases hplain
  | float x =>
      have hself : (x == x) = true := float_beq_self hnumber
      simp [sameValue, hself]
  | _ => simp [sameValue]

theorem Model.beq_iff {m n : Model} : (m == n) = true ↔ m.typeId = n.typeId ∧
    ∀ field ∈ m.descriptor.fields, (m.get? field.name == n.get? field.name) = true := by
  change sameModel false m n = true ↔ _
  rw [sameModel_eq, Bool.and_eq_true, decide_eq_true_eq, if_neg Bool.false_ne_true,
    List.all_eq_true]
  refine and_congr_right fun _ => forall₂_congr fun field _ => ?_
  cases m.get? field.name <;> cases n.get? field.name <;> rfl

theorem model_beq_model (m n : Model) : (Value.model m == .model n) = (m == n) := rfl

/-- Lists are equal when they are equally long and equal at each place. -/
theorem list_beq_list_iff {items others : List Value} :
    (Value.list items == .list others) = true ↔ items.length = others.length ∧
      ∀ i (h : i < items.length) (h' : i < others.length), (items[i] == others[i]) = true := by
  have hitems : (Value.list items == .list others) = (items == others) := by
    change sameItems false items others = _
    induction items generalizing others with
    | nil => cases others <;> rfl
    | cons item rest ih =>
        cases others with
        | nil => rfl
        | cons other others =>
            rw [sameItems, ih]
            rfl
  rw [hitems, List.beq_eq_decide]
  by_cases hlength : items.length = others.length <;> simp [hlength]

theorem entry_beq_iff {entry other : Value × Value} :
    (entry == other) = true ↔ (entry.1 == other.1) = true ∧ (entry.2 == other.2) = true :=
  Bool.and_eq_true_iff

/-- Maps are equal when they have equally many entries and each entry of the first is met in the
second. -/
theorem map_beq_map_iff {entries others : List (Value × Value)} :
    (Value.map entries == .map others) = true ↔ entries.length = others.length ∧
      ∀ entry ∈ entries, ∃ other ∈ others, (other == entry) = true := by
  change sameValue false (.map entries) (.map others) = true ↔ _
  rw [sameValue, if_neg Bool.false_ne_true, entriesWithin_eq, Bool.and_eq_true, decide_eq_true_eq,
    List.all_eq_true]
  refine and_congr_right fun _ => forall₂_congr fun entry _ => ?_
  simp only [List.any_eq_true, sameValue_true_eq]
  rfl

/-! ## Equal from either side -/

/-- Models are the same when they are of one type and their declared fields are. -/
theorem sameModel_of_fields {flipped : Bool} {a b : Model} (htype : a.descriptor = b.descriptor)
    (h : ∀ field ∈ b.descriptor.fields,
      sameField flipped field.name a.values (b.get? field.name) = true) :
    sameModel flipped a b = true := by
  obtain ⟨descriptor, values, label⟩ := a
  obtain rfl : descriptor = b.descriptor := htype
  rw [sameModel]
  simpa [Instance.typeId] using h

/-- Two entries with the same keys and the same values, the first on either side. -/
def SameEntry (a b : Value × Value) : Prop :=
  ∀ flipped, sameValue flipped a.1 b.1 = true ∧ sameValue flipped a.2 b.2 = true

theorem SameEntry.beq {entry other : Value × Value} (h : SameEntry entry other) :
    (entry == other) = true :=
  entry_beq_iff.mpr (h false)

theorem SameEntry.beq_symm {entry other : Value × Value} (h : SameEntry entry other) :
    (other == entry) = true := by
  have hflipped := h true
  rw [sameValue_true_eq, sameValue_true_eq] at hflipped
  exact entry_beq_iff.mpr hflipped

/-- Maps are the same when the entries of one are those of the other in some order. -/
theorem sameValue_map_of_perm {flipped : Bool} {entries others arranged : List (Value × Value)}
    (h : List.Forall₂ SameEntry entries arranged) (hperm : arranged.Perm others) :
    sameValue flipped (.map entries) (.map others) = true := by
  have hlength : entries.length = others.length := h.length_eq.trans hperm.length_eq
  cases flipped with
  | false =>
      refine map_beq_map_iff.mpr ⟨hlength, fun entry hentry => ?_⟩
      obtain ⟨other, hother, hsame⟩ := exists_of_forall₂ h hentry
      exact ⟨other, hperm.mem_iff.mp hother, hsame.beq_symm⟩
  | true =>
      rw [sameValue_true_eq]
      refine map_beq_map_iff.mpr ⟨hlength.symm, fun other hother => ?_⟩
      have hflip : List.Forall₂ (fun other entry => SameEntry entry other) arranged entries :=
        h.flip
      obtain ⟨entry, hentry, hsame⟩ := exists_of_forall₂ hflip (hperm.mem_iff.mpr hother)
      exact ⟨entry, hentry, hsame.beq⟩

/-- Maps are the same when their entries are, one by one. -/
theorem sameValue_map {flipped : Bool} {entries others : List (Value × Value)}
    (h : List.Forall₂ SameEntry entries others) :
    sameValue flipped (.map entries) (.map others) = true :=
  sameValue_map_of_perm h (List.Perm.refl others)

end Remodel
