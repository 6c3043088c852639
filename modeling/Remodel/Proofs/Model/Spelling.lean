import Remodel.Proofs.Model.Coercing
import Remodel.Proofs.Text.Numerals

/-!
# Values through their texts

Integers, truth values, variants and texts are read back from the texts that they are coerced to,
and so are lists and maps of them, at any depth (`coerce_spelled`).

## Strategy

The values that stand under one key of a map are those with a text of their own (`Value.isKey`).
Coerced to a text they give the one that is shown of them (`coerce_string_of_isKey`), and their kind
reads it back (`coerce_display`).  Lists and maps follow by induction on the kind.  Both coercions
of a list go through its elements one by one, so that a list of texts goes with each list.
-/

namespace Remodel

namespace Value

/-- The number of a float. -/
def float? : Value → Option Float
  | float x => some x
  | _ => none

/-- Whether the value is of a kind whose values are read back from their texts. -/
def isKey : Value → Bool
  | string _ | integer _ | float _ | boolean _ | enum _ => true
  | _ => false

end Value

/-! ## Values with a text of their own -/

open Value

theorem plain_of_isKey {key : Value} (hkey : key.isKey = true) :
    key.model? = none ∧ key.isCollection = false := by
  cases key <;> simp_all [isKey, model?, isCollection]

/-- A key is read back from its text. -/
theorem coerce_display {kind : Kind} {key : Value} (hkey : key.isKey = true)
    (hfinite : ∀ x ∈ key.float?, x.isFinite = true)
    (hnumeral : ∀ x ∈ key.float?, Decimal.read? (Decimal.plain.text x) = some x)
    (haccepts : kind.accepts key = true) : kind.coerce (.string key.display) = .ok key := by
  cases key with
  | string s =>
      cases kind with
      | string => simp [Kind.coerce, Value.display, haccepts]
      | _ => exact absurd haccepts Bool.false_ne_true
  | integer i =>
      cases kind with
      | integer => simp [Kind.coerce, Value.display, Text.trim_ofInt64, Text.int64?_ofInt64]
      | _ => exact absurd haccepts Bool.false_ne_true
  | float x =>
      cases kind with
      | float =>
          have htrim := Decimal.trim_text_plain (hfinite x rfl)
          simp [Kind.coerce, Value.display, htrim, hnumeral x rfl]
      | _ => exact absurd haccepts Bool.false_ne_true
  | boolean b =>
      cases kind with
      | boolean => cases b <;> rfl
      | _ => exact absurd haccepts Bool.false_ne_true
  | enum name =>
      cases kind with
      | enum variants =>
          have hvariant : name ∈ variants := List.contains_iff_mem.mp haccepts
          simp [Kind.coerce, Value.display, Kind.variant, hvariant]
      | _ => exact absurd haccepts Bool.false_ne_true
  | _ => cases hkey

namespace Kind

theorem coerce_string_of_isKey {key : Value} (hkey : key.isKey = true) :
    string.coerce key = .ok (.string key.display) := by
  cases key with
  | string s => rfl
  | integer i => rfl
  | float x => rfl
  | boolean b => rfl
  | enum name => rfl
  | _ => cases hkey

/-! ## Kinds of spellable values -/

/-- Whether the kind is made of texts, integers, truth values and variants by lists and maps. -/
def isSpellable : Kind → Bool
  | string | integer | boolean | enum _ => true
  | list item => item.isSpellable
  | map key value => key.isSpellable && value.isSpellable
  | _ => false

/-- The kind with texts in place of integers, truth values and variants. -/
def spelled : Kind → Kind
  | integer | boolean | enum _ => string
  | list item => list item.spelled
  | map key value => map key.spelled value.spelled
  | kind => kind

/-- A value goes to another one of the kind of its texts, and comes back from there. -/
def SpelledAs (kind : Kind) (value spelling : Value) : Prop :=
  kind.spelled.coerce value = .ok spelling ∧ kind.coerce spelling = .ok value

variable {kind : Kind} {value : Value}

/-- What is spelled as one text has a text of its own, and is no float. -/
theorem isKey_of_accepts (hspelled : kind.spelled = string) (haccepts : kind.accepts value = true) :
    value.isKey = true ∧ value.float? = none := by
  cases kind <;> try cases hspelled
  all_goals cases value <;> first | exact ⟨rfl, rfl⟩ | cases haccepts

theorem exists_spelledAs_text (hspelled : kind.spelled = string)
    (haccepts : kind.accepts value = true) : ∃ spelling, kind.SpelledAs value spelling := by
  obtain ⟨hkey, hfloat⟩ := isKey_of_accepts hspelled haccepts
  refine ⟨.string value.display, hspelled ▸ coerce_string_of_isKey hkey,
    coerce_display hkey ?_ ?_ haccepts⟩
  · simp [hfloat]
  · simp [hfloat]

theorem exists_spelledAs_list {item : Kind} {items : List Value}
    (h : ∀ held ∈ items, ∃ spelling, item.SpelledAs held spelling) :
    ∃ spelling, (list item).SpelledAs (.list items) spelling := by
  obtain ⟨spellings, hspellings⟩ := exists_forall₂ h
  refine ⟨.list spellings, ?_, ?_⟩
  · exact coerce_list_eq_ok_iff.mpr ⟨items, spellings, rfl, rfl, hspellings.imp fun _ _ h => h.1⟩
  · exact coerce_list_eq_ok_iff.mpr
      ⟨spellings, items, rfl, rfl, (hspellings.imp fun _ _ h => h.2).flip⟩

theorem exists_spelledAs_map {key own : Kind} {entries : List (Value × Value)}
    (hkeys : ∀ entry ∈ entries, ∃ spelling, key.SpelledAs entry.1 spelling)
    (hvalues : ∀ entry ∈ entries, ∃ spelling, own.SpelledAs entry.2 spelling) :
    ∃ spelling, (map key own).SpelledAs (.map entries) spelling := by
  have hentries : ∀ entry ∈ entries, ∃ spelling : Value × Value,
      key.SpelledAs entry.1 spelling.1 ∧ own.SpelledAs entry.2 spelling.2 := by
    intro entry hentry
    obtain ⟨k, hk⟩ := hkeys entry hentry
    obtain ⟨v, hv⟩ := hvalues entry hentry
    exact ⟨(k, v), hk, hv⟩
  obtain ⟨spellings, hspellings⟩ := exists_forall₂ hentries
  refine ⟨.map spellings, ?_, ?_⟩
  · exact coerce_map_eq_ok_iff.mpr
      ⟨entries, spellings, rfl, rfl, hspellings.imp fun _ _ h => ⟨h.1.1, h.2.1⟩⟩
  · refine coerce_map_eq_ok_iff.mpr ⟨spellings, entries, rfl, rfl, ?_⟩
    exact List.Forall₂.flip (hspellings.imp fun _ _ h => ⟨h.1.2, h.2.2⟩)

/-- **Going through texts loses nothing.**  A value of texts, integers, truth values and variants in
lists and maps is coerced to the same lists and maps of texts, and these are coerced back to it. -/
theorem coerce_spelled (hkind : kind.isSpellable = true) (haccepts : kind.accepts value = true) :
    ∃ spelling, kind.spelled.coerce value = .ok spelling ∧ kind.coerce spelling = .ok value := by
  induction kind generalizing value with
  | string => exact exists_spelledAs_text rfl haccepts
  | integer => exact exists_spelledAs_text rfl haccepts
  | boolean => exact exists_spelledAs_text rfl haccepts
  | enum variants => exact exists_spelledAs_text rfl haccepts
  | list item ih =>
      obtain ⟨items, rfl, hitems⟩ := accepts_list_iff.mp haccepts
      exact exists_spelledAs_list fun held hheld => ih hkind (hitems held hheld)
  | map key own ihkey ihown =>
      obtain ⟨hkey, hown⟩ := Bool.and_eq_true_iff.mp hkind
      obtain ⟨entries, rfl, hentries⟩ := accepts_map_iff.mp haccepts
      exact exists_spelledAs_map (fun entry hentry => ihkey hkey (hentries entry hentry).1)
        fun entry hentry => ihown hown (hentries entry hentry).2
  | _ => cases hkind

/-- Names that look like numbers and truth values, and the least and the greatest integer. -/
theorem coerce_spelled_places :
    let kind := map (enum ["7", "IN PROGRESS", "true"]) (list (map integer (list boolean)))
    let value := Value.map [(.enum "7", .list []),
      (.enum "IN PROGRESS", .list [.map [(.integer (-0x8000000000000000), .list [.boolean true]),
        (.integer 0x7fffffffffffffff, .list [])], .map []]), (.enum "7", .list [.map []])]
    kind.accepts value = true ∧
      ∃ spelling, kind.spelled.coerce value = .ok spelling ∧ kind.coerce spelling = .ok value :=
  ⟨rfl, coerce_spelled rfl rfl⟩

end Kind

end Remodel
