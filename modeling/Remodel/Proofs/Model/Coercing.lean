import Remodel.Model.Coercion
import Remodel.Proofs.Trace

/-!
# What coercion gives

A value that is taken to a kind is accepted by the kind, and taking it there again changes nothing.
Lists and maps keep their elements: as many, in the same order, each of them coerced
(`coerce_sound`).

## Strategy

`Kind.accepts` and `Kind.coerce` go down kind and value with case tables of their own.  They meet in
two lemmas, both by induction on the kind:

* what a kind accepts stays as it is (`coerce_of_accepts`);
* what comes of a coercion is accepted (`accepts_of_coerce`).

That coercing twice is coercing once follows from both.  Lists and maps are taken apart by
`coerce_list_eq_ok_iff` and `coerce_map_eq_ok_iff`, which also say that nothing but a list goes to a
list and nothing but a map to a map.
-/

namespace Remodel.Kind

open Value

/-! ## What is passed on -/

/-- What is passed on because the kind accepts it is accepted, and is the value itself. -/
theorem eq_of_passed {kind : Kind} {value result : Value} {fault : CoercionFault}
    (h : (if kind.accepts value then .ok value else .error fault) = Except.ok result) :
    kind.accepts value = true ∧ result = value := by
  split at h
  · rename_i haccepts
    exact ⟨haccepts, (Except.ok.inj h).symm⟩
  · cases h

theorem accepts_of_passed {kind : Kind} {value result : Value} {fault : CoercionFault}
    (h : (if kind.accepts value then .ok value else .error fault) = Except.ok result) :
    kind.accepts result = true := by
  obtain ⟨haccepts, rfl⟩ := eq_of_passed h
  exact haccepts

/-! ## Lists and maps -/

theorem coerce_list (item : Kind) (items : List Value) :
    (list item).coerce (.list items) =
      items.mapM item.coerce >>= fun results => .ok (.list results) := rfl

theorem coerce_map (key value : Kind) (entries : List (Value × Value)) :
    (map key value).coerce (.map entries) =
      (entries.mapM fun entry => do return (← key.coerce entry.1, ← value.coerce entry.2)) >>=
        fun results => .ok (.map results) := rfl

/-- What is coerced is a list, and every element of it is. -/
theorem coerce_list_eq_ok_iff {item : Kind} {value result : Value} :
    (list item).coerce value = .ok result ↔
      ∃ items results, value = .list items ∧ result = .list results ∧
        List.Forall₂ (fun held coerced => item.coerce held = .ok coerced) items results := by
  constructor
  · intro h
    cases value with
    | list items =>
        rw [coerce_list] at h
        obtain ⟨results, hresults, h⟩ := bind_eq_ok h
        exact ⟨items, results, rfl, (Except.ok.inj h).symm, mapM_eq_ok_iff.mp hresults⟩
    | _ => cases h
  · rintro ⟨items, results, rfl, rfl, hresults⟩
    rw [coerce_list, mapM_eq_ok_iff.mpr hresults]
    rfl

/-- The key and the value of an entry are coerced. -/
theorem coerce_entry_eq_ok_iff {key value : Kind} {entry result : Value × Value} :
    (do return (← key.coerce entry.1, ← value.coerce entry.2) : Except CoercionFault _) =
        .ok result ↔
      key.coerce entry.1 = .ok result.1 ∧ value.coerce entry.2 = .ok result.2 := by
  constructor
  · intro h
    obtain ⟨k, hk, h⟩ := bind_eq_ok h
    obtain ⟨v, hv, h⟩ := bind_eq_ok h
    obtain rfl := Except.ok.inj h
    exact ⟨hk, hv⟩
  · rintro ⟨hk, hv⟩
    rw [hk, ok_bind, hv]
    rfl

/-- What is coerced is a map, and every entry of it is. -/
theorem coerce_map_eq_ok_iff {key value : Kind} {entire result : Value} :
    (map key value).coerce entire = .ok result ↔
      ∃ entries results, entire = .map entries ∧ result = .map results ∧
        List.Forall₂ (fun entry coerced => key.coerce entry.1 = .ok coerced.1 ∧
          value.coerce entry.2 = .ok coerced.2) entries results := by
  constructor
  · intro h
    cases entire with
    | map entries =>
        rw [coerce_map] at h
        obtain ⟨results, hresults, h⟩ := bind_eq_ok h
        refine ⟨entries, results, rfl, (Except.ok.inj h).symm, ?_⟩
        exact (mapM_eq_ok_iff.mp hresults).imp fun _ _ => coerce_entry_eq_ok_iff.mp
    | _ => cases h
  · rintro ⟨entries, results, rfl, rfl, hresults⟩
    have hentries := mapM_eq_ok_iff.mpr (hresults.imp fun _ _ => coerce_entry_eq_ok_iff.mpr)
    rw [coerce_map, hentries]
    rfl

theorem accepts_list {item : Kind} {items : List Value} :
    (list item).accepts (.list items) = true ↔ ∀ held ∈ items, item.accepts held = true :=
  List.all_eq_true

theorem accepts_map {key value : Kind} {entries : List (Value × Value)} :
    (map key value).accepts (.map entries) = true ↔
      ∀ entry ∈ entries, key.accepts entry.1 = true ∧ value.accepts entry.2 = true :=
  List.all_eq_true.trans (forall₂_congr fun _ _ => Bool.and_eq_true_iff)

theorem accepts_list_iff {item : Kind} {value : Value} : (list item).accepts value = true ↔
    ∃ items, value = .list items ∧ ∀ held ∈ items, item.accepts held = true := by
  constructor
  · intro h
    cases value with
    | list items => exact ⟨items, rfl, accepts_list.mp h⟩
    | _ => cases h
  · rintro ⟨items, rfl, hitems⟩
    exact accepts_list.mpr hitems

theorem accepts_map_iff {key value : Kind} {entire : Value} :
    (map key value).accepts entire = true ↔ ∃ entries, entire = .map entries ∧
      ∀ entry ∈ entries, key.accepts entry.1 = true ∧ value.accepts entry.2 = true := by
  constructor
  · intro h
    cases entire with
    | map entries => exact ⟨entries, rfl, accepts_map.mp h⟩
    | _ => cases h
  · rintro ⟨entries, rfl, hentries⟩
    exact accepts_map.mpr hentries

/-! ## What is accepted -/

/-- What a kind accepts stays as it is. -/
theorem coerce_of_accepts {kind : Kind} {value : Value} (haccepts : kind.accepts value = true) :
    kind.coerce value = .ok value := by
  induction kind generalizing value with
  | list item ih =>
      obtain ⟨items, rfl, hitems⟩ := accepts_list_iff.mp haccepts
      refine coerce_list_eq_ok_iff.mpr ⟨items, items, rfl, rfl, ?_⟩
      exact List.forall₂_same.mpr fun held hheld => ih (hitems held hheld)
  | map key own ihkey ihown =>
      obtain ⟨entries, rfl, hentries⟩ := accepts_map_iff.mp haccepts
      refine coerce_map_eq_ok_iff.mpr ⟨entries, entries, rfl, rfl, ?_⟩
      exact List.forall₂_same.mpr fun entry hentry =>
        ⟨ihkey (hentries entry hentry).1, ihown (hentries entry hentry).2⟩
  | enum variants =>
      cases value with
      | enum name => exact if_pos haccepts
      | _ => exact absurd haccepts Bool.false_ne_true
  | _ =>
      cases value <;>
        first | exact absurd haccepts Bool.false_ne_true | exact if_pos haccepts

/-- What comes of looking up a variant is accepted by its enumeration. -/
theorem accepts_of_variant {variants : List String} {name : String} {result : Value}
    (h : variant variants name = .ok result) : (enum variants).accepts result = true := by
  unfold variant at h
  split at h
  · rename_i hname
    obtain rfl := Except.ok.inj h
    exact hname
  · cases h

/-- What comes of a coercion is accepted by the kind. -/
theorem accepts_of_coerce {kind : Kind} {value result : Value}
    (h : kind.coerce value = .ok result) : kind.accepts result = true := by
  induction kind generalizing value result with
  | list item ih =>
      obtain ⟨items, results, -, rfl, hresults⟩ := coerce_list_eq_ok_iff.mp h
      refine accepts_list_iff.mpr ⟨results, rfl, fun coerced hcoerced => ?_⟩
      obtain ⟨held, -, hheld⟩ := exists_of_forall₂ hresults.flip hcoerced
      exact ih hheld
  | map key own ihkey ihown =>
      obtain ⟨entries, results, -, rfl, hresults⟩ := coerce_map_eq_ok_iff.mp h
      refine accepts_map_iff.mpr ⟨results, rfl, fun coerced hcoerced => ?_⟩
      obtain ⟨entry, -, hkey, hown⟩ := exists_of_forall₂ hresults.flip hcoerced
      exact ⟨ihkey hkey, ihown hown⟩
  | enum variants =>
      cases value with
      | string s => exact accepts_of_variant h
      | enum name => exact accepts_of_variant h
      | _ => cases h
  | integer =>
      cases value with
      | string s =>
          rw [coerce] at h
          split at h
          · exact Except.ok.inj h ▸ rfl
          · cases h
      | _ => exact accepts_of_passed h
  | float =>
      cases value with
      | string s =>
          rw [coerce] at h
          split at h
          · exact Except.ok.inj h ▸ rfl
          · cases h
      | integer i => exact Except.ok.inj h ▸ rfl
      | _ => exact accepts_of_passed h
  | boolean =>
      cases value with
      | string s =>
          rw [coerce] at h
          split at h
          · exact Except.ok.inj h ▸ rfl
          · cases h
      | _ => exact accepts_of_passed h
  | string =>
      cases value with
      | integer i => exact Except.ok.inj h ▸ rfl
      | float x => exact Except.ok.inj h ▸ rfl
      | boolean b => exact Except.ok.inj h ▸ rfl
      | enum name => exact Except.ok.inj h ▸ rfl
      | _ => exact accepts_of_passed h
  | bytes => cases value <;> exact accepts_of_passed h
  | file => cases value <;> exact accepts_of_passed h
  | model typeId => cases value <;> exact accepts_of_passed h

/-- Nothing stands in what comes of coercing a value in which nothing stands. -/
theorem plain_of_coerce {kind : Kind} {value result : Value} (hmodel : value.model? = none)
    (hplain : value.isCollection = false) (h : kind.coerce value = .ok result) :
    result.model? = none ∧ result.isCollection = false := by
  have haccepts := accepts_of_coerce h
  cases kind with
  | list item =>
      obtain ⟨items, -, rfl, -⟩ := coerce_list_eq_ok_iff.mp h
      cases hplain
  | map key own =>
      obtain ⟨entries, -, rfl, -⟩ := coerce_map_eq_ok_iff.mp h
      cases hplain
  | model typeId =>
      -- a model comes of a model only
      cases value with
      | model m => cases hmodel
      | _ => cases h
  | _ => cases result <;> first | exact ⟨rfl, rfl⟩ | cases haccepts

/-- Only the kind of a list takes a list. -/
theorem exists_list_of_coerce {kind : Kind} {value result : Value} {items : List Value}
    (h : kind.coerce value = .ok result) (hitems : items ∈ value.items?) :
    ∃ item, kind = list item := by
  cases value with
  | list own =>
      cases kind with
      | list item => exact ⟨item, rfl⟩
      | _ => cases h
  | _ => cases hitems

/-- Only the kind of a map takes a map. -/
theorem exists_map_of_coerce {kind : Kind} {value result : Value}
    {entries : List (Value × Value)} (h : kind.coerce value = .ok result)
    (hentries : entries ∈ value.entries?) : ∃ key held, kind = map key held := by
  cases value with
  | map own =>
      cases kind with
      | map key held => exact ⟨key, held, rfl⟩
      | _ => cases h
  | _ => cases hentries

/-- **Coercion is sound.**  What comes of a coercion is accepted by the kind and is not changed by
coercing it again.  A list goes to a list and a map to a map, with as many elements in the same
order, each of them the coercion of its own element. -/
theorem coerce_sound {kind : Kind} {value result : Value} (h : kind.coerce value = .ok result) :
    kind.accepts result = true ∧ kind.coerce result = .ok result ∧
    (∀ items ∈ value.items?, ∃ item ∈ kind.item?, ∃ results ∈ result.items?,
      List.Forall₂ (fun held coerced => item.coerce held = .ok coerced) items results) ∧
    ∀ entries ∈ value.entries?, ∃ kinds ∈ kind.entry?, ∃ results ∈ result.entries?,
      List.Forall₂ (fun entry coerced => kinds.1.coerce entry.1 = .ok coerced.1 ∧
        kinds.2.coerce entry.2 = .ok coerced.2) entries results := by
  have haccepts := accepts_of_coerce h
  refine ⟨haccepts, coerce_of_accepts haccepts, fun items hitems => ?_, fun entries hentries => ?_⟩
  · obtain ⟨item, rfl⟩ := exists_list_of_coerce h hitems
    obtain ⟨own, results, rfl, rfl, hresults⟩ := coerce_list_eq_ok_iff.mp h
    obtain rfl := Option.some.inj hitems
    exact ⟨item, rfl, results, rfl, hresults⟩
  · obtain ⟨key, held, rfl⟩ := exists_map_of_coerce h hentries
    obtain ⟨own, results, rfl, rfl, hresults⟩ := coerce_map_eq_ok_iff.mp h
    obtain rfl := Option.some.inj hentries
    exact ⟨(key, held), rfl, results, rfl, hresults⟩

/-- Numbers from texts as keys, and lists of truth values, variants and texts as lists of texts. -/
theorem coerce_sound_marks :
    let kind := map integer (list string)
    let result := Value.map [(.integer 42, .list [.string "true", .string "x"]),
      (.integer (-3), .list []), (.integer 42, .list [.string "OPEN"])]
    kind.coerce (.map [(.string " 42 ", .list [.boolean true, .string "x"]),
        (.string "-3", .list []), (.integer 42, .list [.enum "OPEN"])]) = .ok result ∧
      kind.accepts result = true ∧ kind.coerce result = .ok result := by
  intro kind result
  have h : kind.coerce (.map [(.string " 42 ", .list [.boolean true, .string "x"]),
      (.string "-3", .list []), (.integer 42, .list [.enum "OPEN"])]) = .ok result := rfl
  obtain ⟨haccepts, hagain, -, -⟩ := coerce_sound h
  exact ⟨h, haccepts, hagain⟩

end Remodel.Kind
