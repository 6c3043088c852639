import Remodel.Json.Decode
import Remodel.Proofs.Json.Written
import Remodel.Proofs.Trace

/-!
# Reading written JSON with a reader of its own

A reader of drafts that is given the text of a value reads what the value is a draft of
(`Legible.readText?_compact`).  Lists and tables are read back if their parts are
(`readEach_map`, `readEachMember_map`).

The *levels* of a value are the arrays and objects that stand inside one another in it.  What is
written for a value is read as a whole if its levels are allowed, and is taken for malformed
otherwise (`exists_toJsonWithin`).

## Strategy

Readers that count the levels give `within levels depth value`: the value, or the fault if the
levels do not fit into the depth.  Two of them, one after the other, are limited by the one that
nests deeper (`within_bind`), just as the levels of a list are the most that an item has.  So the
statement about a whole follows that about its parts, with no case distinction on what fits.
-/

namespace Remodel

namespace Json

open Draft

/-! ## Whole texts -/

section Texts

variable {α : Type} {read : Draft → Except JsonFault α} {json : Json}

theorem Legible.readText?_compact (h : json.Legible) :
    readText? read json.compact = read json.draft := by
  rw [readText?, h.ofText_compact]
  exact bind_pure (read json.draft)

theorem Legible.readText?_pretty (h : json.Legible) :
    readText? read json.pretty = read json.draft := by
  rw [readText?, h.ofText_pretty]
  exact bind_pure (read json.draft)

end Texts

/-! ## Levels -/

mutual

/-- How many arrays and objects stand inside one another. -/
def levels : Json → Nat
  | .array items => levelsOfItems items + 1
  | .object members => levelsOfMembers members + 1
  | _ => 0
termination_by structural json => json

/-- The most levels that an item has. -/
def levelsOfItems : List Json → Nat
  | [] => 0
  | item :: rest => max item.levels (levelsOfItems rest)
termination_by structural items => items

/-- The most levels that a member has. -/
def levelsOfMembers : List (String × Json) → Nat
  | [] => 0
  | (_, value) :: rest => max value.levels (levelsOfMembers rest)
termination_by structural members => members

end

/-! ## Induction on JSON -/

/-- A statement holds of all JSON when it passes to a value from its items and its members. -/
@[elab_as_elim]
theorem nested_induction {motive : Json → Prop}
    (step : ∀ json : Json, (∀ items ∈ json.items?, ∀ item ∈ items, motive item) →
      (∀ members ∈ json.members?, ∀ member ∈ members, motive member.2) → motive json)
    (json : Json) : motive json :=
  step json (fun _ _ item _ => nested_induction step item)
    fun _ _ member _ => nested_induction step member.2
termination_by sizeOf json
decreasing_by
  · rename_i items hitems hitem
    cases json with
    | array own =>
        obtain rfl := Option.some.inj hitems
        have hlt := List.sizeOf_lt_of_mem hitem
        simp only [Json.array.sizeOf_spec]
        omega
    | _ => cases hitems
  · rename_i members hmembers hmember
    cases json with
    | object own =>
        obtain rfl := Option.some.inj hmembers
        have hlt := List.sizeOf_lt_of_mem hmember
        obtain ⟨name, raw⟩ := member
        simp only [Json.object.sizeOf_spec, Prod.mk.sizeOf_spec] at hlt ⊢
        omega
    | _ => cases hmembers

end Json

namespace Draft

open Json

/-! ## Parts that are read alike -/

section Parts

variable {α : Type} {read : Draft → Except JsonFault α} {write : α → Json}

theorem readEach_map {items : List α} (h : ∀ item ∈ items, read (write item).draft = .ok item) :
    readEach read (items.map fun item => (write item).draft) = .ok items := by
  induction items with
  | nil => rfl
  | cons item rest ih =>
      obtain ⟨hitem, hrest⟩ := List.forall_mem_cons.mp h
      rw [List.map_cons, readEach, hitem, ih hrest]
      rfl

theorem readEachMember_map {entries : List (String × α)}
    (h : ∀ entry ∈ entries, read (write entry.2).draft = .ok entry.2) :
    readEachMember read (entries.map fun entry => (some entry.1, (write entry.2).draft)) =
      .ok entries := by
  induction entries with
  | nil => rfl
  | cons entry rest ih =>
      obtain ⟨hentry, hrest⟩ := List.forall_mem_cons.mp h
      rw [List.map_cons, readEachMember, hentry, ih hrest]
      rfl

end Parts

/-! ## Values that nest as deep as is allowed -/

/-- A value if its levels are allowed, and the fault of malformed JSON otherwise. -/
def within {α : Type} (levels depth : Nat) (value : α) : Except JsonFault α :=
  if levels ≤ depth then .ok value else .error .malformed

section Within

variable {α β : Type} {levels more depth : Nat}

theorem within_of_le {value : α} (h : levels ≤ depth) : within levels depth value = .ok value :=
  if_pos h

theorem within_congr {depth' : Nat} {value : α} (h : levels ≤ depth ↔ more ≤ depth') :
    within levels depth value = within more depth' value := by
  simp only [within, h]

/-- What is read from two values one after the other is limited by the one that nests deeper. -/
theorem within_bind {value : α} {result : β} (next : α → Except JsonFault β)
    (h : next value = within more depth result) :
    (within levels depth value >>= next) = within (max levels more) depth result := by
  by_cases hlevels : levels ≤ depth
  · have hmax : more ≤ depth ↔ max levels more ≤ depth := by omega
    calc within levels depth value >>= next
        = next value := by rw [within_of_le hlevels, ok_bind]
      _ = within (max levels more) depth result := by rw [h, within_congr hmax]
  · have hmax : ¬ max levels more ≤ depth := by omega
    rw [within, within, if_neg hlevels, if_neg hmax]
    rfl

theorem within_bind_ok {value : α} (make : α → β) :
    (within levels depth value >>= fun held => .ok (make held)) =
      within levels depth (make value) := by
  by_cases hlevels : levels ≤ depth
  · rw [within_of_le hlevels, within_of_le hlevels, ok_bind]
  · rw [within, within, if_neg hlevels, if_neg hlevels, error_bind]

theorem readEach_within {read : Draft → Except JsonFault α} {write : α → Json} {items : List α}
    (h : ∀ item ∈ items, read (write item).draft = within (write item).levels depth item) :
    readEach read (items.map fun item => (write item).draft) =
      within (levelsOfItems (items.map write)) depth items := by
  induction items with
  | nil => exact (within_of_le (Nat.zero_le depth)).symm
  | cons item rest ih =>
      obtain ⟨hitem, hrest⟩ := List.forall_mem_cons.mp h
      rw [List.map_cons, readEach, hitem, ih hrest]
      exact within_bind _ (within_bind_ok (item :: ·))

end Within

theorem exists_itemsToJson {items : List Json} {depth : Nat}
    (h : ∀ item ∈ items, ∃ value, item.draft.toJsonWithin depth = within item.levels depth value) :
    ∃ values, itemsToJson depth (items.map draft) = within (levelsOfItems items) depth values := by
  induction items with
  | nil => exact ⟨[], (within_of_le (Nat.zero_le depth)).symm⟩
  | cons item rest ih =>
      obtain ⟨hitem, hrest⟩ := List.forall_mem_cons.mp h
      obtain ⟨value, hvalue⟩ := hitem
      obtain ⟨values, hvalues⟩ := ih hrest
      refine ⟨value :: values, ?_⟩
      rw [List.map_cons, itemsToJson, hvalue, hvalues]
      exact within_bind _ (within_bind_ok (value :: ·))

theorem exists_membersToJson {members : List (String × Json)} {depth : Nat}
    (h : ∀ member ∈ members,
      ∃ value, member.2.draft.toJsonWithin depth = within member.2.levels depth value) :
    ∃ values, membersToJson depth (members.map fun member => (some member.1, member.2.draft)) =
      within (levelsOfMembers members) depth values := by
  induction members with
  | nil => exact ⟨[], (within_of_le (Nat.zero_le depth)).symm⟩
  | cons member rest ih =>
      obtain ⟨hmember, hrest⟩ := List.forall_mem_cons.mp h
      obtain ⟨value, hvalue⟩ := hmember
      obtain ⟨values, hvalues⟩ := ih hrest
      refine ⟨(member.1, value) :: values, ?_⟩
      rw [List.map_cons, membersToJson, hvalue, hvalues]
      exact within_bind _ (within_bind_ok ((member.1, value) :: ·))

/-- What is written for a value is read as a whole exactly if it does not nest too deep.  What is
read need not be the value itself, as only the last one of the members of a name is kept. -/
theorem exists_toJsonWithin (json : Json) (depth : Nat) :
    ∃ value, json.draft.toJsonWithin depth = within json.levels depth value := by
  induction json using Json.nested_induction generalizing depth with
  | step json hitems hmembers =>
      cases json with
      | array items =>
          cases depth with
          | zero => exact ⟨.null, by rw [draft]; rfl⟩
          | succ depth =>
              obtain ⟨values, hvalues⟩ :=
                exists_itemsToJson fun item hitem => hitems items rfl item hitem depth
              refine ⟨.array values, ?_⟩
              rw [draft, toJsonWithin, if_neg (Nat.succ_ne_zero depth), Nat.add_sub_cancel, hvalues]
              refine (within_bind_ok Json.array).trans (within_congr ?_)
              rw [levels, Nat.add_le_add_iff_right]
      | object members =>
          cases depth with
          | zero => exact ⟨.null, by rw [draft]; rfl⟩
          | succ depth =>
              obtain ⟨values, hvalues⟩ :=
                exists_membersToJson fun member hmember => hmembers members rfl member hmember depth
              refine ⟨objectOf values, ?_⟩
              rw [draft, toJsonWithin, if_neg (Nat.succ_ne_zero depth), Nat.add_sub_cancel, hvalues]
              refine (within_bind_ok objectOf).trans (within_congr ?_)
              rw [levels, Nat.add_le_add_iff_right]
      | _ => exact ⟨_, by rw [draft]; rfl⟩

end Draft
end Remodel
