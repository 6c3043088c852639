import Mathlib.Data.List.Chain
import Mathlib.Data.List.Nodup
import Mathlib.Logic.Relation
import Remodel.Proofs.Record.Following
import Remodel.Proofs.Table
import Remodel.Record.Flatten

/-!
# Records that name each other in a circle

Rebuilding a model comes to an end exactly if the references that it follows never come back to
a record that is being read as the same type (`rebuild_ends_iff`).  Then it goes no deeper than
`rebuildDepth`, and any depth from there on gives the same.  Otherwise it goes deeper than any
depth.

## Strategy

* Where the depth runs out, it ran out one less deep in the model of some reference
  (`exists_leadsTo`), and conversely (`LeadsTo.outcome_eq`).
* So a run that goes deeper than a depth has a path of references of that length
  (`exists_path`).  All records on it are in the source and all types in the table, and a path
  that is longer than there are such pairs passes through one of them twice (`exists_repeated`).
* On a circle, a depth that is enough would have a lesser one that is enough at the same place
  (`exists_lt_of_transGen`).
-/

namespace Remodel

namespace Rebuild

open Relation

/-- The reading of a record as a model of a type. -/
structure Visit where
  typeId : String
  record : Record

variable {types : TypeTable} {source : RecordSource} {visit next : Visit} {depth : Nat}

/-- What a record gives when references are followed to a depth. -/
def outcome (types : TypeTable) (source : RecordSource) (depth : Nat) (visit : Visit) :
    Except RebuildFault (Option Model) :=
  (rebuildWithin types source depth visit.typeId visit.record).result

/-- Following a reference comes back, with a model or without one. -/
def Passes (types : TypeTable) (source : RecordSource) (reference : Reference) : Prop :=
  ∃ depth found, follow (rebuildWithin types source depth) source reference = .ok found

/-- Reading a record comes to read another one: a reference leads there, and all references before
it are passed. -/
def LeadsTo (types : TypeTable) (source : RecordSource) (visit next : Visit) : Prop :=
  ∃ before oid after,
    references types visit.typeId visit.record = before ++ ⟨next.typeId, oid⟩ :: after ∧
      (∀ earlier ∈ before, Passes types source earlier) ∧ source.fetch oid = .ok next.record

/-- Reading a record comes to one that, while it is being read, comes to be read again. -/
def Circular (types : TypeTable) (source : RecordSource) (visit : Visit) : Prop :=
  ∃ again, ReflTransGen (LeadsTo types source) visit again ∧
    TransGen (LeadsTo types source) again again

/-! ## Depth -/

theorem follow_eq {reference : Reference} {child : Record}
    (hfetch : source.fetch reference.oid = .ok child) (depth : Nat) :
    follow (rebuildWithin types source depth) source reference =
      outcome types source depth ⟨reference.typeId, child⟩ :=
  follow_of_ok hfetch _

theorem follow_eq_tooDeep_iff {reference : Reference} :
    follow (rebuildWithin types source depth) source reference = .error .tooDeep ↔
      ∃ child, source.fetch reference.oid = .ok child ∧
        outcome types source depth ⟨reference.typeId, child⟩ = .error .tooDeep := by
  cases hfetch : source.fetch reference.oid with
  | error fault => simp [follow, hfetch]
  | ok child =>
      rw [follow_eq hfetch]
      constructor
      · intro h
        exact ⟨child, rfl, h⟩
      · rintro ⟨found, hfound, h⟩
        rwa [Except.ok.inj hfound]

/-- What a record gives one step deeper is read off its references. -/
theorem outcome_succ (types : TypeTable) (source : RecordSource) (visit : Visit) :
    (∃ finish : List (Option Model) → Option Model, ∀ depth,
        outcome types source (depth + 1) visit = finish <$>
          (references types visit.typeId visit.record).mapM
            (follow (rebuildWithin types source depth) source)) ∨
      references types visit.typeId visit.record = [] ∧ ∃ error, ∀ depth,
        outcome types source (depth + 1) visit = .error (.error error) := by
  rcases result_rebuildWithin_succ types source visit.typeId visit.record with
    hfinish | ⟨hnone, error, -, herror⟩
  · exact Or.inl hfinish
  · exact Or.inr ⟨hnone, error, herror⟩

theorem outcome_succ_eq_tooDeep_iff :
    outcome types source (depth + 1) visit = .error .tooDeep ↔
      (references types visit.typeId visit.record).mapM
        (follow (rebuildWithin types source depth) source) = .error .tooDeep := by
  rcases outcome_succ types source visit with ⟨finish, hfinish⟩ | ⟨hnone, error, herror⟩
  · rw [hfinish]
    cases (references types visit.typeId visit.record).mapM
      (follow (rebuildWithin types source depth) source) <;> simp
  · rw [herror, hnone]
    simp

/-- Depth that is not used up makes no difference. -/
theorem outcome_succ_of_ne (h : outcome types source depth visit ≠ .error .tooDeep) :
    outcome types source (depth + 1) visit = outcome types source depth visit := by
  induction depth generalizing visit with
  | zero => exact absurd rfl h
  | succ depth ih =>
      have hfollow : ∀ reference,
          follow (rebuildWithin types source depth) source reference ≠ .error .tooDeep →
            follow (rebuildWithin types source (depth + 1)) source reference =
              follow (rebuildWithin types source depth) source reference := by
        intro reference hreference
        cases hfetch : source.fetch reference.oid with
        | error fault => simp [follow, hfetch]
        | ok child =>
            rw [follow_eq hfetch] at hreference ⊢
            rw [follow_eq hfetch, ih hreference]
      have hsame := mapM_eq_of_ne hfollow (mt outcome_succ_eq_tooDeep_iff.mpr h)
      rcases outcome_succ types source visit with ⟨finish, hfinish⟩ | ⟨-, error, herror⟩
      · rw [hfinish, hfinish, hsame]
      · rw [herror, herror]

theorem outcome_of_le {more : Nat} (hle : depth ≤ more)
    (h : outcome types source depth visit ≠ .error .tooDeep) :
    outcome types source more visit = outcome types source depth visit := by
  induction hle with
  | refl => rfl
  | step _ ih => rw [outcome_succ_of_ne (by rwa [ih]), ih]

/-- A reference that is passed is passed at every depth that is enough for it. -/
theorem Passes.follow_eq {reference : Reference} (h : Passes types source reference)
    (depth : Nat) :
    (∃ found, follow (rebuildWithin types source depth) source reference = .ok found) ∨
      follow (rebuildWithin types source depth) source reference = .error .tooDeep := by
  obtain ⟨enough, found, hfound⟩ := h
  cases hfetch : source.fetch reference.oid with
  | error fault => simp [follow, hfetch] at hfound
  | ok child =>
      rw [Rebuild.follow_eq hfetch] at hfound ⊢
      by_cases hdeep : outcome types source depth ⟨reference.typeId, child⟩ = .error .tooDeep
      · exact Or.inr hdeep
      · have henough : outcome types source enough ⟨reference.typeId, child⟩ ≠ .error .tooDeep := by
          simp [hfound]
        have hmost := outcome_of_le (Nat.le_max_left depth enough) hdeep
        rw [outcome_of_le (Nat.le_max_right depth enough) henough, hfound] at hmost
        exact Or.inl ⟨found, hmost.symm⟩

/-! ## One step deeper -/

/-- Where a depth is not enough, one less is not enough for some reference. -/
theorem exists_leadsTo (h : outcome types source (depth + 1) visit = .error .tooDeep) :
    ∃ next, LeadsTo types source visit next ∧
      outcome types source depth next = .error .tooDeep := by
  obtain ⟨before, reference, after, hsplit, hbefore, hreference⟩ :=
    mapM_eq_error_iff.mp (outcome_succ_eq_tooDeep_iff.mp h)
  obtain ⟨child, hfetch, hchild⟩ := follow_eq_tooDeep_iff.mp hreference
  exact ⟨⟨reference.typeId, child⟩, ⟨before, reference.oid, after, hsplit,
    fun earlier hearlier => ⟨depth, hbefore earlier hearlier⟩, hfetch⟩, hchild⟩

theorem LeadsTo.outcome_eq (h : LeadsTo types source visit next)
    (hnext : outcome types source depth next = .error .tooDeep) :
    outcome types source (depth + 1) visit = .error .tooDeep := by
  obtain ⟨before, oid, after, hsplit, hbefore, hfetch⟩ := h
  rw [outcome_succ_eq_tooDeep_iff, hsplit]
  exact mapM_append_cons_eq_error (fun earlier hearlier => (hbefore earlier hearlier).follow_eq depth)
    (follow_eq_tooDeep_iff.mpr ⟨next.record, hfetch, hnext⟩)

/-! ## Circles have no end -/

theorem exists_lt_of_leadsTo (h : LeadsTo types source visit next)
    (henough : outcome types source depth visit ≠ .error .tooDeep) :
    ∃ less < depth, outcome types source less next ≠ .error .tooDeep := by
  cases depth with
  | zero => exact absurd rfl henough
  | succ less => exact ⟨less, Nat.lt_succ_self less, fun hnext => henough (h.outcome_eq hnext)⟩

theorem exists_lt_of_transGen (h : TransGen (LeadsTo types source) visit next)
    (henough : outcome types source depth visit ≠ .error .tooDeep) :
    ∃ less < depth, outcome types source less next ≠ .error .tooDeep := by
  induction h with
  | single hstep => exact exists_lt_of_leadsTo hstep henough
  | tail _ hstep ih =>
      obtain ⟨less, hless, hmiddle⟩ := ih
      obtain ⟨least, hleast, hnext⟩ := exists_lt_of_leadsTo hstep hmiddle
      exact ⟨least, by omega, hnext⟩

theorem outcome_of_transGen_self (h : TransGen (LeadsTo types source) visit visit) (depth : Nat) :
    outcome types source depth visit = .error .tooDeep := by
  induction depth using Nat.strong_induction_on with
  | h depth ih =>
      by_contra henough
      obtain ⟨less, hless, hsame⟩ := exists_lt_of_transGen h henough
      exact hsame (ih less hless)

theorem Circular.outcome_eq (h : Circular types source visit) (depth : Nat) :
    outcome types source depth visit = .error .tooDeep := by
  obtain ⟨again, hreach, hcircle⟩ := h
  by_contra henough
  rcases reflTransGen_iff_eq_or_transGen.mp hreach with rfl | hreach
  · exact henough (outcome_of_transGen_self hcircle depth)
  · obtain ⟨less, -, hagain⟩ := exists_lt_of_transGen hreach henough
    exact hagain (outcome_of_transGen_self hcircle less)

/-! ## Long paths come back -/

/-- All there is to visit: the records of the source, read as models of the known types. -/
def visits (types : TypeTable) (source : RecordSource) : List Visit :=
  types.ids.flatMap fun typeId => source.map (Visit.mk typeId)

theorem length_visits (types : TypeTable) (source : RecordSource) :
    (visits types source).length = types.size * source.length := by
  unfold visits TypeTable.ids TypeTable.size
  simp [List.length_flatMap, Function.comp_def]

theorem mem_visits (hid : visit.typeId ∈ types.ids) (hrecord : visit.record ∈ source) :
    visit ∈ visits types source :=
  List.mem_flatMap.mpr ⟨visit.typeId, hid, List.mem_map.mpr ⟨visit.record, hrecord, rfl⟩⟩

theorem mem_of_fetch {oid : String} {record : Record} (h : source.fetch oid = .ok record) :
    record ∈ source := by
  unfold RecordSource.fetch at h
  split at h
  case h_1 found hfind =>
    obtain rfl := Except.ok.inj h
    exact List.mem_reverse.mp (List.mem_of_find?_eq_some hfind)
  case h_2 => cases h

theorem mem_ids_of_resolve {typeId : String} {descriptor : Descriptor}
    (h : types.resolve typeId = .ok descriptor) : typeId ∈ types.ids := by
  unfold TypeTable.resolve at h
  rw [TypeTable.ids, Table.mem_keys_iff_isSome_lookup]
  cases hlookup : types.entries.lookup typeId with
  | none => simp [hlookup] at h
  | some entry => rfl

theorem LeadsTo.mem_ids (h : LeadsTo types source visit next) : visit.typeId ∈ types.ids := by
  obtain ⟨before, oid, after, hsplit, -⟩ := h
  cases hresolve : types.resolve visit.typeId with
  | error error => simp [references, hresolve] at hsplit
  | ok descriptor => exact mem_ids_of_resolve hresolve

/-- A reading that goes deeper than a depth has a path of that length. -/
theorem exists_path (h : outcome types source (depth + 1) visit = .error .tooDeep) :
    ∃ path : List Visit, path.length = depth ∧ (visit :: path).IsChain (LeadsTo types source) ∧
      path ⊆ visits types source := by
  induction depth generalizing visit with
  | zero => exact ⟨[], rfl, List.isChain_singleton visit, List.nil_subset _⟩
  | succ depth ih =>
      obtain ⟨next, hleads, hnext⟩ := exists_leadsTo h
      obtain ⟨path, hlength, hchain, hpath⟩ := ih hnext
      have hrecord : next.record ∈ source := by
        obtain ⟨_, _, _, _, _, hfetch⟩ := hleads
        exact mem_of_fetch hfetch
      -- a record that goes deeper itself is read as a known type
      have hid : next.typeId ∈ types.ids := by
        obtain ⟨_, honward, -⟩ := exists_leadsTo hnext
        exact honward.mem_ids
      exact ⟨next :: path, by rw [List.length_cons, hlength], hchain.cons_cons hleads,
        List.cons_subset.mpr ⟨mem_visits hid hrecord, hpath⟩⟩

theorem exists_repeated {path : List Visit}
    (hchain : (visit :: path).IsChain (LeadsTo types source))
    (hpath : path ⊆ visits types source) (hlong : (visits types source).length < path.length) :
    Circular types source visit := by
  have hreach : (visit :: path).Pairwise (TransGen (LeadsTo types source)) :=
    (hchain.imp fun _ _ hstep => TransGen.single hstep).pairwise
  obtain ⟨hfirst, hrest⟩ := List.pairwise_cons.mp hreach
  by_contra hnone
  -- two equal places on the path would be a circle
  have hnodup : path.Nodup := hrest.imp_of_mem fun {a b} ha _ hab heq =>
    hnone ⟨a, (hfirst a ha).to_reflTransGen, by rwa [← heq] at hab⟩
  have hshort := hnodup.length_le_of_subset hpath
  omega

theorem circular_of_outcome
    (h : outcome types source (rebuildDepth types source) visit = .error .tooDeep) :
    Circular types source visit := by
  obtain ⟨path, hlength, hchain, hpath⟩ := exists_path h
  have hlong : (visits types source).length < path.length := by
    rw [hlength, length_visits]
    omega
  exact exists_repeated hchain hpath hlong

/-- **Rebuilding comes to an end exactly if it does not go in a circle.**  Without a circle it
gives a model, nothing or an error, and goes no deeper than there are records to read as known
types; in a circle it goes deeper than any depth. -/
theorem rebuild_ends_iff (types : TypeTable) (source : RecordSource) (typeId : String)
    (record : Record) :
    ((∃ result : Except Error (Option Model), ∀ depth, rebuildDepth types source ≤ depth →
        (rebuildWithin types source depth typeId record).result =
          result.mapError RebuildFault.error) ↔
      ¬ Circular types source ⟨typeId, record⟩) ∧
    ((∀ depth, (rebuildWithin types source depth typeId record).result = .error .tooDeep) ↔
      Circular types source ⟨typeId, record⟩) := by
  have hdeep : (∀ depth, outcome types source depth ⟨typeId, record⟩ = .error .tooDeep) ↔
      Circular types source ⟨typeId, record⟩ :=
    ⟨fun h => circular_of_outcome (h _), Circular.outcome_eq⟩
  refine ⟨⟨?_, ?_⟩, hdeep⟩
  · rintro ⟨result, hresult⟩ hcircular
    have hends : outcome types source (rebuildDepth types source) ⟨typeId, record⟩ =
        result.mapError RebuildFault.error := hresult _ (Nat.le_refl _)
    rw [hcircular.outcome_eq] at hends
    cases result with
    | ok found => cases hends
    | error error => cases hends
  · intro hfree
    have henough : outcome types source (rebuildDepth types source) ⟨typeId, record⟩ ≠
        .error .tooDeep := mt circular_of_outcome hfree
    have hsame : ∀ depth, rebuildDepth types source ≤ depth →
        outcome types source depth ⟨typeId, record⟩ =
          outcome types source (rebuildDepth types source) ⟨typeId, record⟩ :=
      fun depth hdepth => outcome_of_le hdepth henough
    cases houtcome : outcome types source (rebuildDepth types source) ⟨typeId, record⟩ with
    | ok found =>
        rw [houtcome] at hsame
        exact ⟨.ok found, hsame⟩
    | error fault =>
        cases fault with
        | tooDeep => exact absurd houtcome henough
        | error error =>
            rw [houtcome] at hsame
            exact ⟨.error error, hsame⟩

/-! ## A parent and a child of one name -/

namespace Namesakes

def person : Descriptor :=
  ⟨"Person", some "name", [⟨"name", .string, true⟩, ⟨"child", .model "Person", true⟩]⟩

def people : TypeTable := TypeTable.empty.insert person

def child : Model := ⟨person, [("name", .string "Ann")], some 0⟩

def parent : Model := ⟨person, [("child", .model child), ("name", .string "Ann")], some 1⟩

/-- The records of the parent: that of the child, and its own. -/
def records : RecordSource :=
  (parent.flatten ⟨⟨"example.org", "people", "main"⟩, fun _ => "drawn"⟩).value.records

def record : Record :=
  ⟨"example.org/people/Ann",
    [("child", .string "example.org/people/Ann"), ("connectorId", .string "people"),
      ("domainId", .string "example.org"), ("instanceId", .string "main"),
      ("modelType", .string "Person"), ("name", .string "Ann")], 0⟩

/-- The record of the parent names the id of the child, and this is the id of its own. -/
theorem rebuild_never_ends : records.getLast? = some record ∧
    ∀ depth, (rebuildWithin people records depth "Person" record).result = .error .tooDeep := by
  have hreferences : references people "Person" record =
      [⟨"Person", "example.org/people/Ann"⟩] := by decide +kernel
  have hfetch : records.fetch "example.org/people/Ann" = .ok record := by rfl
  have hself : LeadsTo people records ⟨"Person", record⟩ ⟨"Person", record⟩ :=
    ⟨[], _, [], hreferences, by simp, hfetch⟩
  exact ⟨by rfl, outcome_of_transGen_self (TransGen.single hself)⟩

end Namesakes

end Rebuild

end Remodel
