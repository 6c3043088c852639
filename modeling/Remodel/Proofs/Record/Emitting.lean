import Remodel.Proofs.Record.Emission

/-!
# Emitting instances

Flattening a model adds what is needed for an instance of it to have been written (`emits`): the
instances it reaches that were not there, the nested ones first, and at last the instance itself.

## Strategy

The induction is on the size of the model, with one lemma about what is put into a record
(`fills_writeAll`), by induction on the list, and one about the instance (`adds_of_unseen`).  Two
things have to be known when the record of an instance is added.

* **What it refers to has been written.**  The id of a labelled instance is noted before its record
  is there, so an id that is found may be that of an instance which is still being written.  But
  that instance contains the present one, and is larger: every instance that is smaller than the
  present one and has been seen has been written (`Known`), and references lead to smaller ones.
* **The instance itself has not been written.**  If it has a label, then the label was not seen.  If
  it has none, then nothing has been written within it (`Free`), because what other references of
  its holder add is elsewhere: their indices are different (`Handle.Within.not_below`).
-/

namespace Remodel

open Record Flattening Put

variable {context : FlattenContext} {root : Model} {meaning : Nat → Model}

/-! ## What a part of the run emits -/

variable (context root meaning) in
/-- What holds when it is the turn of an instance: what is smaller and has been seen has been
written, and if the instance has no label, nothing has been written within it. -/
structure Due (handle : Handle) (model : Model) (emitted : List Emission) (state : FlattenState) :
    Prop where
  reached : Reaches root handle model
  labelled : ∀ label, model.label = some label → handle = ⟨some label, []⟩
  accounts : Accounts context root emitted state
  known : Known meaning (sizeOf model + 1) emitted state
  free : model.label = none → Free handle handle.Within emitted state

variable (context root meaning) in
/-- Flattening a model adds what is needed for an instance of it to have been written. -/
def Emits (model : Model) : Prop :=
  ∀ handle emitted state, Due context root meaning handle model emitted state →
    ∃ added, Adds context root meaning (fun other => model.label = none ∧ handle.Within other)
      emitted state added (exec (flattenInstance context model) state).2 ∧
        ⟨handle, model, (exec (flattenInstance context model) state).1⟩ ∈ emitted ++ added

variable (context root meaning) in
/-- What is put into the record of an instance from an index on is there, and so is what is
referred to. -/
structure Fills (handle : Handle) (index : Nat) (puts : List (String × Put))
    (emitted : List Emission) (before : Record × FlattenState) (added : List Emission)
    (after : Record × FlattenState) : Prop where
  adds : Adds context root meaning (handle.Below index) emitted before.2 added after.2
  record : ∀ oidOf, Names oidOf (emitted ++ added) →
    after.1 = storeAll oidOf handle index puts before.1
  refers : ∀ j key nested, puts[j]? = some (key, .reference nested) →
    ∃ child ∈ emitted ++ added,
      child.handle = handle.child (index + j) nested ∧ child.model = nested

section Fills

variable {handle : Handle} {index : Nat} {emitted added more : List Emission}
  {a b c : Record × FlattenState} {key : String} {rest : List (String × Put)}

/-- A scalar is put into the record, and then the rest. -/
theorem Fills.cons_scalar {value : Scalar} {record : Record} {state : FlattenState}
    (h : Fills context root meaning handle (index + 1) rest emitted
      (record.put key value, state) added c) :
    Fills context root meaning handle index ((key, .scalar value) :: rest) emitted
      (record, state) added c where
  adds := h.adds.mono fun _ => Handle.Below.of_succ
  record oidOf hnames := h.record oidOf hnames
  refers j name nested hput := by
    cases j with
    | zero => simp at hput
    | succ j =>
        rw [← Nat.succ_add_eq_add_succ]
        exact h.refers j name nested hput

/-- The id of a model that has been written is put into the record, and then the rest. -/
theorem Fills.cons_reference {nested : Model} {record : Record} {state between : FlattenState}
    {oid : String}
    (hfirst : Adds context root meaning
      (fun other => nested.label = none ∧ (handle.child index nested).Within other)
      emitted state added between)
    (hnested : ⟨handle.child index nested, nested, oid⟩ ∈ emitted ++ added)
    (h : Fills context root meaning handle (index + 1) rest (emitted ++ added)
      (record.put key (.string oid), between) more c) :
    Fills context root meaning handle index ((key, .reference nested) :: rest) emitted
      (record, state) (added ++ more) c where
  adds := (hfirst.mono fun _ hwithin => hwithin.2.below hwithin.1).trans
    (h.adds.mono fun _ => Handle.Below.of_succ)
  record oidOf hnames := by
    rw [← List.append_assoc] at hnames
    have hoid : oidOf (handle.child index nested) = oid := hnames.left _ hnested
    rw [h.record oidOf hnames, storeAll, stored, hoid]
  refers j name other hput := by
    rw [← List.append_assoc]
    cases j with
    | zero =>
        obtain ⟨-, rfl⟩ : key = name ∧ nested = other := by simpa using hput
        exact ⟨_, List.mem_append_left more hnested, rfl, rfl⟩
    | succ j =>
        rw [← Nat.succ_add_eq_add_succ]
        exact h.refers j name other hput

end Fills

/-- An instance that is referred to is due when everything before the reference has been put. -/
theorem due_reference {handle : Handle} {model nested : Model} {index : Nat} {key : String}
    {emitted : List Emission} {state : FlattenState} (hreached : Reaches root handle model)
    (hput : model.puts[index]? = some (key, .reference nested))
    (haccounts : Accounts context root emitted state)
    (hknown : Known meaning (sizeOf model) emitted state)
    (hfree : Free handle (handle.Below index) emitted state) :
    Due context root meaning (handle.child index nested) nested emitted state where
  reached := hreached.child hput
  labelled label := Handle.child_of_label
  accounts := haccounts
  known label oid hseen hlt := by
    have hsize := sizeOf_lt_of_reference (mem_referred_of_getElem? hput)
    exact hknown label oid hseen (by omega)
  free hlabel := by
    refine ⟨fun label hchild => ?_, fun emission hemission hwithin => ?_⟩
    · rw [Handle.child_of_no_label hlabel] at hchild
      exact hfree.met label hchild
    · exact hfree.unused emission hemission (hwithin.below hlabel)

/-- If the models that are referred to are emitted, then everything is put into a record. -/
theorem fills_writeAll {handle : Handle} {model : Model} (hreached : Reaches root handle model)
    (hemits : ∀ nested ∈ referred model.puts, Emits context root meaning nested)
    (puts : List (String × Put)) :
    ∀ (index : Nat) (emitted : List Emission) (record : Record) (state : FlattenState),
      model.puts.drop index = puts → Accounts context root emitted state →
      Known meaning (sizeOf model) emitted state →
      Free handle (handle.Below index) emitted state →
      ∃ added, Fills context root meaning handle index puts emitted (record, state) added
        (exec (writeAll context puts record) state) := by
  induction puts with
  | nil =>
      intro index emitted record state _ haccounts _ _
      refine ⟨[], Adds.refl haccounts, fun _ _ => rfl, fun j key nested hput => ?_⟩
      cases hput
  | cons put rest ih =>
      intro index emitted record state hputs haccounts hknown hfree
      obtain ⟨key, put⟩ := put
      have hput : model.puts[index]? = some (key, put) := by
        rw [← Nat.add_zero index, ← List.getElem?_drop, hputs]
        rfl
      have hrest : model.puts.drop (index + 1) = rest := by
        rw [← List.drop_drop, hputs]
        rfl
      rw [exec_writeAll_cons]
      cases put with
      | scalar value =>
          have hnext : Free handle (handle.Below (index + 1)) emitted state :=
            ⟨hfree.met, fun emission hemission hbelow =>
              hfree.unused emission hemission hbelow.of_succ⟩
          obtain ⟨added, hfills⟩ :=
            ih (index + 1) emitted (record.put key value) state hrest haccounts hknown hnext
          exact ⟨added, hfills.cons_scalar⟩
      | reference nested =>
          have hnested := mem_referred_of_getElem? hput
          have hdue := due_reference hreached hput haccounts hknown hfree
          obtain ⟨added, hadds, hchild⟩ := hemits nested hnested _ emitted state hdue
          have hnext := hfree.of_adds hadds (fun _ => Handle.Below.of_succ)
            (fun _ hbelow => hbelow.within.label_eq)
            (fun _ hwithin => hwithin.2.not_below hwithin.1)
          obtain ⟨more, hfills⟩ := ih (index + 1) (emitted ++ added) _ _ hrest hadds.accounts
            (hknown.of_adds hadds) hnext
          exact ⟨added ++ more, Fills.cons_reference hadds hchild hfills⟩

/-! ## Instances -/

section Begun

variable (context : FlattenContext) (model : Model) (state : FlattenState)

theorem drawn_noteOid (label : Option Nat) (oid : String) :
    (exec (noteOid label oid) state).2.drawn = state.drawn := by
  cases label <;> rfl

/-- The id of an instance is made of its model's own id or of the next drawn one. -/
theorem oid_begun : (begun context model state).1 =
    context.identity.oid (model.id?.getD (context.drawnId state.drawn)) := by
  rw [begun]
  cases model.id? <;> rfl

theorem drawn_begun : (begun context model state).2.drawn =
    state.drawn + if model.id? = none then 1 else 0 := by
  rw [begun, drawn_noteOid]
  cases model.id? <;> rfl

theorem met_begun_self {label : Nat} (hown : model.label = some label) :
    Met label (begun context model state).2 := by
  rw [Met, lookup_begun_self context model state hown]
  rfl

theorem met_begun {label : Nat} (h : Met label state) :
    Met label (begun context model state).2 := by
  by_cases hown : model.label = some label
  · exact met_begun_self context model state hown
  · rwa [Met, lookup_begun_of_ne context model state hown]

end Begun

namespace Due

variable {handle : Handle} {model : Model} {emitted : List Emission} {state : FlattenState}

theorem accounts_begun (h : Due context root meaning handle model emitted state) :
    Accounts context root emitted (begun context model state).2 where
  records := by
    rw [records_begun]
    exact h.accounts.records
  once := h.accounts.once
  met emission hemission label hlabel :=
    met_begun context model state (h.accounts.met emission hemission label hlabel)
  reached := h.accounts.reached
  ordered := h.accounts.ordered

/-- The model itself has been noted but not written, and is not smaller than itself. -/
theorem known_begun (h : Due context root meaning handle model emitted state)
    (hmeaning : ∀ label, model.label = some label → meaning label = model) :
    Known meaning (sizeOf model) emitted (begun context model state).2 := by
  intro label oid hseen hsize
  by_cases hsame : model.label = some label
  · rw [hmeaning label hsame] at hsize
    omega
  · rw [lookup_begun_of_ne context model state hsame] at hseen
    exact h.known label oid hseen (by omega)

/-- The label above an instance has been seen as soon as the instance is begun. -/
theorem met_handle (h : Due context root meaning handle model emitted state) {label : Nat}
    (hlabel : handle.label = some label) : Met label (begun context model state).2 := by
  cases hown : model.label with
  | none => exact met_begun context model state ((h.free hown).met label hlabel)
  | some own =>
      rw [h.labelled own hown] at hlabel
      obtain rfl : own = label := Option.some.inj hlabel
      exact met_begun_self context model state hown

/-- What is within an instance that has not been seen has a label that has not been seen either,
unless the instance has no label of its own. -/
theorem unmet_or_within (h : Due context root meaning handle model emitted state)
    (hunseen : model.label.bind (state.seen.lookup ·) = none) {other : Handle}
    (hother : handle.Within other) :
    (∃ label, other.label = some label ∧ ¬ Met label state) ∨
      model.label = none ∧ handle.Within other := by
  cases hown : model.label with
  | none => exact Or.inr ⟨rfl, hother⟩
  | some own =>
      have hnone : state.seen.lookup own = none := by rwa [hown] at hunseen
      rw [h.labelled own hown] at hother
      exact Or.inl ⟨own, hother.label_eq, by simp [Met, hnone]⟩

/-- Nothing has been written within an instance that has not been seen. -/
theorem not_within (h : Due context root meaning handle model emitted state)
    (hunseen : model.label.bind (state.seen.lookup ·) = none) {emission : Emission}
    (hemission : emission ∈ emitted) : ¬ handle.Within emission.handle := by
  intro hwithin
  rcases h.unmet_or_within hunseen hwithin with ⟨label, hlabel, hunmet⟩ | ⟨hown, -⟩
  · exact hunmet (h.accounts.met emission hemission label hlabel)
  · exact (h.free hown).unused emission hemission hwithin

theorem free_begun (h : Due context root meaning handle model emitted state)
    (hunseen : model.label.bind (state.seen.lookup ·) = none) :
    Free handle (handle.Below 0) emitted (begun context model state).2 where
  met _ := h.met_handle
  unused _ hemission hbelow := h.not_within hunseen hemission hbelow.within

/-- Neither what was there before nor what has been added since the instance was begun is the
instance itself. -/
theorem handle_not_mem (h : Due context root meaning handle model emitted state)
    (hunseen : model.label.bind (state.seen.lookup ·) = none) {nested : List Emission}
    {after : FlattenState}
    (hadds : Adds context root meaning (handle.Below 0) emitted (begun context model state).2
      nested after) :
    handle ∉ (emitted ++ nested).map Emission.handle := by
  intro hmem
  obtain ⟨emission, hemission, rfl⟩ := List.mem_map.mp hmem
  rcases List.mem_append.mp hemission with hold | hadded
  · exact h.not_within hunseen hold (Handle.within_self _)
  · rcases hadds.places emission hadded with ⟨label, hlabel, hunmet⟩ | hbelow
    · exact hunmet (h.met_handle hlabel)
    · exact Handle.not_below_self hbelow

/-- What has been added since an instance was begun, and at last the instance itself. -/
theorem adds_concat (h : Due context root meaning handle model emitted state)
    (hmeaning : ∀ label, model.label = some label → meaning label = model)
    (hunseen : model.label.bind (state.seen.lookup ·) = none) {nested : List Emission}
    {after : FlattenState} {record : Record}
    (hadds : Adds context root meaning (handle.Below 0) emitted (begun context model state).2
      nested after)
    (haccounts : Accounts context root
      (emitted ++ (nested ++ [⟨handle, model, (begun context model state).1⟩]))
      { after with records := after.records ++ [record] }) :
    Adds context root meaning (fun other => model.label = none ∧ handle.Within other) emitted
      state (nested ++ [⟨handle, model, (begun context model state).1⟩])
      { after with records := after.records ++ [record] } where
  accounts := haccounts
  kept label hmet := hadds.kept label (met_begun context model state hmet)
  noted label oid hseen := by
    rcases hadds.noted label oid hseen with hstart | hnested
    · by_cases hsame : model.label = some label
      · rw [lookup_begun_self context model state hsame] at hstart
        rw [hmeaning label hsame, ← Option.some.inj hstart, ← h.labelled label hsame]
        exact Or.inr List.mem_concat_self
      · rw [lookup_begun_of_ne context model state hsame] at hstart
        exact Or.inl hstart
    · exact Or.inr (List.mem_append_left _ hnested)
  places emission hemission := by
    rcases List.mem_append.mp hemission with hnested | hown
    · rcases hadds.places emission hnested with ⟨label, hlabel, hunmet⟩ | hbelow
      · exact Or.inl ⟨label, hlabel, fun hmet =>
          hunmet (met_begun context model state hmet)⟩
      · exact h.unmet_or_within hunseen hbelow.within
    · rw [List.mem_singleton.mp hown]
      exact h.unmet_or_within hunseen handle.within_self
  drawn := by
    have hdrawn := hadds.drawn
    rw [drawn_begun] at hdrawn
    exact (Nat.le_add_right _ _).trans hdrawn
  ids emission hemission := by
    rcases List.mem_append.mp hemission with hnested | hown
    · obtain ⟨n, hn, hlt, hid⟩ := hadds.ids emission hnested
      rw [drawn_begun] at hn
      exact ⟨n, (Nat.le_add_right _ _).trans hn, hlt, hid⟩
    · rw [List.mem_singleton.mp hown]
      refine ⟨state.drawn, Nat.le_refl _, fun hnone => ?_, oid_begun context model state⟩
      have hdrawn := hadds.drawn
      rw [drawn_begun, if_pos hnone] at hdrawn
      exact hdrawn
  apart hdrawn := by
    refine List.pairwise_append.mpr ⟨hadds.apart hdrawn, List.pairwise_singleton .., ?_⟩
    intro emission hnested own hown
    rw [List.mem_singleton.mp hown]
    obtain ⟨n, hn, -, hid⟩ := hadds.ids emission hnested
    refine Emission.apart_of_ne hdrawn hid (oid_begun context model state) fun _ hnone => ?_
    -- the id of the instance itself has been drawn before
    rw [drawn_begun, if_pos hnone] at hn
    omega

/-- A model that has not been seen is written last, after what it refers to. -/
theorem adds_of_unseen (h : Due context root meaning handle model emitted state)
    (hmeaning : ∀ label, model.label = some label → meaning label = model)
    (hemits : ∀ nested ∈ referred model.puts, Emits context root meaning nested)
    (hunseen : model.label.bind (state.seen.lookup ·) = none) :
    ∃ nested after,
      exec (flattenInstance context model) state = ((begun context model state).1, after) ∧
      Adds context root meaning (fun other => model.label = none ∧ handle.Within other) emitted
        state (nested ++ [⟨handle, model, (begun context model state).1⟩]) after ∧
      ∀ emission ∈ nested, ∃ n, (begun context model state).2.drawn ≤ n ∧
        emission.IdOf context n := by
  set oid := (begun context model state).1 with hoid
  obtain ⟨nested, hfills⟩ := fills_writeAll h.reached hemits model.puts 0 emitted
    (Record.new oid) (begun context model state).2 rfl h.accounts_begun (h.known_begun hmeaning)
    (h.free_begun hunseen)
  generalize hwritten : exec (writeAll context model.puts (Record.new oid)) _ = written at hfills
  have hrecord : ∀ oidOf, Names oidOf ((emitted ++ nested) ++ [⟨handle, model, oid⟩]) →
      written.1.stamp context.identity model.typeId =
        Emission.record context.identity oidOf ⟨handle, model, oid⟩ := by
    intro oidOf hnames
    have hname : oidOf handle = oid :=
      hnames ⟨handle, model, oid⟩ List.mem_concat_self
    rw [Emission.record, Model.recordWith, hname, ← hfills.record oidOf hnames.left]
  have hmet : ∀ label, handle.label = some label → Met label written.2 :=
    fun label hlabel => hfills.adds.kept label (h.met_handle hlabel)
  have hrefers : Refers ⟨handle, model, oid⟩ (emitted ++ nested) := by
    intro index key child hput
    obtain ⟨found, hfound, hhandle, hmodel⟩ := hfills.refers index key child hput
    rw [Nat.zero_add] at hhandle
    exact ⟨found, hfound, hhandle, hmodel⟩
  have haccounts := hfills.adds.accounts.concat hrecord (h.handle_not_mem hunseen hfills.adds)
    hmet h.reached hrefers
  rw [List.append_assoc] at haccounts
  refine ⟨nested, _, exec_flattenInstance_eq context hunseen hwritten,
    h.adds_concat hmeaning hunseen hfills.adds haccounts, fun emission hemission => ?_⟩
  obtain ⟨n, hn, -, hid⟩ := hfills.adds.ids emission hemission
  exact ⟨n, hn, hid⟩

/-- Nothing is added for a model that has been seen, because it has been written. -/
theorem mem_of_seen (h : Due context root meaning handle model emitted state)
    (hmeaning : ∀ label, model.label = some label → meaning label = model) {oid : String}
    (hseen : model.label.bind (state.seen.lookup ·) = some oid) :
    ⟨handle, model, oid⟩ ∈ emitted := by
  obtain ⟨label, hlabel, hlookup⟩ := Option.bind_eq_some_iff.mp hseen
  have hmem := h.known label oid hlookup (by rw [hmeaning label hlabel]; omega)
  rwa [hmeaning label hlabel, ← h.labelled label hlabel] at hmem

end Due

/-- Every model is emitted, if labels stand for the instances that carry them. -/
theorem emits (hmeaning : ∀ handle model, Reaches root handle model →
      ∀ label, model.label = some label → meaning label = model)
    (model : Model) : Emits context root meaning model := by
  intro handle emitted state hdue
  have hself := hmeaning handle model hdue.reached
  cases hseen : model.label.bind (state.seen.lookup ·) with
  | some oid =>
      rw [exec_flattenInstance_of_seen context hseen]
      refine ⟨[], Adds.refl hdue.accounts, ?_⟩
      rw [List.append_nil]
      exact hdue.mem_of_seen hself hseen
  | none =>
      have hemits : ∀ nested ∈ referred model.puts, Emits context root meaning nested :=
        fun nested hnested =>
          have hsize := sizeOf_lt_of_reference hnested
          emits hmeaning nested
      obtain ⟨nested, after, hexec, hadds, -⟩ := hdue.adds_of_unseen hself hemits hseen
      rw [hexec]
      refine ⟨_, hadds, ?_⟩
      exact List.mem_append_right _ List.mem_concat_self
termination_by sizeOf model

end Remodel
