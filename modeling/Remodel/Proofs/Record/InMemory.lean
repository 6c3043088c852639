import Remodel.Proofs.Record.Written
import Remodel.Record.Walk

/-!
# Addresses do what labels do

Wherever models come to lie in memory, the walk that knows instances by their addresses writes
just what flattening by labels writes, and reports the same (`flattenIn_eq_flatten`).  For this it
is enough that a new model comes to lie at an address that is not in use, since the walk pins what
it comes to: a model that is built anew by every reading then never lies where another instance did
that has a record.

## Strategy

The two runs are followed side by side (`Mirrors`).  What has been seen under a label is what is
noted for the address at which the labelled model lies; ids are noted for the addresses of the root
and of pinned models only; and the models that are held are those with given labels: a labelled one
lies where it did before, and one without label lies where nothing else does (`LieAt`).

Every part of the walk uses up the labels of its own models and leaves the others as they are.
-/

namespace Remodel

open Flattening Walking

variable {memory : Memory}

theorem lookup_cons_eq_ite {α : Type} (key : Nat) (value : α) (table : List (Nat × α))
    (other : Nat) : ((key, value) :: table).lookup other =
      if other = key then some value else table.lookup other := by
  rw [List.lookup_cons]
  by_cases hother : other = key
  · simp [hother]
  · rw [beq_false_of_ne hother, if_neg hother]

/-! ## What is held -/

/-- Models with these labels lie at these addresses, given the addresses that are kept to the end
and those of labelled models. -/
def LieAt (kept : List Address) (homes : List (Nat × Address)) :
    List (Option Nat) → List Address → Prop
  | [], [] => True
  | some label :: labels, address :: addresses =>
    homes.lookup label = some address ∧ LieAt kept homes labels addresses
  | none :: labels, address :: addresses =>
    (address ∉ kept ∧ ∀ label, homes.lookup label ≠ some address) ∧ address ∉ addresses ∧
      LieAt kept homes labels addresses
  | _, _ => False

section LieAt

variable {kept : List Address} {homes : List (Nat × Address)} {labels : List (Option Nat)}
  {addresses : List Address} {address : Address}

/-- Keeping an address does not touch the other models that are held. -/
theorem LieAt.keep {more : List Address} (h : LieAt kept homes labels addresses)
    (hmore : ∀ other ∈ more, other ∈ kept ∨ other = address)
    (hapart : address ∉ addresses ∨ ∃ label, homes.lookup label = some address) :
    LieAt more homes labels addresses := by
  induction labels generalizing addresses with
  | nil => cases addresses <;> exact h
  | cons label labels ih =>
      cases addresses with
      | nil => cases label <;> exact h
      | cons other rest =>
          have hrest : address ∉ rest ∨ ∃ label, homes.lookup label = some address :=
            hapart.imp_left fun hnot hmem => hnot (List.mem_cons_of_mem other hmem)
          cases label with
          | some label => exact ⟨h.1, ih h.2 hrest⟩
          | none =>
              obtain ⟨⟨hkept, hhome⟩, hother, hlie⟩ := h
              refine ⟨⟨fun hmem => ?_, hhome⟩, hother, ih hlie hrest⟩
              rcases hmore other hmem with hold | rfl
              · exact hkept hold
              · rcases hapart with hnot | ⟨own, hown⟩
                · exact hnot (List.mem_cons_self ..)
                · exact hhome own hown

/-- A labelled model that is read for the first time comes to lie apart from what is held. -/
theorem LieAt.settle {own : Nat} (h : LieAt kept homes labels addresses)
    (hnew : homes.lookup own = none) (hapart : address ∉ addresses) :
    LieAt kept ((own, address) :: homes) labels addresses := by
  induction labels generalizing addresses with
  | nil => cases addresses <;> exact h
  | cons label labels ih =>
      cases addresses with
      | nil => cases label <;> exact h
      | cons other rest =>
          obtain ⟨hother, hrest⟩ : address ≠ other ∧ address ∉ rest := by simpa using hapart
          cases label with
          | some label =>
              obtain ⟨hhome, hlie⟩ := h
              have hne : label ≠ own := by
                rintro rfl
                rw [hnew] at hhome
                cases hhome
              refine ⟨?_, ih hlie hrest⟩
              rwa [lookup_cons_eq_ite, if_neg hne]
          | none =>
              obtain ⟨⟨hkept, hhome⟩, hrestOther, hlie⟩ := h
              refine ⟨⟨hkept, fun label => ?_⟩, hrestOther, ih hlie hrest⟩
              rw [lookup_cons_eq_ite]
              split
              · exact fun heq => hother (Option.some.inj heq)
              · exact hhome label

end LieAt

/-! ## Runs side by side -/

/-- The walk by addresses has come as far as flattening by labels, and models with these labels
are held. -/
structure Mirrors (memory : Memory) (labels : List (Option Nat)) (state : FlattenState)
    (walk : WalkState) : Prop where
  records : walk.records = state.records
  drawn : walk.drawn = state.drawn
  seen : ∀ label, state.seen.lookup label = (walk.homes.lookup label).bind (walk.oids.lookup ·)
  apart : ∀ label other address, walk.homes.lookup label = some address →
    walk.homes.lookup other = some address → label = other
  kept : ∀ address oid, walk.oids.lookup address = some oid →
    address ∈ memory.root :: walk.pinned
  alive : ∀ label address, walk.homes.lookup label = some address → address ∈ walk.inUse memory
  held : LieAt (memory.root :: walk.pinned) walk.homes labels walk.held

/-- A model with this label lies at an address that is kept to the end. -/
structure Stands (memory : Memory) (walk : WalkState) (label : Option Nat) (address : Address) :
    Prop where
  kept : address ∈ memory.root :: walk.pinned
  labelled : ∀ own, label = some own → walk.homes.lookup own = some address
  lone : label = none → walk.oids.lookup address = none ∧
    ∀ other, walk.homes.lookup other ≠ some address

section Steps

variable {labels : List (Option Nat)} {state : FlattenState} {walk : WalkState}

/-- The address of a new model is not in use. -/
theorem place_not_mem_inUse (memory : Memory) (walk : WalkState) :
    memory.place walk.built (walk.inUse memory) ∉ memory.root :: walk.pinned ∧
      memory.place walk.built (walk.inUse memory) ∉ walk.held := by
  have hnew := memory.place_not_mem walk.built (walk.inUse memory)
  simp only [WalkState.inUse, List.mem_cons, List.mem_append] at hnew ⊢
  tauto

theorem mem_inUse_hold {address other : Address} (hother : other ∈ walk.inUse memory) :
    other ∈ memory.root :: (walk.pinned ++ address :: walk.held) := by
  simp only [WalkState.inUse, List.mem_cons, List.mem_append] at hother ⊢
  tauto

/-- A labelled model that was read before is held where it lies. -/
theorem Mirrors.readAgain (h : Mirrors memory labels state walk) {own : Nat} {address : Address}
    (hhome : walk.homes.lookup own = some address) :
    Mirrors memory (some own :: labels) state { walk with held := address :: walk.held } where
  records := h.records
  drawn := h.drawn
  seen := h.seen
  apart := h.apart
  kept := h.kept
  alive other home hother := mem_inUse_hold (h.alive other home hother)
  held := ⟨hhome, h.held⟩

/-- A model without label is held where no other instance lies. -/
theorem Mirrors.readAnew (h : Mirrors memory labels state walk) :
    Mirrors memory (none :: labels) state (walk.read memory none) where
  records := h.records
  drawn := h.drawn
  seen := h.seen
  apart := h.apart
  kept := h.kept
  alive other home hother := mem_inUse_hold (h.alive other home hother)
  held := by
    obtain ⟨hkept, hheld⟩ := place_not_mem_inUse memory walk
    refine ⟨⟨hkept, fun label hhome => ?_⟩, hheld, h.held⟩
    exact memory.place_not_mem _ _ (h.alive label _ hhome)

/-- A labelled model that was not read before comes to lie at a new address, for which no id has
been noted. -/
theorem Mirrors.readFirst (h : Mirrors memory labels state walk) {own : Nat}
    (hhome : walk.homes.lookup own = none) {new : Address} (hnew : new ∉ walk.inUse memory)
    (built : Nat) :
    Mirrors memory (some own :: labels) state
      { walk with held := new :: walk.held, homes := (own, new) :: walk.homes, built := built } := by
  have hunused : ∀ other, walk.homes.lookup other ≠ some new := fun other hother =>
    hnew (h.alive other new hother)
  have hheld : new ∉ walk.held := fun hmem =>
    hnew (List.mem_cons_of_mem _ (List.mem_append_right _ hmem))
  have hlookup := lookup_cons_eq_ite own new walk.homes
  refine ⟨h.records, h.drawn, fun label => ?_, fun label other address => ?_, h.kept,
    fun label address => ?_, ?_, h.held.settle hhome hheld⟩
  · have hnoted : walk.oids.lookup new = none := by
      refine Option.eq_none_iff_forall_ne_some.mpr fun oid hoid => hnew ?_
      exact List.mem_append_left walk.held (h.kept new oid hoid)
    rw [hlookup, h.seen]
    split
    · rename_i heq
      rw [heq, hhome, Option.bind_some, hnoted]
      rfl
    · rfl
  · rw [hlookup, hlookup]
    split <;> split
    · rename_i hlabel hother
      exact fun _ _ => hlabel.trans hother.symm
    · exact fun heq hother => absurd (heq ▸ hother) (hunused other)
    · exact fun hlabel heq => absurd (heq ▸ hlabel) (hunused label)
    · exact h.apart label other address
  · rw [hlookup]
    split
    · intro heq
      obtain rfl := Option.some.inj heq
      exact List.mem_cons_of_mem _ (List.mem_append_right _ (List.mem_cons_self ..))
    · exact fun hother => mem_inUse_hold (h.alive label address hother)
  · exact (hlookup own).trans (if_pos rfl)

/-- A model that is read is held. -/
theorem Mirrors.read (h : Mirrors memory labels state walk) (label : Option Nat) :
    Mirrors memory (label :: labels) state (walk.read memory label) := by
  cases label with
  | none => exact h.readAnew
  | some own =>
      rw [WalkState.read, Option.bind_some]
      cases hhome : walk.homes.lookup own with
      | some address => exact h.readAgain hhome
      | none => exact h.readFirst hhome (memory.place_not_mem _ _) _

theorem Mirrors.readAll (h : Mirrors memory labels state walk) (more : List (Option Nat)) :
    Mirrors memory (more ++ labels) state (walk.readAll memory more) := by
  induction more with
  | nil => exact h
  | cons label rest ih => exact ih.read label

/-- What has been seen of a model is what is noted for its address. -/
theorem Mirrors.oidAt?_eq (h : Mirrors memory labels state walk) {label : Option Nat}
    {address : Address} (hstands : Stands memory walk label address) :
    walk.oids.lookup address = label.bind (state.seen.lookup ·) := by
  cases label with
  | none => exact (hstands.lone rfl).1
  | some own => rw [Option.bind_some, h.seen, hstands.labelled own rfl, Option.bind_some]

/-- Pinning keeps an address and what was kept, and nothing else.  If there is an id for the
address, then it is kept already. -/
theorem Mirrors.exists_pinned (h : Mirrors memory labels state walk) (address : Address)
    (rest : List Address) :
    ∃ pinned, WalkState.pin address { walk with held := rest } =
        { walk with held := rest, pinned := pinned } ∧
      ∀ other, other ∈ memory.root :: pinned ↔
        other ∈ memory.root :: walk.pinned ∨ other = address := by
  unfold WalkState.pin
  split
  · rename_i hseen
    obtain ⟨oid, hoid⟩ := Option.isSome_iff_exists.mp hseen
    refine ⟨walk.pinned, rfl, fun other => ⟨Or.inl, ?_⟩⟩
    rintro (hother | rfl)
    · exact hother
    · exact h.kept other oid hoid
  · refine ⟨address :: walk.pinned, rfl, fun other => ?_⟩
    simp only [List.mem_cons]
    tauto

/-- The next model that is held is kept to the end, and the others are held as before. -/
theorem Mirrors.goOn {label : Option Nat} (h : Mirrors memory (label :: labels) state walk) :
    ∃ address rest, walk.held = address :: rest ∧
      Mirrors memory labels state (WalkState.pin address { walk with held := rest }) ∧
      Stands memory (WalkState.pin address { walk with held := rest }) label address := by
  have hheld := h.held
  cases hwalk : walk.held with
  | nil =>
      rw [hwalk] at hheld
      cases label <;> cases hheld
  | cons address rest =>
      rw [hwalk] at hheld
      refine ⟨address, rest, rfl, ?_⟩
      obtain ⟨pinned, hpinned, hmem⟩ := h.exists_pinned address rest
      rw [hpinned]
      have hself : address ∈ memory.root :: pinned := (hmem address).mpr (Or.inr rfl)
      have halive : ∀ other : Address, other ∈ walk.inUse memory →
          other ∈ memory.root :: (pinned ++ rest) := by
        intro other hother
        rw [WalkState.inUse, hwalk, ← List.cons_append] at hother
        rw [← List.cons_append, List.mem_append]
        rcases List.mem_append.mp hother with hother | hother
        · exact Or.inl ((hmem other).mpr (Or.inl hother))
        · rcases List.mem_cons.mp hother with rfl | hother
          · exact Or.inl hself
          · exact Or.inr hother
      have hmirrors : LieAt (memory.root :: pinned) walk.homes labels rest →
          Mirrors memory labels state { walk with held := rest, pinned := pinned } := fun hlie =>
        { records := h.records
          drawn := h.drawn
          seen := h.seen
          apart := h.apart
          kept := fun other oid hoid => (hmem other).mpr (Or.inl (h.kept other oid hoid))
          alive := fun other home hhome => halive home (h.alive other home hhome)
          held := hlie }
      cases label with
      | some own =>
          obtain ⟨hhome, hlie⟩ := hheld
          refine ⟨hmirrors (hlie.keep (fun other => (hmem other).mp) (Or.inr ⟨own, hhome⟩)),
            hself, ?_, ?_⟩
          · rintro _ ⟨⟩
            exact hhome
          · rintro ⟨⟩
      | none =>
          obtain ⟨⟨hnot, hhome⟩, hrest, hlie⟩ := hheld
          refine ⟨hmirrors (hlie.keep (fun other => (hmem other).mp) (Or.inl hrest)), hself, ?_,
            fun _ => ⟨?_, hhome⟩⟩
          · rintro _ ⟨⟩
          · exact Option.eq_none_iff_forall_ne_some.mpr fun oid hoid =>
              hnot (h.kept address oid hoid)

/-- An id is noted for the address of an instance as it is for its label. -/
theorem Mirrors.note (h : Mirrors memory labels state walk) {label : Option Nat}
    {address : Address} (hstands : Stands memory walk label address) (oid : String) :
    Mirrors memory labels (exec (noteOid label oid) state).2 (walk.note address oid) := by
  have hnoted := lookup_cons_eq_ite address oid walk.oids
  refine ⟨?_, ?_, fun other => ?_, h.apart, fun other found => ?_, h.alive, h.held⟩
  · rw [records_noteOid]
    exact h.records
  · cases label <;> exact h.drawn
  · change _ = (walk.homes.lookup other).bind (((address, oid) :: walk.oids).lookup ·)
    by_cases hsame : label = some other
    · subst hsame
      rw [lookup_noteOid_self, hstands.labelled other rfl, Option.bind_some, hnoted, if_pos rfl]
    · rw [lookup_noteOid_of_ne hsame, h.seen]
      cases hhome : walk.homes.lookup other with
      | none => rfl
      | some home =>
          -- no other labelled model lies at the address
          have hne : home ≠ address := by
            rintro rfl
            cases label with
            | none => exact (hstands.lone rfl).2 other hhome
            | some own =>
                exact hsame (congrArg some (h.apart own other home (hstands.labelled own rfl) hhome))
          rw [Option.bind_some, Option.bind_some, hnoted, if_neg hne]
  · change ((address, oid) :: walk.oids).lookup other = _ → _
    rw [hnoted]
    split
    · rename_i heq
      exact fun _ => heq ▸ hstands.kept
    · exact h.kept other found

end Steps

/-! ## The whole walk -/

/-- Two runs give the same and report the same, and the states after them are related. -/
structure Alike {α : Type} (related : FlattenState → WalkState → Prop)
    (flattened : Traced (α × FlattenState)) (walked : Traced (α × WalkState)) : Prop where
  result : walked.value.1 = flattened.value.1
  notices : walked.notices = flattened.notices
  related : related flattened.value.2 walked.value.2

section Alike

variable {α β : Type} {related after : FlattenState → WalkState → Prop} {state : FlattenState}
  {walk : WalkState}

theorem Alike.pure (h : related state walk) (a : α) :
    Alike related ((Pure.pure a : Flattening α).run state) ((Pure.pure a : Walking α).run walk) :=
  ⟨rfl, rfl, h⟩

theorem Alike.note (h : related state walk) (notice : Notice) :
    Alike related ((Traced.note notice : Flattening Unit).run state)
      ((Traced.note notice : Walking Unit).run walk) :=
  ⟨rfl, rfl, h⟩

/-- Runs that are alike go on alike. -/
theorem Alike.bind {first : Flattening α} {walked : Walking α}
    (h : Alike related (first.run state) (walked.run walk)) {next : α → Flattening β}
    {walkedNext : α → Walking β}
    (hnext : ∀ a state walk, related state walk →
      Alike after ((next a).run state) ((walkedNext a).run walk)) :
    Alike after ((first >>= next).run state) ((walked >>= walkedNext).run walk) := by
  change Alike after ((first.run state).andThen fun result => (next result.1).run result.2)
    ((walked.run walk).andThen fun result => (walkedNext result.1).run result.2)
  generalize first.run state = before at h
  generalize walked.run walk = begun at h
  obtain ⟨⟨a, state'⟩, notices⟩ := before
  obtain ⟨⟨a', walk'⟩, notices'⟩ := begun
  obtain ⟨hresult, hnotices, hrelated⟩ := h
  cases hresult
  cases hnotices
  obtain ⟨hlast, hmore, hafter⟩ := hnext a state' walk' hrelated
  exact ⟨hlast, congrArg (notices ++ ·) hmore, hafter⟩

end Alike

section Walk

variable {labels : List (Option Nat)} {state : FlattenState} {walk : WalkState}

theorem run_modify_bind {α : Type} (change : WalkState → WalkState) (next : Unit → Walking α) :
    (modify change >>= next).run walk = (next ()).run (change walk) := rfl

theorem run_goOn_bind {α : Type} {address : Address} {rest : List Address}
    (h : walk.held = address :: rest) (next : Address → Walking α) :
    (goOn memory >>= next).run walk = (next address).run { walk with held := rest } := by
  change (next (walk.held.headD memory.root)).run { walk with held := walk.held.tail } = _
  rw [h]
  rfl

/-- The id of an instance is drawn by both runs or by none. -/
theorem Mirrors.makeOid (h : Mirrors memory labels state walk) {label : Option Nat}
    {address : Address} (hstands : Stands memory walk label address) (context : FlattenContext)
    (id : Option String) :
    Alike (fun state walk => Mirrors memory labels state walk ∧ Stands memory walk label address)
      ((Flattening.makeOid context id).run state) ((Walking.makeOid context id).run walk) := by
  cases id with
  | some part => exact Alike.pure ⟨h, hstands⟩ _
  | none =>
      refine ⟨congrArg (fun n => context.identity.oid (context.drawnId n)) h.drawn, rfl, ?_, ?_⟩
      · exact ⟨h.records, congrArg (· + 1) h.drawn, h.seen, h.apart, h.kept, h.alive, h.held⟩
      · exact ⟨hstands.kept, hstands.labelled, hstands.lone⟩

/-- What the walk does with a value: it comes to the models that were held for it. -/
def Follows (memory : Memory) (held : List (Option Nat)) (step : Flattening Record)
    (walked : Walking Record) : Prop :=
  ∀ labels state walk, Mirrors memory (held ++ labels) state walk →
    Alike (Mirrors memory labels) (step.run state) (walked.run walk)

theorem Follows.pure (record : Record) :
    Follows memory [] (Pure.pure record) (Pure.pure record) :=
  fun _ _ _ h => Alike.pure h record

theorem Follows.bind {held more : List (Option Nat)} {step : Flattening Record}
    {walked : Walking Record} (h : Follows memory held step walked)
    {next : Record → Flattening Record} {walkedNext : Record → Walking Record}
    (hnext : ∀ record, Follows memory more (next record) (walkedNext record)) :
    Follows memory (held ++ more) (step >>= next) (walked >>= walkedNext) := by
  intro labels state walk hmirrors
  rw [List.append_assoc] at hmirrors
  exact (h _ state walk hmirrors).bind fun record => hnext record labels

theorem Follows.foldlM {held : Field → List (Option Nat)}
    {step : Record → Field → Flattening Record} {walked : Record → Field → Walking Record}
    (h : ∀ field record, Follows memory (held field) (step record field) (walked record field))
    (fields : List Field) (record : Record) :
    Follows memory (fields.flatMap held) (fields.foldlM step record)
      (fields.foldlM walked record) := by
  induction fields generalizing record with
  | nil => exact Follows.pure record
  | cons field rest ih =>
      rw [List.flatMap_cons, List.foldlM_cons, List.foldlM_cons]
      exact (h field record).bind ih

end Walk

theorem Value.heldLabels_of_plain {value : Value} (h : value.isCollection = false) :
    value.heldLabels = value.ownLabel := by
  cases value with
  | list items => simp [isCollection] at h
  | map entries => simp [isCollection] at h
  | _ => rfl

theorem Value.ownLabel_of_collection {value : Value} (h : value.isCollection = true) :
    value.ownLabel = [] := by
  cases value with
  | model m => simp [isCollection] at h
  | _ => rfl

mutual

theorem alike_visitInstance (memory : Memory) (context : FlattenContext) :
    ∀ (model : Instance Value) (labels : List (Option Nat)) (state : FlattenState)
      (walk : WalkState) (address : Address), Stands memory walk model.label address →
      Mirrors memory labels state walk →
      Alike (Mirrors memory labels) ((flattenInstance context model).run state)
        ((visitInstance memory context address model).run walk)
  | ⟨descriptor, values, label⟩, labels, state, walk, address, hstands, h => by
    have hfields := Follows.foldlM (fun field record =>
      follows_visitField memory context field.name values record) descriptor.fields
    rw [flattenInstance, visitInstance]
    -- both runs look the instance up, one by its label and the other one by its address
    have hlookup : Alike (fun state walk => Mirrors memory labels state walk ∧
          Stands memory walk label address)
        ((writtenOid? label).run state) ((oidAt? address).run walk) :=
      ⟨h.oidAt?_eq hstands, rfl, h, hstands⟩
    refine hlookup.bind fun written state walk ⟨h, hstands⟩ => ?_
    cases written with
    | some oid => exact Alike.pure h oid
    | none =>
        refine (h.makeOid hstands context _).bind fun oid state walk ⟨h, hstands⟩ => ?_
        have hnote : Alike (Mirrors memory labels) ((noteOid label oid).run state)
            ((modify (WalkState.note address oid) : Walking Unit).run walk) := by
          cases label <;> exact ⟨rfl, rfl, h.note hstands oid⟩
        refine hnote.bind fun _ state walk h => ?_
        -- then one of them reads what it is going to come to
        rw [run_modify_bind]
        refine (hfields (Record.new oid) labels state _ (h.readAll _)).bind
          fun record state walk h => ?_
        exact ⟨rfl, rfl, congrArg (· ++ [record.stamp context.identity descriptor.typeId]) h.records,
          h.drawn, h.seen, h.apart, h.kept, h.alive, h.held⟩
termination_by structural model => model

theorem follows_visitField (memory : Memory) (context : FlattenContext) (field : String) :
    ∀ (values : List (String × Value)) (record : Record),
      Follows memory (fieldLabels values field) (flattenField context field values record)
        (visitField memory context field values record)
  | [], record => Follows.pure record
  | (name, value) :: rest, record => by
    rw [flattenField, visitField, fieldLabels]
    by_cases hname : name = field
    · subst hname
      simpa using follows_visitValue memory context name value record
    · rw [if_neg hname, if_neg hname, Table.lookup_cons_of_ne value rest (Ne.symm hname)]
      exact follows_visitField memory context field rest record
termination_by structural values => values

theorem follows_visitValue (memory : Memory) (context : FlattenContext) (key : String) :
    ∀ (value : Value) (record : Record),
      Follows memory value.heldLabels (flattenValue context key value record)
        (visitValue memory context key value record)
  | .model m, record => by
    rw [flattenValue, visitValue]
    intro labels state walk h
    obtain ⟨address, rest, hheld, hmirrors, hstands⟩ := Mirrors.goOn h
    rw [run_goOn_bind hheld, run_modify_bind]
    exact (alike_visitInstance memory context m labels state _ address hstands hmirrors).bind
      fun oid state walk h => Alike.pure h _
  | .list items, record => by
    rw [flattenValue, visitValue]
    exact follows_visitItems memory context key 0 items record
  | .map entries, record => by
    rw [flattenValue, visitValue]
    exact follows_visitEntries memory context key 0 entries record
  | .file _, record | .string _, record | .integer _, record | .float _, record
  | .boolean _, record | .bytes _, record | .enum _, record => by
    rw [flattenValue, visitValue]
    exact Follows.pure _
termination_by structural value => value

theorem follows_visitItems (memory : Memory) (context : FlattenContext) (key : String)
    (index : Nat) : ∀ (items : List Value) (record : Record),
      Follows memory (items.flatMap Value.ownLabel) (flattenItems context key index items record)
        (visitItems memory context key index items record)
  | [], record => Follows.pure record
  | item :: rest, record => by
    rw [flattenItems, visitItems, List.flatMap_cons]
    cases hitem : item.isCollection with
    | true =>
        rw [Value.ownLabel_of_collection hitem, if_pos rfl, if_pos rfl]
        intro labels state walk h
        exact (Alike.note h _).bind fun _ state walk h =>
          follows_visitItems memory context key (index + 1) rest record labels state walk h
    | false =>
        rw [if_neg Bool.false_ne_true, if_neg Bool.false_ne_true,
          ← Value.heldLabels_of_plain hitem]
        exact (follows_visitValue memory context (Record.itemKey key index) item record).bind
          fun record => follows_visitItems memory context key (index + 1) rest record
termination_by structural items => items

theorem follows_visitEntries (memory : Memory) (context : FlattenContext) (key : String)
    (index : Nat) : ∀ (entries : List (Value × Value)) (record : Record),
      Follows memory (Value.heldLabels (.map entries))
        (flattenEntries context key index entries record)
        (visitEntries memory context key index entries record)
  | [], record => Follows.pure record
  | (k, v) :: rest, record => by
    rw [flattenEntries, visitEntries, Value.heldLabels, List.flatMap_cons]
    cases hentry : k.isCollection || v.isCollection with
    | true =>
        rw [if_pos rfl, if_pos rfl, if_pos rfl]
        intro labels state walk h
        exact (Alike.note h _).bind fun _ state walk h =>
          follows_visitEntries memory context key index rest record labels state walk h
    | false =>
        obtain ⟨hk, hv⟩ := Bool.or_eq_false_iff.mp hentry
        rw [if_neg Bool.false_ne_true, if_neg Bool.false_ne_true, if_neg Bool.false_ne_true,
          ← Value.heldLabels_of_plain hk, ← Value.heldLabels_of_plain hv, List.append_assoc]
        exact (follows_visitValue memory context (Record.entryKey key index) k record).bind
          fun record => (follows_visitValue memory context (Record.entryValueKey key index) v
            record).bind fun record =>
              follows_visitEntries memory context key (index + 1) rest record
termination_by structural entries => entries

end

/-! ## From the beginning -/

section Start

variable (memory : Memory) (label : Option Nat)

theorem lookup_homes_start {own : Nat} {address : Address}
    (h : (WalkState.start memory label).homes.lookup own = some address) :
    label = some own ∧ address = memory.root := by
  cases label with
  | none => cases h
  | some other =>
      change List.lookup own [(other, memory.root)] = _ at h
      rw [lookup_cons_eq_ite] at h
      split at h
      · rename_i heq
        exact ⟨congrArg some heq.symm, (Option.some.inj h).symm⟩
      · cases h

theorem mirrors_start : Mirrors memory [] ⟨[], [], 0⟩ (.start memory label) where
  records := rfl
  drawn := rfl
  seen own := by
    cases (WalkState.start memory label).homes.lookup own <;> rfl
  apart own other address hown hother := Option.some.inj
    ((lookup_homes_start memory label hown).1.symm.trans (lookup_homes_start memory label hother).1)
  kept _ _ hoid := by cases hoid
  alive own address hown := by
    rw [(lookup_homes_start memory label hown).2]
    exact List.mem_cons_self ..
  held := trivial

theorem stands_start : Stands memory (.start memory label) label memory.root where
  kept := List.mem_cons_self ..
  labelled own hown := by simp [WalkState.start, hown]
  lone hnone := ⟨rfl, fun other => by simp [WalkState.start, hnone]⟩

end Start

/-- **Addresses do what labels do.**  Wherever models come to lie in memory, the walk writes the
records that flattening by labels writes, and reports the same. -/
theorem flattenIn_eq_flatten (memory : Memory) (model : Model) (context : FlattenContext) :
    model.flattenIn memory context = model.flatten context := by
  obtain ⟨hoid, hnotices, hafter⟩ := alike_visitInstance memory context model [] ⟨[], [], 0⟩ _
    memory.root (stands_start memory model.label) (mirrors_start memory model.label)
  set walked := (visitInstance memory context memory.root model).run (.start memory model.label)
  set flattened := (flattenInstance context model).run ⟨[], [], 0⟩
  calc model.flattenIn memory context
      = ⟨⟨walked.value.1, walked.value.2.records⟩, walked.notices ++ []⟩ := rfl
    _ = ⟨⟨flattened.value.1, flattened.value.2.records⟩, flattened.notices ++ []⟩ := by
        rw [hoid, hnotices, hafter.records]
    _ = model.flatten context := rfl

end Remodel
