import Remodel.Proofs.Graph.Runs
import Remodel.Proofs.Table

/-!
# Where edges come from

A graph does not keep how an edge got its id.  The history does: it lists the descriptions that
were added, as they were given, each with the id of its edge (`History.record`).  A description
without an id gets the number after those that were assigned before it, and no two numbers give the
same id (`assignedId_injective`).

Whatever edge has an id now, it was added for the last description that came under this id
(`History.origin?`), and its description is that one with the id.  `Recorded` says so of a graph and
a history; every change keeps it (`Recorded.change`), so it holds after every run
(`recorded_after`).
-/

namespace Remodel

namespace Graph

/-! ## The history of additions -/

/-- The descriptions that a change adds, as they are given, in this order. -/
def Change.given : Change → List Description
  | .add description => [description]
  | .replace description => [description]
  | .rereadFile fileName descriptions =>
    descriptions.map fun description => { description with fileName := some fileName }
  | .insertType _ => []
  | .dropType _ => []
  | .remove _ => []
  | .dropFile _ => []

/-- Descriptions that were added, as they were given, each after the id of its edge; the first one
was added first. -/
abbrev History := List (String × Description)

namespace History

/-- How many of the descriptions came without an id. -/
def unnamedCount (history : History) : Nat :=
  history.countP fun addition => addition.2.id.isNone

/-- The id that a description is added under: its own one, or the next that is assigned. -/
def nextId (idStart : String) (history : History) (given : Description) : String :=
  given.id.getD (idStart ++ Text.ofNat (history.unnamedCount + 1))

/-- The history with one more addition. -/
def record (idStart : String) (history : History) (given : Description) : History :=
  history ++ [(nextId idStart history given, given)]

/-- The history of a run. -/
def ofRun (idStart : String) (run : List Change) : History :=
  (run.flatMap Change.given).foldl (record idStart) []

/-- The description, as it was given, that the edge with an id was added for: the last one that
came under this id. -/
def origin? (history : History) (id : String) : Option Description :=
  history.reverse.lookup id

/-- Whether the edge with an id was added for a description without one. -/
def IsUnnamed (history : History) (id : String) : Prop :=
  ∃ given, history.origin? id = some given ∧ given.id = none

/-- Whether the edge with an id was added for a description that came with this id. -/
def IsNamed (history : History) (id : String) : Prop :=
  ∃ given, history.origin? id = some given ∧ given.id = some id

instance (history : History) (id : String) : Decidable (history.IsUnnamed id) :=
  decidable_of_iff ((history.origin? id).any fun given => given.id.isNone) <| by
    simp [IsUnnamed, Option.any_eq_true]

instance (history : History) (id : String) : Decidable (history.IsNamed id) :=
  decidable_of_iff ((history.origin? id).any fun given => given.id = some id) <| by
    simp [IsNamed, Option.any_eq_true]

variable {idStart : String} {history : History} {given : Description}

theorem origin?_record (name : String) :
    (history.record idStart given).origin? name =
      if name = nextId idStart history given then some given else history.origin? name := by
  rw [origin?, record, List.reverse_append, List.reverse_singleton, List.singleton_append,
    List.lookup_cons]
  by_cases hname : name = nextId idStart history given
  · rw [if_pos hname, hname, beq_self_eq_true]
  · rw [if_neg hname, beq_eq_false_iff_ne.mpr hname]
    rfl

theorem mem_of_origin? {id : String} (h : history.origin? id = some given) :
    (id, given) ∈ history :=
  List.mem_reverse.mp (Table.mem_of_lookup h)

theorem origin?_append (history new : History) (id : String) :
    (origin? (history ++ new) id) = (origin? new id).or (origin? history id) := by
  rw [origin?, List.reverse_append, List.lookup_append]
  rfl

theorem isSome_origin?_iff {id : String} :
    (history.origin? id).isSome = true ↔ id ∈ history.map Prod.fst := by
  rw [origin?, ← Table.mem_keys_iff_isSome_lookup, List.map_reverse, List.mem_reverse]

/-- What is recorded comes behind what was. -/
theorem exists_foldl_record (idStart : String) (history : History) (given : List Description) :
    ∃ new : History, given.foldl (record idStart) history = history ++ new ∧
      new.map Prod.snd = given := by
  induction given generalizing history with
  | nil => exact ⟨[], (List.append_nil _).symm, rfl⟩
  | cons first rest ih =>
      obtain ⟨new, hnew, hgiven⟩ := ih (record idStart history first)
      refine ⟨(nextId idStart history first, first) :: new, ?_, congrArg (first :: ·) hgiven⟩
      rw [List.foldl_cons, hnew, record, List.append_assoc, List.singleton_append]

/-! ## Ids in the history -/

/-- The ids of the additions: given ones are kept, and the assigned ones are numbered. -/
structure Numbered (idStart : String) (history : History) : Prop where
  named : ∀ addition ∈ history, ∀ id, addition.2.id = some id → addition.1 = id
  unnamed : ∀ addition ∈ history, addition.2.id = none →
    ∃ number ≤ history.unnamedCount, addition.1 = idStart ++ Text.ofNat number

theorem numbered_nil : Numbered idStart [] := ⟨by simp, by simp⟩

theorem Numbered.record (h : Numbered idStart history) (given : Description) :
    Numbered idStart (history.record idStart given) := by
  have hcount : history.unnamedCount ≤ (history.record idStart given).unnamedCount := by
    rw [unnamedCount, unnamedCount, History.record, List.countP_append]
    exact Nat.le_add_right _ _
  constructor
  · intro addition haddition id hid
    rcases List.mem_append.mp haddition with hmem | hmem
    · exact h.named addition hmem id hid
    · obtain rfl := List.mem_singleton.mp hmem
      have hgiven : given.id = some id := hid
      simp [nextId, hgiven]
  · intro addition haddition hid
    rcases List.mem_append.mp haddition with hmem | hmem
    · obtain ⟨number, hnumber, hname⟩ := h.unnamed addition hmem hid
      exact ⟨number, Nat.le_trans hnumber hcount, hname⟩
    · obtain rfl := List.mem_singleton.mp hmem
      have hgiven : given.id = none := hid
      refine ⟨history.unnamedCount + 1, ?_, by simp [nextId, hgiven]⟩
      simp [unnamedCount, History.record, hgiven]

theorem numbered_ofRun (idStart : String) (run : List Change) :
    Numbered idStart (ofRun idStart run) :=
  List.foldlRecOn _ _ numbered_nil fun _ hnumbered given _ => hnumbered.record given

/-- Numbers give different ids. -/
theorem assignedId_injective {a b : Nat} (h : idStart ++ Text.ofNat a = idStart ++ Text.ofNat b) :
    a = b := by
  have hchars := congrArg String.toList h
  rw [String.toList_append, String.toList_append] at hchars
  have hdigits := List.append_cancel_left hchars
  rw [Text.ofNat, Text.ofNat, String.toList_ofList, String.toList_ofList] at hdigits
  exact Text.decimal_injective hdigits

/-- The next id to be assigned has not been assigned before. -/
theorem Numbered.named_of_eq_next (h : Numbered idStart history) {addition : String × Description}
    (hmem : addition ∈ history)
    (hid : addition.1 = idStart ++ Text.ofNat (history.unnamedCount + 1)) :
    addition.2.id = some addition.1 := by
  cases hgiven : addition.2.id with
  | some id => rw [h.named addition hmem id hgiven]
  | none =>
      obtain ⟨number, hnumber, hname⟩ := h.unnamed addition hmem hgiven
      have heq := assignedId_injective (hname.symm.trans hid)
      omega

end History

/-! ## What a graph holds was added -/

/-- A graph goes with a history: so many ids were assigned, and what is held under an id is what was
last added under it. -/
structure Recorded (idStart : String) (graph : Graph) (history : History) : Prop where
  start : graph.idStart = idStart
  assigned : graph.assigned = history.unnamedCount
  origin : ∀ description, graph.Holds description → ∀ id, description.id = some id →
    ∃ given, history.origin? id = some given ∧ description = { given with id := some id }

theorem recorded_empty (idStart : String) : Recorded idStart (empty idStart) [] :=
  ⟨rfl, rfl, fun _ ⟨_, hedge, _⟩ => absurd hedge List.not_mem_nil⟩

variable {idStart : String} {graph : Graph} {history : History}

@[simp] theorem assigned_node (graph : Graph) (typeId : String) :
    (graph.node typeId).1.assigned = graph.assigned := by
  unfold node
  split <;> rfl

@[simp] theorem idStart_node (graph : Graph) (typeId : String) :
    (graph.node typeId).1.idStart = graph.idStart := by
  unfold node
  split <;> rfl

theorem assigned_addAs (h : graph.WellFormed) (id : String) (description : Description) :
    (graph.addAs id description).assigned = graph.assigned := by
  rw [h.addAs_eq, link]
  simp only [assigned_node]
  exact (removed_removeWhere h.ids _).assigned

theorem idStart_addAs (h : graph.WellFormed) (id : String) (description : Description) :
    (graph.addAs id description).idStart = graph.idStart := by
  rw [h.addAs_eq, link]
  simp only [idStart_node]
  exact (removed_removeWhere h.ids _).idStart

namespace Recorded

/-- An edge is described by what was last given under its id. -/
theorem describedBy?_eq (h : Recorded idStart graph history) (hwell : graph.WellFormed)
    {edge : Edge} (hedge : edge ∈ graph.edges) :
    ∃ given, history.origin? edge.id = some given ∧
      graph.describedBy? edge = some { given with id := some edge.id } := by
  obtain ⟨description, hlookup, hdescribes⟩ := hwell.described edge hedge
  obtain ⟨given, horigin, rfl⟩ := h.origin description ⟨edge, hedge, hlookup⟩ edge.id hdescribes.id
  exact ⟨given, horigin, hlookup⟩

/-- An edge joins the types that were last given under its id. -/
theorem joins_eq (h : Recorded idStart graph history) (hwell : graph.WellFormed) {edge : Edge}
    (hedge : edge ∈ graph.edges) {given : Description}
    (horigin : history.origin? edge.id = some given) (source target : String) :
    graph.joins source target edge = given.connects source target := by
  obtain ⟨description, hlookup, hdescribes⟩ := hwell.described edge hedge
  obtain ⟨found, hfound, hdescribed⟩ := h.describedBy?_eq hwell hedge
  obtain rfl := Option.some.inj (horigin.symm.trans hfound)
  obtain rfl := Option.some.inj (hlookup.symm.trans hdescribed)
  exact hwell.joins_eq hdescribes source target

/-- An edge of a pair is not new if no new addition is of this pair. -/
theorem not_mem_new {new : History} (h : Recorded idStart graph (history ++ new))
    (hwell : graph.WellFormed) {edge : Edge} (hedge : edge ∈ graph.edges) {source target : String}
    (hjoins : graph.joins source target edge = true)
    (hnew : ∀ given ∈ new.map Prod.snd, given.connects source target = false) :
    edge.id ∉ new.map Prod.fst := by
  intro hmem
  obtain ⟨given, horigin, -⟩ := h.describedBy?_eq hwell hedge
  rw [h.joins_eq hwell hedge horigin] at hjoins
  obtain ⟨found, hfound⟩ := Option.isSome_iff_exists.mp (History.isSome_origin?_iff.mpr hmem)
  rw [History.origin?_append, hfound, Option.some_or] at horigin
  obtain rfl := Option.some.inj horigin
  have hmemNew := List.mem_map_of_mem (f := Prod.snd) (History.mem_of_origin? hfound)
  exact absurd (hjoins.symm.trans (hnew _ hmemNew)) (by decide)

/-- A graph that holds no more. -/
theorem of_holds (h : Recorded idStart graph history) {other : Graph}
    (hstart : other.idStart = graph.idStart) (hassigned : other.assigned = graph.assigned)
    (hholds : ∀ description, other.Holds description → graph.Holds description) :
    Recorded idStart other history :=
  ⟨hstart.trans h.start, hassigned.trans h.assigned,
    fun description hheld => h.origin description (hholds description hheld)⟩

theorem removeWhere (h : Recorded idStart graph history) (hwell : graph.WellFormed)
    (chosen : Edge → Bool) : Recorded idStart (graph.removeWhere chosen).1 history := by
  have hremoved := removed_removeWhere hwell.ids chosen
  refine h.of_holds hremoved.idStart hremoved.assigned ?_
  rintro description ⟨edge, hedge, hlookup⟩
  have hbefore : edge ∈ graph.edges := hremoved.edges.subset (List.mem_append_right _ hedge)
  exact ⟨edge, hbefore, (hremoved.describedBy?_eq hwell.ids hedge).symm.trans hlookup⟩

/-- A description is added under the next id of the history. -/
theorem id_add (h : Recorded idStart graph history) (description : Description) :
    (graph.add description).2 = History.nextId idStart history description := by
  unfold Graph.add
  cases hid : description.id with
  | some id => simp [History.nextId, hid]
  | none => simp [History.nextId, hid, assignId, h.start, h.assigned]

theorem idStart_add (hwell : graph.WellFormed) (description : Description) :
    (graph.add description).1.idStart = graph.idStart := by
  unfold Graph.add
  cases description.id with
  | some id => exact idStart_addAs hwell id description
  | none => exact idStart_addAs hwell.assignId _ description

theorem assigned_add (hwell : graph.WellFormed) (description : Description) :
    (graph.add description).1.assigned =
      graph.assigned + if description.id.isNone then 1 else 0 := by
  unfold Graph.add
  cases description.id with
  | some id => exact assigned_addAs hwell id description
  | none => exact assigned_addAs hwell.assignId _ description

theorem add (h : Recorded idStart graph history) (hwell : graph.WellFormed)
    (description : Description) :
    Recorded idStart (graph.add description).1 (history.record idStart description) where
  start := (idStart_add hwell description).trans h.start
  assigned := by
    rw [assigned_add hwell, h.assigned, History.unnamedCount, History.unnamedCount,
      History.record, List.countP_append, List.countP_singleton]
  origin held hheld id hid := by
    rw [History.origin?_record, ← h.id_add description]
    rcases hwell.holds_add.mp hheld with rfl | ⟨hheld, hother⟩
    · obtain rfl := Option.some.inj hid
      exact ⟨description, if_pos rfl, rfl⟩
    · have hne : id ≠ (graph.add description).2 := fun heq => hother (hid.trans (by rw [heq]))
      rw [if_neg hne]
      exact h.origin held hheld id hid

theorem replace (h : Recorded idStart graph history) (hwell : graph.WellFormed)
    (description : Description) :
    Recorded idStart (graph.replace description).graph (history.record idStart description) :=
  (h.removeWhere hwell _).add (hwell.removeWhere _) description

theorem replaceAll (h : Recorded idStart graph history) (hwell : graph.WellFormed)
    (descriptions : List Description) :
    Recorded idStart (graph.replaceAll descriptions)
      (descriptions.foldl (History.record idStart) history) := by
  induction descriptions generalizing graph history with
  | nil => exact h
  | cons description rest ih => exact ih (h.replace hwell description) (hwell.replace description)

/-- Every change records what it adds. -/
theorem change (h : Recorded idStart graph history) (hwell : graph.WellFormed) (change : Change) :
    Recorded idStart (graph.change change)
      (change.given.foldl (History.record idStart) history) := by
  cases change with
  | insertType typeId =>
      refine h.of_holds (idStart_node graph typeId) (assigned_node graph typeId) ?_
      rintro description ⟨edge, hedge, hlookup⟩
      have hedges := edges_node graph typeId
      have hdescriptions := descriptions_node graph typeId
      exact ⟨edge, hedges ▸ hedge, by rwa [describedBy?, ← hdescriptions]⟩
  | dropType typeId =>
      rcases value_dropType graph typeId with ⟨place, heq⟩ | heq <;> rw [Graph.change, heq]
      · exact h.of_holds rfl rfl fun _ hheld => hheld
      · exact h
  | add description => exact h.add hwell description
  | replace description => exact h.replace hwell description
  | remove description => exact h.removeWhere hwell _
  | dropFile fileName => exact h.removeWhere hwell _
  | rereadFile fileName descriptions =>
      rw [Graph.change, graph_rereadFile]
      exact (h.removeWhere hwell _).replaceAll (hwell.removeWhere _) _

theorem after (h : Recorded idStart graph history) (hwell : graph.WellFormed)
    (run : List Change) :
    Recorded idStart (graph.after run)
      ((run.flatMap Change.given).foldl (History.record idStart) history) := by
  induction run generalizing graph history with
  | nil => exact h
  | cons change rest ih =>
      rw [List.flatMap_cons, List.foldl_append]
      exact ih (h.change hwell change) (hwell.change change)

end Recorded

/-- Every graph that is ever reached goes with the history of its run. -/
theorem recorded_after (idStart : String) (run : List Change) :
    Recorded idStart ((empty idStart).after run) (History.ofRun idStart run) :=
  (recorded_empty idStart).after (wellFormed_empty idStart) run

end Graph

end Remodel
