import Mathlib.Data.List.MinMax
import Remodel.Proofs.Graph.Origins
import Remodel.Proofs.Graph.Places

/-!
# The first edge of a pair

A path is the first edge of its pair by place.  Places follow the order in which edges were added
only as long as no removal lets a later edge overtake an earlier one.  Exactly then the path is the
oldest edge of the pair, and exactly then a change of other pairs leaves it as it is
(`path_eq_oldest_iff`).

## Strategy

Every change of a graph makes moves in the order of its edges (`moves`): the edges that are removed
leave, the last one first, and the edges that are added enter.  `Moved` says so, and that what
enters is what the history records.  So the order of two edges is decided by overtaking
(`idxOf_lt_iff_overtook`), for a whole run as for one more change:

* `Oldest.edge?_eq_some_iff`: for a run, in which the oldest edge entered before the others;
* `path_change_eq_iff`: for a change that adds nothing to the pair, whose edges count as having
  come in the order in which they stand.
-/

namespace Remodel

namespace Graph

/-! ## The moves of changes -/

/-- The ids of the edges by place. -/
def order (graph : Graph) : List String := graph.edges.map Edge.id

/-- The moves by which the edges leave that a test accepts, the last one first. -/
def leaves (graph : Graph) (chosen : Edge → Bool) : List Move :=
  ((graph.edges.filter chosen).reverse.map Edge.id).map .leave

/-- The moves of an addition: the edge with the same id leaves, and the new one enters. -/
def addMoves (graph : Graph) (description : Description) : List Move :=
  graph.leaves (fun edge => edge.id = (graph.add description).2) ++
    [.enter (graph.add description).2]

/-- The moves of a replacement: the edges of the pair leave before the addition. -/
def replaceMoves (graph : Graph) (description : Description) : List Move :=
  graph.leaves (graph.joins description.source description.target) ++
    (graph.dropBetween description.source description.target).1.addMoves description

/-- The moves of several replacements. -/
def replaceAllMoves (graph : Graph) : List Description → List Move
  | [] => []
  | description :: rest =>
      graph.replaceMoves description ++ (graph.replace description).graph.replaceAllMoves rest

/-- The moves of a change. -/
def moves (graph : Graph) : Change → List Move
  | .insertType _ => []
  | .dropType _ => []
  | .add description => graph.addMoves description
  | .replace description => graph.replaceMoves description
  | .remove description => graph.leaves fun edge =>
      graph.joins description.source description.target edge && graph.asksFor description edge
  | .dropFile fileName => graph.leaves fun edge => edge.fileName = some fileName
  | .rereadFile fileName descriptions =>
      graph.leaves (fun edge => edge.fileName = some fileName) ++
        (graph.dropFile fileName).1.replaceAllMoves
          (descriptions.map fun description => { description with fileName := some fileName })

/-- The moves of a run. -/
def movesOf (graph : Graph) : List Change → List Move
  | [] => []
  | change :: rest => graph.moves change ++ (graph.change change).movesOf rest

/-! ## Removals -/

variable {graph : Graph}

theorem map_swapRemove {α β : Type} (f : α → β) (items : List α) (index : Nat) :
    (swapRemove items index).map f = swapRemove (items.map f) index := by
  unfold swapRemove
  rw [List.getLast?_map]
  cases items.getLast? with
  | none => rfl
  | some last =>
      simp only [Option.map_some, List.length_map]
      split
      · rw [List.map_dropLast, List.map_set]
      · rfl

theorem idxOf_order {front back : List Edge} {edge : Edge}
    (hedges : graph.edges = front ++ edge :: back) (hids : (graph.edges.map Edge.id).Nodup) :
    graph.order.idxOf edge.id = front.length := by
  have hfront : edge.id ∉ front.map Edge.id := fun hmem => by
    rw [hedges, List.map_append, List.map_cons] at hids
    exact (List.nodup_append.mp hids).2.2 _ hmem _ (List.mem_cons_self ..) rfl
  rw [order, hedges, List.map_append, List.map_cons, List.idxOf_append_of_notMem hfront,
    List.idxOf_cons_self, List.length_map, Nat.add_zero]

/-- One edge leaves its place. -/
theorem order_dropEdge {front back : List Edge} {edge : Edge}
    (hedges : graph.edges = front ++ edge :: back) (hids : (graph.edges.map Edge.id).Nodup) :
    (graph.dropEdge front.length).1.order = Move.apply graph.order (.leave edge.id) := by
  have hfound : graph.edges[front.length]? = some edge := by rw [hedges]; simp
  rw [Move.apply, idxOf_order hedges hids, order, order, dropEdge, hfound]
  exact map_swapRemove Edge.id graph.edges front.length

theorem order_removeEdges (chosen : Edge → Bool) (front : List Edge) :
    ∀ {graph : Graph} {back : List Edge}, graph.edges = front ++ back →
      (graph.edges.map Edge.id).Nodup →
      (graph.removeEdges (placesIn front chosen).reverse).1.order =
        orderAfter graph.order (((front.filter chosen).reverse.map Edge.id).map .leave) := by
  induction front using List.reverseRecOn with
  | nil => exact fun _ _ => rfl
  | append_singleton front edge ih =>
      intro graph back hedges hids
      rw [List.append_assoc, List.singleton_append] at hedges
      rw [placesIn_concat, List.filter_append, List.reverse_append, List.reverse_append]
      cases hchosen : chosen edge with
      | false => simpa [List.filter_cons, hchosen] using ih hedges hids
      | true =>
          -- the edges before this one stay at their places when it leaves
          obtain ⟨⟨moved, hmoved⟩, hfirst⟩ := removed_dropEdge hedges
          have hrest := ih hmoved (List.nodup_append.mp (hfirst.nodup hids)).2.1
          rw [order_dropEdge hedges hids] at hrest
          simpa [List.filter_cons, hchosen, removeEdges, orderAfter] using hrest

theorem order_removeWhere (hids : (graph.edges.map Edge.id).Nodup) (chosen : Edge → Bool) :
    (graph.removeWhere chosen).1.order = orderAfter graph.order (graph.leaves chosen) :=
  order_removeEdges chosen graph.edges (List.append_nil _).symm hids

/-! ## What moves -/

/-- Moves lead from the order of one graph to that of another, and what enters is what comes into
the history. -/
structure Moved (graph : Graph) (history : History) (moves : List Move) (other : Graph)
    (longer : History) : Prop where
  order : other.order = orderAfter graph.order moves
  proper : Proper graph.order moves
  entered : longer.map Prod.fst = history.map Prod.fst ++ arrivals moves

variable {idStart : String} {history : History}

theorem Moved.of_edges {other : Graph} (hedges : other.edges = graph.edges) :
    Moved graph history [] other history where
  order := by rw [Graph.order, hedges]; rfl
  proper := trivial
  entered := (List.append_nil _).symm

theorem Moved.trans {middle other : Graph} {longer longest : History} {moves more : List Move}
    (h : Moved graph history moves middle longer) (hmore : Moved middle longer more other longest) :
    Moved graph history (moves ++ more) other longest where
  order := by rw [hmore.order, h.order, orderAfter_append]
  proper := proper_append.mpr ⟨h.proper, by rw [← h.order]; exact hmore.proper⟩
  entered := by rw [hmore.entered, h.entered, arrivals_append, List.append_assoc]

theorem moved_removeWhere (hwell : graph.WellFormed) (chosen : Edge → Bool) :
    Moved graph history (graph.leaves chosen) (graph.removeWhere chosen).1 history where
  order := order_removeWhere hwell.ids chosen
  proper := proper_leaves _ _
  entered := by rw [leaves, arrivals_leaves, List.append_nil]

theorem moved_addAs (hwell : graph.WellFormed) {id : String} {description : Description}
    (hid : History.nextId idStart history description = id) :
    Moved graph history (graph.leaves (fun edge => edge.id = id) ++ [.enter id])
      (graph.addAs id description) (history.record idStart description) := by
  refine (moved_removeWhere hwell fun edge => edge.id = id).trans ⟨?_, ⟨?_, trivial⟩, ?_⟩
  · obtain ⟨added, hedges, hadded, -⟩ := edges_link (graph.removeWhere fun edge => edge.id = id).1
      id { description with id := some id }
    rw [order, hwell.addAs_eq, hedges, List.map_append, List.map_singleton, hadded]
    rfl
  · rintro name ⟨⟩ hmem
    obtain ⟨edge, hedge, hname⟩ := List.mem_map.mp hmem
    exact hwell.id_ne_of_mem_removeWhere hedge hname
  · rw [History.record, List.map_append, List.map_singleton, hid]
    rfl

theorem moved_add (hwell : graph.WellFormed) (h : Recorded idStart graph history)
    (description : Description) :
    Moved graph history (graph.addMoves description) (graph.add description).1
      (history.record idStart description) := by
  have hid := (h.id_add description).symm
  unfold addMoves
  unfold Graph.add at hid ⊢
  cases hgiven : description.id with
  | some id =>
      simp only [hgiven] at hid ⊢
      exact moved_addAs hwell hid
  | none =>
      simp only [hgiven] at hid ⊢
      -- counting the id does not change the edges
      have hcounted : Moved graph history [] graph.assignId.1 history := Moved.of_edges rfl
      exact hcounted.trans (moved_addAs hwell.assignId hid)

theorem moved_replace (hwell : graph.WellFormed) (h : Recorded idStart graph history)
    (description : Description) :
    Moved graph history (graph.replaceMoves description) (graph.replace description).graph
      (history.record idStart description) :=
  (moved_removeWhere hwell _).trans
    (moved_add (hwell.removeWhere _) (h.removeWhere hwell _) description)

theorem moved_replaceAll (hwell : graph.WellFormed) (h : Recorded idStart graph history)
    (descriptions : List Description) :
    Moved graph history (graph.replaceAllMoves descriptions) (graph.replaceAll descriptions)
      (descriptions.foldl (History.record idStart) history) := by
  induction descriptions generalizing graph history with
  | nil => exact Moved.of_edges rfl
  | cons description rest ih =>
      exact (moved_replace hwell h description).trans
        (ih (hwell.replace description) (h.replace hwell description))

/-- Every change moves the edges as told. -/
theorem moved_change (hwell : graph.WellFormed) (h : Recorded idStart graph history)
    (change : Change) :
    Moved graph history (graph.moves change) (graph.change change)
      (change.given.foldl (History.record idStart) history) := by
  cases change with
  | insertType typeId => exact Moved.of_edges (edges_node graph typeId)
  | dropType typeId => exact Moved.of_edges (edges_dropType graph typeId)
  | add description => exact moved_add hwell h description
  | replace description => exact moved_replace hwell h description
  | remove description => exact moved_removeWhere hwell _
  | dropFile fileName => exact moved_removeWhere hwell _
  | rereadFile fileName descriptions =>
      rw [Graph.change, graph_rereadFile]
      exact (moved_removeWhere hwell _).trans
        (moved_replaceAll (hwell.removeWhere _) (h.removeWhere hwell _) _)

theorem moved_after (hwell : graph.WellFormed) (h : Recorded idStart graph history)
    (run : List Change) :
    Moved graph history (graph.movesOf run) (graph.after run)
      ((run.flatMap Change.given).foldl (History.record idStart) history) := by
  induction run generalizing graph history with
  | nil => exact Moved.of_edges rfl
  | cons change rest ih =>
      rw [List.flatMap_cons, List.foldl_append]
      exact (moved_change hwell h change).trans (ih (hwell.change change) (h.change hwell change))

/-! ## The first edge -/

section First

variable {source target : String} {edge : Edge} {description : Description}

theorem mem_order (hedge : edge ∈ graph.edges) : edge.id ∈ graph.order := List.mem_map_of_mem hedge

theorem edge?_eq_find? (graph : Graph) (source target : String) :
    graph.edge? source target [] = graph.edges.find? (graph.joins source target) :=
  List.head?_filter

theorem exists_edge? (hedge : edge ∈ graph.edges)
    (hjoins : graph.joins source target edge = true) :
    ∃ first, graph.edge? source target [] = some first := by
  rw [← Option.isSome_iff_exists, edge?_eq_find?, List.find?_isSome]
  exact ⟨edge, hedge, hjoins⟩

/-- No edge that a test accepts is in front of the one that is found. -/
theorem WellFormed.idxOf_le_of_find? (h : graph.WellFormed) {chosen : Edge → Bool}
    {first other : Edge} (hfind : graph.edges.find? chosen = some first)
    (hother : other ∈ graph.edges) (hchosen : chosen other = true) :
    graph.order.idxOf first.id ≤ graph.order.idxOf other.id := by
  obtain ⟨-, before, behind, hedges, hbefore⟩ := List.find?_eq_some_iff_append.mp hfind
  obtain ⟨front, back, hsplit⟩ := List.append_of_mem hother
  rw [idxOf_order hedges h.ids, idxOf_order hsplit h.ids]
  by_contra hlt
  have hplace : before[front.length]? = some other := by
    rw [← List.getElem?_append_left (Nat.not_le.mp hlt), ← hedges, hsplit]
    simp
  have hrejected := hbefore other (List.mem_of_getElem? hplace)
  rw [hchosen] at hrejected
  cases hrejected

/-- The edge of a path is the one of its pair that no other one of the pair is in front of. -/
theorem WellFormed.edge?_eq_some_iff (h : graph.WellFormed) :
    graph.edge? source target [] = some edge ↔
      edge ∈ graph.edges ∧ graph.joins source target edge = true ∧
        ∀ other ∈ graph.edges, graph.joins source target other = true →
          ¬ graph.order.idxOf other.id < graph.order.idxOf edge.id := by
  rw [edge?_eq_find?]
  constructor
  · intro hfind
    exact ⟨List.mem_of_find?_eq_some hfind, List.find?_some hfind, fun other hother hjoins =>
      Nat.not_lt.mpr (h.idxOf_le_of_find? hfind hother hjoins)⟩
  · rintro ⟨hedge, hjoins, hinFront⟩
    obtain ⟨first, hfind⟩ := exists_edge? hedge hjoins
    rw [edge?_eq_find?] at hfind
    have hmem := List.mem_of_find?_eq_some hfind
    have hplaces : graph.order.idxOf first.id = graph.order.idxOf edge.id :=
      Nat.le_antisymm (h.idxOf_le_of_find? hfind hedge hjoins)
        (Nat.not_lt.mp (hinFront first hmem (List.find?_some hfind)))
    have hid : first.id = edge.id := (List.idxOf_inj (mem_order hmem)).mp hplaces
    rw [hfind, List.inj_on_of_nodup_map h.ids hmem hedge hid]

/-- The description of an edge has its id. -/
theorem WellFormed.id_of_describedBy? (h : graph.WellFormed) (hedge : edge ∈ graph.edges)
    (hlookup : graph.describedBy? edge = some description) : description.id = some edge.id := by
  obtain ⟨described, hdescribed, hdescribes⟩ := h.described edge hedge
  obtain rfl := Option.some.inj (hlookup.symm.trans hdescribed)
  exact hdescribes.id

theorem exists_edge?_of_path (hpath : graph.path source target [] = .ok description) :
    ∃ edge, graph.edge? source target [] = some edge ∧
      graph.describedBy? edge = some description := by
  unfold path at hpath
  split at hpath
  · rename_i found hfound
    obtain rfl := Except.ok.inj hpath
    exact Option.bind_eq_some_iff.mp hfound
  · cases hpath

/-- A path is the description of its edge. -/
theorem WellFormed.path_eq_iff (h : graph.WellFormed) (hedge : edge ∈ graph.edges)
    (hlookup : graph.describedBy? edge = some description) :
    graph.path source target [] = .ok description ↔
      graph.edge? source target [] = some edge := by
  constructor
  · intro hpath
    obtain ⟨first, hsome, hfirst⟩ := exists_edge?_of_path hpath
    have hmem := (h.edge?_eq_some_iff.mp hsome).1
    -- edges with the same description have the same id
    have hid := Option.some.inj
      ((h.id_of_describedBy? hmem hfirst).symm.trans (h.id_of_describedBy? hedge hlookup))
    rw [hsome, List.inj_on_of_nodup_map h.ids hmem hedge hid]
  · intro hsome
    rw [path, hsome, Option.bind_some, hlookup]

end First

/-! ## The oldest edge -/

/-- How many additions followed the last one under an id. -/
def History.age (history : History) (id : String) : Nat :=
  (history.map Prod.fst).reverse.idxOf id

/-- Whether an edge is the one of a pair that was added first, among those that are there. -/
structure Oldest (graph : Graph) (history : History) (source target : String) (edge : Edge) :
    Prop where
  mem : edge ∈ graph.edges
  joins : graph.joins source target edge = true
  age : ∀ other ∈ graph.edges, graph.joins source target other = true →
    history.age other.id ≤ history.age edge.id

instance (graph : Graph) (history : History) (source target : String) (edge : Edge) :
    Decidable (graph.Oldest history source target edge) :=
  decidable_of_iff (edge ∈ graph.edges ∧ graph.joins source target edge = true ∧
      ∀ other ∈ graph.edges, graph.joins source target other = true →
        history.age other.id ≤ history.age edge.id)
    ⟨fun ⟨hmem, hjoins, hage⟩ => ⟨hmem, hjoins, hage⟩, fun h => ⟨h.mem, h.joins, h.age⟩⟩

/-- Whether no edge of a pair overtook one in some moves and stayed ahead of it. -/
def Unovertaken (graph : Graph) (source target : String) (edge : Edge) (order : List String)
    (moves : List Move) : Prop :=
  ∀ later ∈ graph.edges, graph.joins source target later = true →
    ¬ Overtook later.id edge.id order moves

instance (graph : Graph) (source target : String) (edge : Edge) (order : List String)
    (moves : List Move) : Decidable (graph.Unovertaken source target edge order moves) :=
  inferInstanceAs (Decidable (∀ later ∈ graph.edges, _ → _))

theorem exists_oldest (history : History) {source target : String} {edge : Edge}
    (hedge : edge ∈ graph.edges) (hjoins : graph.joins source target edge = true) :
    ∃ oldest, graph.Oldest history source target oldest := by
  have hmem : edge ∈ graph.edges.filter (graph.joins source target) :=
    List.mem_filter.mpr ⟨hedge, hjoins⟩
  obtain ⟨oldest, holdest⟩ : ∃ oldest, (graph.edges.filter (graph.joins source target)).argmax
      (fun edge => history.age edge.id) = some oldest :=
    Option.ne_none_iff_exists'.mp fun hnone => by
      rw [List.argmax_eq_none.mp hnone] at hmem
      cases hmem
  obtain ⟨holdestMem, holdestJoins⟩ := List.mem_filter.mp (List.argmax_mem holdest)
  exact ⟨oldest, holdestMem, holdestJoins, fun other hother hotherJoins =>
    List.le_of_mem_argmax (f := fun edge : Edge => history.age edge.id)
      (List.mem_filter.mpr ⟨hother, hotherJoins⟩) holdest⟩

/-! ## Overtaking decides -/

section Overtaking

variable {other : Graph} {longer : History} {moves : List Move} {source target : String}
  {edge : Edge}

/-- The edge that came first is that of the path exactly if no other one of the pair overtook it. -/
theorem Moved.edge?_eq_some_iff (h : Moved graph history moves other longer)
    (hwell : graph.WellFormed) (hother : other.WellFormed) (hedge : edge ∈ other.edges)
    (hjoins : other.joins source target edge = true)
    (hfirst : ∀ later ∈ other.edges, other.joins source target later = true → later.id ≠ edge.id →
      (graph.order ++ arrivals moves).reverse.idxOf later.id <
        (graph.order ++ arrivals moves).reverse.idxOf edge.id) :
    other.edge? source target [] = some edge ↔
      other.Unovertaken source target edge graph.order moves := by
  rw [hother.edge?_eq_some_iff, and_iff_right hedge, and_iff_right hjoins]
  refine forall₂_congr fun later hlater => forall_congr' fun hlaterJoins => not_congr ?_
  by_cases hid : later.id = edge.id
  · rw [hid]
    exact iff_of_false (Nat.lt_irrefl _) (not_overtook_self _ _ _)
  · have hmem : later.id ∈ orderAfter graph.order moves := h.order ▸ mem_order hlater
    have hedgeMem : edge.id ∈ orderAfter graph.order moves := h.order ▸ mem_order hedge
    rw [h.order]
    exact idxOf_lt_iff_overtook hwell.ids h.proper hmem hedgeMem
      (hfirst later hlater hlaterJoins hid)

/-- After a run, the oldest edge is that of the path exactly if no other one overtook it. -/
theorem Oldest.edge?_eq_some_iff {idStart : String} {run : List Change}
    (h : ((empty idStart).after run).Oldest (History.ofRun idStart run) source target edge) :
    ((empty idStart).after run).edge? source target [] = some edge ↔
      ((empty idStart).after run).Unovertaken source target edge []
        ((empty idStart).movesOf run) := by
  have hwell := wellFormed_after idStart run
  have hrecorded := recorded_after idStart run
  have hmoved := moved_after (wellFormed_empty idStart) (recorded_empty idStart) run
  have hids : (History.ofRun idStart run).map Prod.fst = arrivals ((empty idStart).movesOf run) :=
    hmoved.entered
  refine hmoved.edge?_eq_some_iff (wellFormed_empty idStart) hwell h.mem h.joins
    fun later hlater hlaterJoins hne => ?_
  change (arrivals ((empty idStart).movesOf run)).reverse.idxOf later.id <
    (arrivals ((empty idStart).movesOf run)).reverse.idxOf edge.id
  rw [← hids]
  refine Nat.lt_of_le_of_ne (h.age later hlater hlaterJoins) fun hage => hne ?_
  -- only one id has a given age
  obtain ⟨given, horigin, -⟩ := hrecorded.describedBy?_eq hwell hlater
  have hmem : later.id ∈ ((History.ofRun idStart run).map Prod.fst).reverse :=
    List.mem_reverse.mpr (List.mem_map_of_mem (History.mem_of_origin? horigin))
  exact (List.idxOf_inj hmem).mp hage

/-- What joins a pair after a change that adds nothing to it was there before, with the same
description. -/
theorem exists_before {idStart : String} (hwell : graph.WellFormed)
    (hrecorded : Recorded idStart graph history) {change : Change}
    (hgiven : ∀ given ∈ change.given, given.connects source target = false)
    (hedge : edge ∈ (graph.change change).edges)
    (hjoins : (graph.change change).joins source target edge = true) :
    edge.id ∉ arrivals (graph.moves change) ∧
      ∃ before ∈ graph.edges, before.id = edge.id ∧
        graph.joins source target before = true ∧
        (graph.change change).describedBy? edge = graph.describedBy? before := by
  have hmoved := moved_change hwell hrecorded change
  have hafter := hrecorded.change hwell change
  obtain ⟨new, hnew, hadded⟩ := History.exists_foldl_record idStart history change.given
  rw [hnew] at hmoved hafter
  have hids : new.map Prod.fst = arrivals (graph.moves change) :=
    List.append_cancel_left (List.map_append.symm.trans hmoved.entered)
  have hold : edge.id ∉ new.map Prod.fst :=
    hafter.not_mem_new (hwell.change change) hedge hjoins (hadded.symm ▸ hgiven)
  obtain ⟨before, hbefore, hid⟩ : ∃ before ∈ graph.edges, before.id = edge.id := by
    rcases mem_of_mem_orderAfter (hmoved.order ▸ mem_order hedge) with hmem | hmem
    · exact List.mem_map.mp hmem
    · exact absurd (hids ▸ hmem) hold
  -- both are described by the same addition
  obtain ⟨given, horigin, hdescribed⟩ := hrecorded.describedBy?_eq hwell hbefore
  have hnone : History.origin? new edge.id = none :=
    Option.not_isSome_iff_eq_none.mp fun hsome => hold (History.isSome_origin?_iff.mp hsome)
  have hlater : (history ++ new).origin? edge.id = some given := by
    rw [History.origin?_append, hnone, Option.none_or, ← hid, horigin]
  refine ⟨hids ▸ hold, before, hbefore, hid, ?_, ?_⟩
  · rw [hrecorded.joins_eq hwell hbefore horigin,
      ← hafter.joins_eq (hwell.change change) hedge hlater, hjoins]
  · obtain ⟨found, hfound, hafterDescribed⟩ := hafter.describedBy?_eq (hwell.change change) hedge
    obtain rfl := Option.some.inj (hlater.symm.trans hfound)
    rw [hafterDescribed, hdescribed, hid]

/-- Of two edges of a pair that nothing was added to, the one that was in front came first. -/
theorem idxOf_reverse_lt_of_old {moves : List Move} {a b : String} (hnodup : graph.order.Nodup)
    (ha : a ∈ graph.order) (hb : b ∈ graph.order) (hanew : a ∉ arrivals moves)
    (hbnew : b ∉ arrivals moves) (hlt : graph.order.idxOf b < graph.order.idxOf a) :
    (graph.order ++ arrivals moves).reverse.idxOf a <
      (graph.order ++ arrivals moves).reverse.idxOf b := by
  have haplace := idxOf_reverse hnodup ha
  have hbplace := idxOf_reverse hnodup hb
  rw [List.reverse_append, List.idxOf_append_of_notMem (by simpa using hanew),
    List.idxOf_append_of_notMem (by simpa using hbnew)]
  omega

/-- A change that adds nothing to a pair keeps its path exactly if it keeps the first edge of the
pair, and no other edge of the pair overtakes this one. -/
theorem path_change_eq_iff {idStart : String} (hwell : graph.WellFormed)
    (hrecorded : Recorded idStart graph history) {first : Edge}
    (hfirst : graph.edge? source target [] = some first) {change : Change}
    (hgiven : ∀ given ∈ change.given, given.connects source target = false) :
    (graph.change change).path source target [] = graph.path source target [] ↔
      (∃ kept ∈ (graph.change change).edges,
        (graph.change change).joins source target kept = true ∧ kept.id = first.id) ∧
      (graph.change change).Unovertaken source target first graph.order (graph.moves change) := by
  have hafter := hwell.change change
  have hmoved := moved_change hwell hrecorded change
  obtain ⟨hmem, hjoins, hinFront⟩ := hwell.edge?_eq_some_iff.mp hfirst
  obtain ⟨description, hlookup, -⟩ := hwell.described first hmem
  rw [(hwell.path_eq_iff hmem hlookup).mpr hfirst]
  -- what was kept of the first edge is that of the path if it was not overtaken
  have hkeptFirst : ∀ kept ∈ (graph.change change).edges,
      (graph.change change).joins source target kept = true → kept.id = first.id →
      ((graph.change change).path source target [] = .ok description ↔
        (graph.change change).Unovertaken source target first graph.order
          (graph.moves change)) := by
    intro kept hkept hkeptJoins hid
    obtain ⟨hnew, before, hbefore, hbeforeId, -, hsame⟩ :=
      exists_before hwell hrecorded hgiven hkept hkeptJoins
    obtain rfl := List.inj_on_of_nodup_map hwell.ids hbefore hmem (hbeforeId.trans hid)
    rw [hafter.path_eq_iff hkept (hsame.trans hlookup), Unovertaken, hbeforeId]
    refine hmoved.edge?_eq_some_iff hwell hafter hkept hkeptJoins
      fun later hlater hlaterJoins hne => ?_
    obtain ⟨hlaterNew, old, hold, holdId, holdJoins, -⟩ :=
      exists_before hwell hrecorded hgiven hlater hlaterJoins
    rw [← hbeforeId] at hnew hne ⊢
    rw [← holdId] at hlaterNew hne ⊢
    refine idxOf_reverse_lt_of_old hwell.ids (mem_order hold) (mem_order hmem) hlaterNew hnew ?_
    refine Nat.lt_of_le_of_ne (Nat.not_lt.mp (hinFront old hold holdJoins)) fun hplace => hne ?_
    exact ((List.idxOf_inj (mem_order hmem)).mp hplace).symm
  constructor
  · intro hpath
    obtain ⟨kept, hkept, hkeptJoins, hid⟩ : ∃ kept ∈ (graph.change change).edges,
        (graph.change change).joins source target kept = true ∧ kept.id = first.id := by
      obtain ⟨kept, hsome, hkeptLookup⟩ := exists_edge?_of_path hpath
      obtain ⟨hkept, hkeptJoins, -⟩ := hafter.edge?_eq_some_iff.mp hsome
      exact ⟨kept, hkept, hkeptJoins, Option.some.inj
        ((hafter.id_of_describedBy? hkept hkeptLookup).symm.trans
          (hwell.id_of_describedBy? hmem hlookup))⟩
    exact ⟨⟨kept, hkept, hkeptJoins, hid⟩, (hkeptFirst kept hkept hkeptJoins hid).mp hpath⟩
  · rintro ⟨⟨kept, hkept, hkeptJoins, hid⟩, hunovertaken⟩
    exact (hkeptFirst kept hkept hkeptJoins hid).mpr hunovertaken

end Overtaking

/-- **The path is the oldest edge of its pair unless another one overtook it.**  After every run,
the edges of a pair that has any have an oldest one.  Its description is the path exactly if no
other edge of the pair, moved as the last edge of the graph to a free place, overtook it and stayed
ahead of it.  And a change that adds nothing to the pair leaves the path as it is exactly if it
keeps the edge of the path, and no other edge of the pair overtakes this one in the change. -/
theorem path_eq_oldest_iff (idStart : String) (run : List Change) {source target : String}
    {edge : Edge} (hedge : edge ∈ ((empty idStart).after run).edges)
    (hjoins : ((empty idStart).after run).joins source target edge = true) :
    let graph := (empty idStart).after run
    let history := History.ofRun idStart run
    (∃ oldest, graph.Oldest history source target oldest) ∧
    (∀ oldest, graph.Oldest history source target oldest →
      ∃ description, graph.describedBy? oldest = some description ∧
        (graph.path source target [] = .ok description ↔
          graph.Unovertaken source target oldest [] ((empty idStart).movesOf run))) ∧
    ∃ first, graph.edge? source target [] = some first ∧
      ∀ change : Change,
        (∀ given ∈ change.given, given.connects source target = false) →
        let other := graph.change change
        (other.path source target [] = graph.path source target [] ↔
          (∃ kept ∈ other.edges, other.joins source target kept = true ∧ kept.id = first.id) ∧
            other.Unovertaken source target first graph.order (graph.moves change)) := by
  intro graph history
  have hwell : graph.WellFormed := wellFormed_after idStart run
  have hrecorded : Recorded idStart graph history := recorded_after idStart run
  refine ⟨exists_oldest history hedge hjoins, fun oldest holdest => ?_, ?_⟩
  · obtain ⟨description, hlookup, -⟩ := hwell.described oldest holdest.mem
    exact ⟨description, hlookup,
      (hwell.path_eq_iff holdest.mem hlookup).trans holdest.edge?_eq_some_iff⟩
  · obtain ⟨first, hfirst⟩ := exists_edge? hedge hjoins
    exact ⟨first, hfirst, fun change hgiven => path_change_eq_iff hwell hrecorded hfirst hgiven⟩

/-! ### An edge that takes a free place in front -/

namespace Overtaken

def first : Description := { Description.new "A" "B" with id := some "first" }

def second : Description := { Description.new "A" "B" with id := some "second" }

def other (id : String) : Description := { Description.new "C" "D" with id := some id }

def run : List Change := [.add (other "x"), .add first, .add second]

/-- The removal of another pair's edge moves the last edge in front of the oldest one. -/
theorem path_ne_oldest :
    let graph := (empty defaultIdStart).after run
    let smaller := graph.change (.remove (other "x"))
    (∃ oldest ∈ smaller.edges,
      smaller.Oldest (History.ofRun defaultIdStart (run ++ [.remove (other "x")])) "A" "B" oldest ∧
        smaller.describedBy? oldest = some first) ∧
      graph.path "A" "B" [] = .ok first ∧ smaller.path "A" "B" [] = .ok second := by
  decide +kernel

/-- A second removal moves the oldest edge in front again. -/
def longer : List Change :=
  [.add (other "x"), .add (other "y"), .add first, .add second, .remove (other "y"),
    .remove (other "x")]

theorem path_longer :
    ((⟨"first", 2, 3, none⟩ : Edge) ∈ ((empty defaultIdStart).after longer).edges ∧
      ((empty defaultIdStart).after longer).joins "A" "B" ⟨"first", 2, 3, none⟩ = true) ∧
    ((empty defaultIdStart).after longer).path "A" "B" [] = .ok first := by
  have hmem : (⟨"first", 2, 3, none⟩ : Edge) ∈ ((empty defaultIdStart).after longer).edges := by
    decide +kernel
  have hjoins :
      ((empty defaultIdStart).after longer).joins "A" "B" ⟨"first", 2, 3, none⟩ = true := by
    decide +kernel
  obtain ⟨-, holdest, -⟩ := path_eq_oldest_iff defaultIdStart longer hmem hjoins
  obtain ⟨description, hlookup, hpath⟩ := holdest ⟨"first", 2, 3, none⟩ (by decide +kernel)
  have hfirst : ((empty defaultIdStart).after longer).describedBy? ⟨"first", 2, 3, none⟩ =
      some first := by
    decide +kernel
  obtain rfl := Option.some.inj (hfirst.symm.trans hlookup)
  exact ⟨⟨hmem, hjoins⟩, hpath.mpr (by decide +kernel)⟩

end Overtaken

end Graph

end Remodel
