import Remodel.Trace
import Remodel.Transform.Description

/-!
# The graph of transformations

Types are nodes and descriptions are edges from their source to their target.  Several
edges may join the same nodes; an id belongs to one edge only.

## Strategy

Nodes and edges are lists, and a node or an edge is known by its place.  An index gives
the place of a type's node; nodes are never removed, so it only grows.  A removed edge
leaves its place to the last one, so that no other edge moves.  Edges to remove are
chosen first and then removed from the highest place down: what moves into a free place
was not chosen then.  The descriptions stand in a table by id beside the edges.
-/

namespace Remodel

/-- A type in the graph.  A type that is only known as an end of an edge is inactive. -/
structure Vertex where
  typeId : String
  active : Bool
  deriving Repr, DecidableEq, Inhabited

/-- An edge between the nodes at two places, with the id and the file of its
description. -/
structure Edge where
  id : String
  source : Nat
  target : Nat
  fileName : Option String
  deriving Repr, DecidableEq, Inhabited

/-- The nodes and edges in the order of their places, the places of the types, the
descriptions by id, and how many ids were assigned; assigned ids begin with `idStart`. -/
structure Graph where
  nodes : List Vertex
  edges : List Edge
  places : List (String × Nat)
  descriptions : List (String × Description)
  assigned : Nat
  idStart : String
  deriving Repr, DecidableEq, Inhabited

namespace Graph

/-- How assigned ids begin unless something else is wanted. -/
def defaultIdStart : String := "internal-"

/-- The graph without nodes. -/
def empty (idStart : String) : Graph := ⟨[], [], [], [], 0, idStart⟩

/-! ### Types -/

/-- The place of a type's node, as the index has it. -/
def nodeIndex? (graph : Graph) (typeId : String) : Option Nat := graph.places.lookup typeId

/-- The graph with a node for a type, and its place.  A type that has none gets an inactive
one at the end. -/
def node (graph : Graph) (typeId : String) : Graph × Nat :=
  match graph.nodeIndex? typeId with
  | some place => (graph, place)
  | none =>
    ({ graph with
        nodes := graph.nodes ++ [⟨typeId, false⟩]
        places := Table.insert typeId graph.nodes.length graph.places },
      graph.nodes.length)

/-- The graph with the node at a place set active or inactive. -/
def setActive (graph : Graph) (place : Nat) (active : Bool) : Graph :=
  { graph with nodes := graph.nodes.modify place fun node => { node with active := active } }

/-- Activates a type, adding it if it is not known. -/
def insertType (graph : Graph) (typeId : String) : Graph :=
  let (graph, place) := graph.node typeId
  graph.setActive place true

/-- Deactivates a type; its edges stay. -/
def dropType (graph : Graph) (typeId : String) : Traced Graph :=
  match graph.nodeIndex? typeId with
  | some place => pure (graph.setActive place false)
  | none => do
    Traced.note (.unknownType typeId)
    return graph

/-- Whether a type is known and active. -/
def isActive (graph : Graph) (typeId : String) : Bool :=
  ((graph.nodeIndex? typeId).bind fun place => graph.nodes[place]?).any Vertex.active

/-- The known types by ascending id. -/
def types (graph : Graph) : List Vertex :=
  (Table.ofList (graph.nodes.map fun node => (node.typeId, node))).map Prod.snd

/-! ### Choosing and removing edges -/

/-- The list with its last item at a place instead of the item there. -/
def swapRemove {α : Type} (items : List α) (index : Nat) : List α :=
  match items.getLast? with
  | some last => if index < items.length then (items.set index last).dropLast else items
  | none => []

/-- The places of the edges that a test accepts, ascending. -/
def select (graph : Graph) (chosen : Edge → Bool) : List Nat :=
  (List.range graph.edges.length).filter fun index =>
    match graph.edges[index]? with
    | some edge => chosen edge
    | none => false

/-- The description of an edge. -/
def describedBy? (graph : Graph) (edge : Edge) : Option Description :=
  graph.descriptions.lookup edge.id

/-- Removes the edge at a place together with its description. -/
def dropEdge (graph : Graph) (index : Nat) : Graph × Option Description :=
  match graph.edges[index]? with
  | some edge =>
    ({ graph with
        edges := swapRemove graph.edges index
        descriptions := Table.erase edge.id graph.descriptions },
      graph.describedBy? edge)
  | none => (graph, none)

/-- Removes the edges at several places, one after the other. -/
def removeEdges (graph : Graph) : List Nat → Graph × List Description
  | [] => (graph, [])
  | index :: rest =>
    let (smaller, description) := graph.dropEdge index
    let (result, descriptions) := smaller.removeEdges rest
    (result, description.toList ++ descriptions)

/-- Removes the edges that a test accepts, from the highest place down, and gives their
descriptions in this order. -/
def removeWhere (graph : Graph) (chosen : Edge → Bool) : Graph × List Description :=
  graph.removeEdges (graph.select chosen).reverse

/-- Whether an edge joins a pair of types. -/
def joins (graph : Graph) (source target : String) (edge : Edge) : Bool :=
  graph.nodeIndex? source = some edge.source && graph.nodeIndex? target = some edge.target

/-- Whether an id looks like an assigned one. -/
def isAssigned (graph : Graph) (id : String) : Bool :=
  graph.idStart.toList.isPrefixOf id.toList

/-- Removes every edge of a pair. -/
def dropBetween (graph : Graph) (source target : String) : Graph × List Description :=
  graph.removeWhere (graph.joins source target)

/-- Whether a description asks for the removal of an edge of its pair: of the one with its
id, or of all with assigned ids if it has none. -/
def asksFor (graph : Graph) (description : Description) (edge : Edge) : Bool :=
  match description.id with
  | some id => edge.id = id
  | none => graph.isAssigned edge.id

/-- Removes the edges of a description's pair that it asks for. -/
def remove (graph : Graph) (description : Description) : Graph × List Description :=
  graph.removeWhere fun edge =>
    graph.joins description.source description.target edge && graph.asksFor description edge

/-- Removes the edges whose descriptions are from a file. -/
def dropFile (graph : Graph) (fileName : String) : Graph × List Description :=
  graph.removeWhere fun edge => edge.fileName = some fileName

/-! ### Adding edges -/

/-- The graph with one more id assigned, and that id. -/
def assignId (graph : Graph) : Graph × String :=
  let assigned := graph.assigned + 1
  ({ graph with assigned := assigned }, graph.idStart ++ Text.ofNat assigned)

/-- The graph with an edge for a description under an id that no edge has. -/
def link (graph : Graph) (id : String) (description : Description) : Graph :=
  let (graph, source) := graph.node description.source
  let (graph, target) := graph.node description.target
  { graph with
    edges := graph.edges ++ [⟨id, source, target, description.fileName⟩]
    descriptions := Table.insert id description graph.descriptions }

/-- The place of the first edge with an id. -/
def edgeIndex? (graph : Graph) (id : String) : Option Nat :=
  graph.edges.findIdx? fun edge => edge.id = id

/-- Removes the first edge with an id. -/
def dropId (graph : Graph) (id : String) : Graph :=
  match graph.edgeIndex? id with
  | some place => (graph.dropEdge place).1
  | none => graph

/-- Adds an edge under the description's own id, replacing the edge with that id. -/
def addAs (graph : Graph) (id : String) (description : Description) : Graph :=
  (graph.dropId id).link id { description with id := some id }

/-- Adds an edge for a description, and gives its id.  A description without id is
assigned one; an edge with the same id is replaced. -/
def add (graph : Graph) (description : Description) : Graph × String :=
  match description.id with
  | some id => (graph.addAs id description, id)
  | none =>
    let (graph, id) := graph.assignId
    (graph.addAs id description, id)

/-- What replacing the edges of a pair gives: the graph, the id of the new edge, its
description as it is stored, and the removed descriptions. -/
structure Replacement where
  graph : Graph
  id : String
  stored : Description
  removed : List Description
  deriving Repr, DecidableEq, Inhabited

/-- Adds an edge for a description as the only one of its pair. -/
def replace (graph : Graph) (description : Description) : Replacement :=
  let (graph, removed) := graph.dropBetween description.source description.target
  let (graph, id) := graph.add description
  ⟨graph, id, { description with id := some id }, removed⟩

/-- What loading a file again gives: the graph, and the removed and the new
descriptions. -/
structure Reloaded where
  graph : Graph
  removed : List Description
  added : List Description
  deriving Repr, DecidableEq, Inhabited

/-- Adds a description of a file as the only one of its pair. -/
def Reloaded.add (fileName : String) (reloaded : Reloaded) (description : Description) :
    Reloaded :=
  let replacement := reloaded.graph.replace { description with fileName := some fileName }
  ⟨replacement.graph, reloaded.removed ++ replacement.removed,
    reloaded.added ++ [replacement.stored]⟩

/-- Replaces the descriptions of a file. -/
def rereadFile (graph : Graph) (fileName : String) (descriptions : List Description) : Reloaded :=
  let (graph, removed) := graph.dropFile fileName
  descriptions.foldl (Reloaded.add fileName) ⟨graph, removed, []⟩

/-! ### Looking up -/

/-- The description with an id. -/
def description? (graph : Graph) (id : String) : Option Description := graph.descriptions.lookup id

/-- The descriptions of a file, in the order of their edges. -/
def ofFile (graph : Graph) (fileName : String) : List Description :=
  (graph.edges.filter fun edge => edge.fileName = some fileName).filterMap graph.describedBy?

/-- The edge that leads from one type to another: the first of the pair, or the one with
the first wanted id. -/
def edge? (graph : Graph) (source target : String) (ids : List String) : Option Edge :=
  let edges := graph.edges.filter (graph.joins source target)
  match ids.head? with
  | some id => edges.find? fun edge => edge.id = id
  | none => edges.head?

/-- The description that leads from one type to another in one step. -/
def path (graph : Graph) (source target : String) (ids : List String) : Except Error Description :=
  match (graph.edge? source target ids).bind graph.describedBy? with
  | some description => .ok description
  | none => .error (.noTransformation source target)

/-- Whether a description leads from one type to another. -/
def hasPath (graph : Graph) (source target : String) (ids : List String) : Bool :=
  (graph.path source target ids).isOk

end Graph

end Remodel
