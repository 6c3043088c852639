import Remodel.Graph.Basic
import Remodel.Text.Parts

/-!
# Drawing the graph

The graph in the DOT language: a box for every type, coloured by whether it is active,
and an arrow for every edge, labelled with its id and file.

## Strategy

Nodes are named by their places.  In a label a backslash and a quote are written
behind a backslash, so that the label ends at the first quote without one.
-/

namespace Remodel.Graph

/-- A text inside a label: backslashes are doubled first, since each quote gets one. -/
def escape (text : String) : String :=
  Text.replace "\"" "\\\"" (Text.replace "\\" "\\\\" text)

/-- The colour of a node. -/
def colour (node : Vertex) : String := if node.active then "#00BCD4" else "#607D8B"

/-- The name of the node at a place. -/
def nodeName (index : Nat) : String := "n" ++ Text.ofNat index

/-- The line of the node at a place. -/
def nodeLine (index : Nat) (node : Vertex) : String :=
  "  " ++ nodeName index ++ " [label=\"" ++ escape node.typeId ++ "\", fillcolor=\"" ++
    colour node ++ "\"];\n"

/-- The label of an edge: its id and, on a line of its own, its file. -/
def edgeLabel (edge : Edge) : String :=
  match edge.fileName with
  | some fileName => escape edge.id ++ "\\n" ++ escape fileName
  | none => escape edge.id

/-- The line of an edge. -/
def edgeLine (edge : Edge) : String :=
  "  " ++ nodeName edge.source ++ " -> " ++ nodeName edge.target ++ " [label=\"" ++
    edgeLabel edge ++ "\"];\n"

/-- The lines before the nodes. -/
def heading : String :=
  "digraph TransformationGraph \x7b\n  rankdir=LR;\n" ++
    "  node [shape=box, style=\"filled,rounded\", fontname=\"Helvetica\", fontsize=10, " ++
    "fontcolor=\"white\"];\n  edge [fontname=\"Helvetica\", fontsize=8];\n\n"

/-- The graph as a drawing. -/
def dot (graph : Graph) : String :=
  heading ++ Text.join "" (graph.nodes.mapIdx nodeLine) ++ "\n" ++
    Text.join "" (graph.edges.map edgeLine) ++ "\x7d\n"

end Remodel.Graph
