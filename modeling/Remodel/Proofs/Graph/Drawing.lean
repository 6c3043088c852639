import Remodel.Graph.Dot
import Remodel.Proofs.Text.Numerals
import Remodel.Proofs.Text.Parts

/-!
# Drawings can be read back

The drawing of a graph says what its nodes and edges are, whatever their ids and files are named
(`dot_readable`): every label is one quoted string, and the nodes and edges are found again in the
text.  So graphs have the same drawing if and only if they have the same nodes and the same edges.

## Strategy

A text is cut at the quotes that do not stand behind a backslash (`quoteParts`), which gives its
quoted strings, each with what stands before it on its line (`quotedStrings`).  Lines that end
outside of quotes can be taken one by one (`quotedStrings_quoted`, `quotedStrings_line`), so that
the strings of a drawing are those of its heading, then two for each node and one for each edge
(`quotedStrings_dot`).  What stands before a string tells what it is.

In a label a backslash and its successor belong together.  They stand for a backslash or a quote, as
`escape` writes them, or end the first line of the label (`labelTexts`).
-/

namespace Remodel.Graph

open Text

/-! ## Quoted strings -/

/-- The parts of a text between its quotes; a character behind a backslash is not a quote.  Parts
outside of quotes and quoted strings take turns. -/
def quoteParts : List Char → List (List Char)
  | '\\' :: c :: rest => consHead '\\' (consHead c (quoteParts rest))
  | c :: rest => if c = '"' then [] :: quoteParts rest else consHead c (quoteParts rest)
  | [] => [[]]

/-- The part of a text behind its last line break. -/
def lastLine (text : List Char) : List Char :=
  (text.splitOn '\n').getLast (List.splitOn_ne_nil '\n' text)

/-- The quoted strings among the parts between quotes, each with what is before it on its line. -/
def everySecond : List (List Char) → List (String × String)
  | before :: inside :: rest =>
    (String.ofList (lastLine before), String.ofList inside) :: everySecond rest
  | _ => []

/-- The quoted strings of a text, each with what is before it on its line, up to the string
before. -/
def quotedStrings (text : List Char) : List (String × String) := everySecond (quoteParts text)

/-! ## Reading a drawing -/

/-- The texts on the lines of a label. -/
def labelTexts : List Char → List (List Char)
  | '\\' :: c :: rest => if c = 'n' then [] :: labelTexts rest else consHead c (labelTexts rest)
  | c :: rest => consHead c (labelTexts rest)
  | [] => [[]]

/-- The place of the node with a name. -/
def place? (name : String) : Option Nat :=
  match name.toList with
  | 'n' :: digits => natural? digits
  | _ => none

/-- The type of a node, if a quoted string is its label. -/
def drawnType? (quoted : String × String) : Option String :=
  match parts " " quoted.1, labelTexts quoted.2.toList with
  | ["", "", _, "[label="], [typeId] => some (String.ofList typeId)
  | _, _ => none

/-- Whether a node is active, if a quoted string is its colour. -/
def drawnActive? (quoted : String × String) : Option Bool :=
  match parts " " quoted.1, quoted.2 with
  | [",", "fillcolor="], "#00BCD4" => some true
  | [",", "fillcolor="], "#607D8B" => some false
  | _, _ => none

/-- An edge, if a quoted string is its label. -/
def drawnEdge? (quoted : String × String) : Option Edge :=
  match parts " " quoted.1 with
  | ["", "", source, "->", target, "[label="] => do
    let source ← place? source
    let target ← place? target
    match labelTexts quoted.2.toList with
    | [id] => some ⟨String.ofList id, source, target, none⟩
    | [id, fileName] => some ⟨String.ofList id, source, target, some (String.ofList fileName)⟩
    | _ => none
  | _ => none

/-- The nodes of a drawing. -/
def drawnNodes (drawing : String) : List Vertex :=
  let strings := quotedStrings drawing.toList
  List.zipWith Vertex.mk (strings.filterMap drawnType?) (strings.filterMap drawnActive?)

/-- The edges of a drawing. -/
def drawnEdges (drawing : String) : List Edge :=
  (quotedStrings drawing.toList).filterMap drawnEdge?

/-! ## Texts without a quote of their own -/

/-- Whether cutting at quotes passes over a text: no quote in it ends a part, and no backslash at
its end takes its meaning from what follows. -/
def Sealed (text : List Char) : Prop :=
  ∀ rest, quoteParts (text ++ rest) = (quoteParts rest).modifyHead (text ++ ·)

section Sealed

variable {text rest first second : List Char}

theorem quoteParts_ne_nil (text : List Char) : quoteParts text ≠ [] := by
  rw [quoteParts.eq_def]
  split
  · exact consHead_ne_nil _ _
  · split
    · exact List.cons_ne_nil _ _
    · exact consHead_ne_nil _ _
  · exact List.cons_ne_nil _ _

theorem sealed_nil : Sealed [] := by
  intro rest
  obtain ⟨part, parts, hparts⟩ := List.exists_cons_of_ne_nil (quoteParts_ne_nil rest)
  rw [List.nil_append, hparts]
  rfl

theorem Sealed.append (hfirst : Sealed first) (hsecond : Sealed second) :
    Sealed (first ++ second) := by
  intro rest
  rw [List.append_assoc, hfirst, hsecond, List.modifyHead_modifyHead]
  congr 1
  funext part
  exact (List.append_assoc first second part).symm

theorem sealed_singleton {c : Char} (hquote : c ≠ '"') (hslash : c ≠ '\\') : Sealed [c] := by
  intro rest
  rw [List.singleton_append, quoteParts, if_neg hquote, consHead_eq c (quoteParts_ne_nil rest)]
  · rfl
  · intro _ _ h
    exact absurd h hslash

theorem sealed_pair (c : Char) : Sealed ['\\', c] := by
  intro rest
  have hrest := quoteParts_ne_nil rest
  obtain ⟨part, parts, hparts⟩ := List.exists_cons_of_ne_nil hrest
  rw [List.cons_append, List.singleton_append, quoteParts, hparts]
  rfl

/-- Whether a text has neither quotes nor backslashes. -/
def Plain (text : List Char) : Prop := ∀ c ∈ text, c ≠ '"' ∧ c ≠ '\\'

instance : DecidablePred Plain := fun text =>
  List.decidableBAll (fun c => c ≠ '"' ∧ c ≠ '\\') text

theorem Plain.append (hfirst : Plain first) (hsecond : Plain second) : Plain (first ++ second) :=
  List.forall_mem_append.mpr ⟨hfirst, hsecond⟩

theorem Plain.sealed (h : Plain text) : Sealed text := by
  induction text with
  | nil => exact sealed_nil
  | cons c rest ih =>
      obtain ⟨hc, hrest⟩ := List.forall_mem_cons.mp h
      exact (sealed_singleton hc.1 hc.2).append (ih hrest)

/-- A character of a label as it is written. -/
def escapeChar (c : Char) : List Char :=
  if c = '\\' then ['\\', '\\'] else if c = '"' then ['\\', '"'] else [c]

/-- The two replacements write the characters one by one: no quote comes with the backslashes of the
first, and the second leaves them as they are. -/
theorem toList_escape (text : String) : (escape text).toList = text.toList.flatMap escapeChar := by
  have hslash : ("\\" : String) = String.singleton '\\' := rfl
  have hquote : ("\"" : String) = String.singleton '"' := rfl
  rw [escape, hquote, toList_replace_singleton, hslash, toList_replace_singleton,
    List.flatMap_assoc]
  refine List.flatMap_congr fun c _ => ?_
  unfold escapeChar
  split
  · rfl
  · rw [List.flatMap_singleton]
    rfl

theorem sealed_escapeChar (c : Char) : Sealed (escapeChar c) := by
  rw [escapeChar]
  split
  · exact sealed_pair '\\'
  · rename_i hslash
    split
    · exact sealed_pair '"'
    · rename_i hquote
      exact sealed_singleton hquote hslash

theorem sealed_escape (text : String) : Sealed (escape text).toList := by
  rw [toList_escape]
  induction text.toList with
  | nil => exact sealed_nil
  | cons c rest ih => exact (sealed_escapeChar c).append ih

theorem sealed_edgeLabel (edge : Edge) : Sealed (edgeLabel edge).toList := by
  rw [edgeLabel]
  split
  · rw [String.toList_append, String.toList_append]
    exact ((sealed_escape edge.id).append (sealed_pair 'n')).append (sealed_escape _)
  · exact sealed_escape edge.id

/-- The first quote behind a text that is passed over ends the first part. -/
theorem Sealed.quoteParts_quote (h : Sealed text) (rest : List Char) :
    quoteParts (text ++ '"' :: rest) = text :: quoteParts rest := by
  have hquote : quoteParts ('"' :: rest) = [] :: quoteParts rest := by
    rw [quoteParts, if_pos rfl]
    intro _ _ hslash
    exact absurd hslash (by decide)
  rw [h, hquote, List.modifyHead_cons, List.append_nil]

end Sealed

/-! ## Line by line -/

section Lines

variable {front line inside rest : List Char}

theorem lastLine_append (front line : List Char) :
    lastLine (front ++ '\n' :: line) = lastLine line := by
  rw [lastLine, lastLine]
  have hparts : (front ++ '\n' :: line).splitOn '\n' =
      front.splitOn '\n' ++ line.splitOn '\n' := List.splitOn_append_cons_self ..
  have hne := List.splitOn_ne_nil '\n' line
  rw [List.getLast_congr _ (List.append_ne_nil_of_right_ne_nil _ hne) hparts,
    List.getLast_append_of_ne_nil _ hne]

theorem lastLine_of_notMem (h : '\n' ∉ line) : lastLine line = line := by
  rw [lastLine, List.getLast_congr _ (List.cons_ne_nil _ _) (List.splitOn_eq_singleton h),
    List.getLast_singleton]

/-- A line that ends outside of quotes is not seen behind it. -/
theorem quotedStrings_line (hfront : Plain front) (rest : List Char) :
    quotedStrings (front ++ '\n' :: rest) = quotedStrings rest := by
  have hline : Sealed (front ++ ['\n']) :=
    (hfront.append (by decide : Plain ['\n'])).sealed
  obtain ⟨part, parts, hparts⟩ := List.exists_cons_of_ne_nil (quoteParts_ne_nil rest)
  have hcut := hline rest
  rw [List.append_assoc, List.singleton_append, hparts, List.modifyHead_cons] at hcut
  rw [quotedStrings, quotedStrings, hcut, hparts]
  cases parts with
  | nil => rfl
  | cons inside others =>
      rw [everySecond, everySecond, List.append_assoc, List.singleton_append, lastLine_append]

/-- A quoted string with what is before it on its line. -/
theorem quotedStrings_quoted (hfront : Plain front) (hline : '\n' ∉ front) (hinside : Sealed inside)
    (rest : List Char) :
    quotedStrings (front ++ '"' :: (inside ++ '"' :: rest)) =
      (String.ofList front, String.ofList inside) :: quotedStrings rest := by
  rw [quotedStrings, hfront.sealed.quoteParts_quote, hinside.quoteParts_quote, everySecond,
    lastLine_of_notMem hline]
  rfl

end Lines

/-! ## Pieces of a drawing -/

/-- A piece of a text: what is left of a line, or a quoted string behind what is before it on its
line. -/
inductive Piece
  | line (text : String)
  | quoted (before inside : String)

namespace Piece

/-- A piece as it is written. -/
def chars : Piece → List Char
  | line text => text.toList ++ ['\n']
  | quoted before inside => before.toList ++ '"' :: (inside.toList ++ ['"'])

/-- The quoted string of a piece that has one. -/
def strings : Piece → List (String × String)
  | line _ => []
  | quoted before inside => [(before, inside)]

/-- Whether the quotes of a piece are those around its string. -/
def Fits : Piece → Prop
  | line text => Plain text.toList
  | quoted before inside => Plain before.toList ∧ '\n' ∉ before.toList ∧ Sealed inside.toList

theorem quotedStrings_chars_append {piece : Piece} (hfits : piece.Fits) (rest : List Char) :
    quotedStrings (piece.chars ++ rest) = piece.strings ++ quotedStrings rest := by
  cases piece with
  | line text =>
      rw [chars, List.append_assoc, List.singleton_append, quotedStrings_line hfits]
      rfl
  | quoted before inside =>
      obtain ⟨hbefore, hline, hinside⟩ := hfits
      rw [chars, List.append_assoc, List.cons_append, List.append_assoc, List.singleton_append,
        quotedStrings_quoted hbefore hline hinside, String.ofList_toList, String.ofList_toList]
      rfl

/-- The quoted strings of a text are those of its pieces. -/
theorem quotedStrings_flatMap_chars {pieces : List Piece} (hfits : ∀ piece ∈ pieces, piece.Fits) :
    quotedStrings (pieces.flatMap chars) = pieces.flatMap strings := by
  induction pieces with
  | nil => rfl
  | cons piece pieces ih =>
      obtain ⟨hpiece, hpieces⟩ := List.forall_mem_cons.mp hfits
      rw [List.flatMap_cons, List.flatMap_cons, quotedStrings_chars_append hpiece, ih hpieces]

end Piece

/-- The pieces of the heading. -/
def headingPieces : List Piece :=
  [.line "digraph TransformationGraph \x7b", .line "  rankdir=LR;",
    .quoted "  node [shape=box, style=" "filled,rounded", .quoted ", fontname=" "Helvetica",
    .quoted ", fontsize=10, fontcolor=" "white", .line "];",
    .quoted "  edge [fontname=" "Helvetica", .line ", fontsize=8];", .line ""]

/-- What the line of a node says up to its label. -/
def nodeFront (index : Nat) : String := "  " ++ nodeName index ++ " [label="

/-- The pieces of the line of a node: its label, its colour and the end of the line. -/
def nodePieces (index : Nat) (node : Vertex) : List Piece :=
  [.quoted (nodeFront index) (escape node.typeId),
    .quoted ", fillcolor=" (colour node), .line "];"]

/-- What the line of an edge says up to its label. -/
def edgeFront (source target : Nat) : String :=
  "  " ++ nodeName source ++ " -> " ++ nodeName target ++ " [label="

/-- The pieces of the line of an edge: its label and the end of the line. -/
def edgePieces (edge : Edge) : List Piece :=
  [.quoted (edgeFront edge.source edge.target) (edgeLabel edge), .line "];"]

/-- The pieces of a drawing. -/
def dotPieces (graph : Graph) : List Piece :=
  headingPieces ++ (graph.nodes.zipIdx.flatMap fun entry => nodePieces entry.2 entry.1) ++
    .line "" :: (graph.edges.flatMap edgePieces ++ [.line "\x7d"])

theorem toList_heading : heading.toList = headingPieces.flatMap Piece.chars := by decide +kernel

theorem toList_nodeLine (index : Nat) (node : Vertex) :
    (nodeLine index node).toList = (nodePieces index node).flatMap Piece.chars := by
  simp [nodeLine, nodePieces, nodeFront, Piece.chars]

theorem toList_edgeLine (edge : Edge) :
    (edgeLine edge).toList = (edgePieces edge).flatMap Piece.chars := by
  simp [edgeLine, edgePieces, edgeFront, Piece.chars]

theorem toList_dot (graph : Graph) : graph.dot.toList = (dotPieces graph).flatMap Piece.chars := by
  have hdot : graph.dot.toList = heading.toList ++
      (graph.nodes.zipIdx.flatMap fun entry => (nodeLine entry.2 entry.1).toList) ++
        '\n' :: ((graph.edges.flatMap fun edge => (edgeLine edge).toList) ++ ['\x7d', '\n']) := by
    simp [dot, Text.join, joinParts_nil_eq_flatten, List.mapIdx_eq_zipIdx_map, List.flatMap_def,
      Function.comp_def]
  simp only [hdot, toList_heading, toList_nodeLine, toList_edgeLine, dotPieces, List.flatMap_append,
    List.flatMap_cons, List.flatMap_assoc]
  rfl

/-! ### Their quotes -/

theorem toList_nodeName (index : Nat) : (nodeName index).toList = 'n' :: decimal index := by
  simp [nodeName, Text.ofNat]

theorem not_mem_nodeName {c : Char} (hc : c ≠ 'n') (hdigit : c.isDigit = false) (index : Nat) :
    c ∉ (nodeName index).toList := by
  rw [toList_nodeName]
  intro h
  rcases List.mem_cons.mp h with h | h
  · exact hc h
  · rw [isDigit_of_mem_decimal h] at hdigit
    cases hdigit

theorem plain_nodeName (index : Nat) : Plain (nodeName index).toList := by
  intro c hc
  refine ⟨?_, ?_⟩
  · rintro rfl
    exact not_mem_nodeName (by decide) rfl index hc
  · rintro rfl
    exact not_mem_nodeName (by decide) rfl index hc

theorem fits_headingPieces : ∀ piece ∈ headingPieces, piece.Fits := by
  have hplain : ∀ text ∈ ["filled,rounded", "Helvetica", "white"], Plain text.toList := by decide
  have hsealed := fun text htext => (hplain text htext).sealed
  simp only [headingPieces, List.forall_mem_cons, Piece.Fits]
  refine ⟨?_, ?_, ⟨?_, ?_, hsealed _ ?_⟩, ⟨?_, ?_, hsealed _ ?_⟩, ⟨?_, ?_, hsealed _ ?_⟩, ?_,
    ⟨?_, ?_, hsealed _ ?_⟩, ?_, ?_, nofun⟩
  all_goals decide

theorem fits_nodePieces (index : Nat) (node : Vertex) :
    ∀ piece ∈ nodePieces index node, piece.Fits := by
  have hname : Plain (nodeFront index).toList := by
    rw [nodeFront, String.toList_append, String.toList_append]
    exact ((by decide : Plain _).append (plain_nodeName index)).append (by decide)
  have hline : '\n' ∉ (nodeFront index).toList := by
    simp [nodeFront, not_mem_nodeName]
  have hcolour : Plain (colour node).toList := by
    rw [colour]
    split <;> decide
  simp only [nodePieces, List.forall_mem_cons, Piece.Fits]
  exact ⟨⟨hname, hline, sealed_escape node.typeId⟩, ⟨by decide, by decide, hcolour.sealed⟩,
    by decide, nofun⟩

theorem fits_edgePieces (edge : Edge) : ∀ piece ∈ edgePieces edge, piece.Fits := by
  have hname : Plain (edgeFront edge.source edge.target).toList := by
    simp only [edgeFront, String.toList_append]
    exact ((((by decide : Plain _).append (plain_nodeName _)).append (by decide)).append
      (plain_nodeName _)).append (by decide)
  have hline : '\n' ∉ (edgeFront edge.source edge.target).toList := by
    simp [edgeFront, not_mem_nodeName]
  simp only [edgePieces, List.forall_mem_cons, Piece.Fits]
  exact ⟨⟨hname, hline, sealed_edgeLabel edge⟩, by decide, nofun⟩

theorem fits_dotPieces (graph : Graph) : ∀ piece ∈ dotPieces graph, piece.Fits := by
  simp only [dotPieces, List.forall_mem_append, List.forall_mem_cons]
  refine ⟨⟨fits_headingPieces, ?_⟩, (by decide : Plain "".toList), ?_,
    (by decide : Plain "\x7d".toList), nofun⟩
  · intro piece hpiece
    obtain ⟨entry, -, hpiece⟩ := List.mem_flatMap.mp hpiece
    exact fits_nodePieces _ _ piece hpiece
  · intro piece hpiece
    obtain ⟨edge, -, hpiece⟩ := List.mem_flatMap.mp hpiece
    exact fits_edgePieces _ piece hpiece

/-- **The quoted strings of a drawing** are those of its heading, the label and the colour of each
node and the label of each edge, each behind what the line says up to it. -/
theorem quotedStrings_dot (graph : Graph) :
    quotedStrings graph.dot.toList = (dotPieces graph).flatMap Piece.strings := by
  rw [toList_dot, Piece.quotedStrings_flatMap_chars (fits_dotPieces graph)]

/-! ## Labels -/

section Labels

variable {rest : List Char}

theorem labelTexts_ne_nil (text : List Char) : labelTexts text ≠ [] := by
  rw [labelTexts.eq_def]
  split
  · split
    · exact List.cons_ne_nil _ _
    · exact consHead_ne_nil _ _
  · exact consHead_ne_nil _ _
  · exact List.cons_ne_nil _ _

theorem labelTexts_escapeChar_append (c : Char) (rest : List Char) :
    labelTexts (escapeChar c ++ rest) = consHead c (labelTexts rest) := by
  rw [escapeChar]
  split
  · rename_i hslash
    rw [hslash]
    rfl
  · rename_i hslash
    split
    · rename_i hquote
      rw [hquote]
      rfl
    · rw [List.singleton_append, labelTexts]
      intro _ _ h
      exact absurd h hslash

/-- What is written for a text gives the text back in front of what follows. -/
theorem labelTexts_escape_append (text : String) (rest : List Char) :
    labelTexts ((escape text).toList ++ rest) =
      (labelTexts rest).modifyHead (text.toList ++ ·) := by
  rw [toList_escape]
  induction text.toList with
  | nil =>
      obtain ⟨first, others, hfirst⟩ := List.exists_cons_of_ne_nil (labelTexts_ne_nil rest)
      rw [List.flatMap_nil, List.nil_append, hfirst]
      rfl
  | cons c chars ih =>
      rw [List.flatMap_cons, List.append_assoc, labelTexts_escapeChar_append, ih,
        consHead_eq c (by simpa using labelTexts_ne_nil rest), List.modifyHead_modifyHead]
      rfl

theorem labelTexts_escape (text : String) : labelTexts (escape text).toList = [text.toList] := by
  have h := labelTexts_escape_append text []
  rwa [List.append_nil, labelTexts, List.modifyHead_cons, List.append_nil] at h

/-- The file of an edge stands on the second line of its label. -/
theorem labelTexts_edgeLabel (edge : Edge) :
    labelTexts (edgeLabel edge).toList =
      edge.id.toList :: (edge.fileName.toList.map String.toList) := by
  rw [edgeLabel]
  cases edge.fileName with
  | none => exact labelTexts_escape edge.id
  | some fileName =>
      have hbreak : labelTexts ("\\n".toList ++ (escape fileName).toList) =
          [] :: labelTexts (escape fileName).toList := by
        rfl
      rw [String.toList_append, String.toList_append, List.append_assoc, labelTexts_escape_append,
        hbreak, labelTexts_escape, List.modifyHead_cons, List.append_nil]
      rfl

end Labels

/-! ## Reading the strings back -/

theorem place?_nodeName (index : Nat) : place? (nodeName index) = some index := by
  rw [place?, toList_nodeName]
  exact natural?_decimal index

/-- Words without blanks are found again between the blanks of a text. -/
theorem parts_of_words {text : String} {words : List String} (hne : words ≠ [])
    (hfree : ∀ word ∈ words, ' ' ∉ word.toList) (htext : text = join " " words) :
    parts " " text = words := by
  have hblank : " " = String.singleton ' ' := rfl
  rw [htext, hblank, parts_join hne hfree]

theorem parts_nodeFront (index : Nat) :
    parts " " (nodeFront index) = ["", "", nodeName index, "[label="] := by
  refine parts_of_words (List.cons_ne_nil _ _) (by simp [not_mem_nodeName]) ?_
  rw [← String.toList_inj]
  simp [nodeFront, join, joinParts]

theorem parts_edgeFront (source target : Nat) :
    parts " " (edgeFront source target) =
      ["", "", nodeName source, "->", nodeName target, "[label="] := by
  refine parts_of_words (List.cons_ne_nil _ _) (by simp [not_mem_nodeName]) ?_
  rw [← String.toList_inj]
  simp [edgeFront, join, joinParts]

theorem parts_colour : parts " " ", fillcolor=" = [",", "fillcolor="] := by decide

section Node

variable (index : Nat) (node : Vertex)

theorem drawnType?_label :
    drawnType? (nodeFront index, escape node.typeId) = some node.typeId := by
  simp only [drawnType?, parts_nodeFront, labelTexts_escape, String.ofList_toList]

theorem drawnActive?_colour : drawnActive? (", fillcolor=", colour node) = some node.active := by
  simp only [drawnActive?, parts_colour, colour]
  cases node.active <;> rfl

theorem filterMap_nodeStrings :
    ((nodePieces index node).flatMap Piece.strings).filterMap drawnType? = [node.typeId] ∧
    ((nodePieces index node).flatMap Piece.strings).filterMap drawnActive? = [node.active] ∧
    ((nodePieces index node).flatMap Piece.strings).filterMap drawnEdge? = [] := by
  have hstrings : (nodePieces index node).flatMap Piece.strings =
      [(nodeFront index, escape node.typeId), (", fillcolor=", colour node)] :=
    rfl
  have hcolour : drawnType? (", fillcolor=", colour node) = none := by
    rw [drawnType?, parts_colour]
    rfl
  have hlabel : drawnActive? (nodeFront index, escape node.typeId) = none := by
    rw [drawnActive?, parts_nodeFront]
    rfl
  have hlabelEdge : drawnEdge? (nodeFront index, escape node.typeId) = none := by
    rw [drawnEdge?, parts_nodeFront]
    rfl
  have hcolourEdge : drawnEdge? (", fillcolor=", colour node) = none := by
    rw [drawnEdge?, parts_colour]
    rfl
  rw [hstrings]
  simp only [List.filterMap_cons, drawnType?_label, drawnActive?_colour, hcolour, hlabel,
    hlabelEdge, hcolourEdge, List.filterMap_nil, and_self]

end Node

theorem drawnEdge?_edgeLabel (edge : Edge) :
    drawnEdge? (edgeFront edge.source edge.target, edgeLabel edge) = some edge := by
  simp only [drawnEdge?, parts_edgeFront, place?_nodeName, labelTexts_edgeLabel]
  obtain ⟨id, source, target, fileName⟩ := edge
  cases fileName <;> simp

theorem filterMap_edgeStrings (edge : Edge) :
    ((edgePieces edge).flatMap Piece.strings).filterMap drawnType? = [] ∧
    ((edgePieces edge).flatMap Piece.strings).filterMap drawnActive? = [] ∧
    ((edgePieces edge).flatMap Piece.strings).filterMap drawnEdge? = [edge] := by
  have hstrings : (edgePieces edge).flatMap Piece.strings =
      [(edgeFront edge.source edge.target, edgeLabel edge)] := rfl
  have htype : drawnType? (edgeFront edge.source edge.target, edgeLabel edge) = none := by
    rw [drawnType?, parts_edgeFront]
    rfl
  have hactive : drawnActive? (edgeFront edge.source edge.target, edgeLabel edge) = none := by
    rw [drawnActive?, parts_edgeFront]
    rfl
  rw [hstrings]
  simp only [List.filterMap_cons, htype, hactive, drawnEdge?_edgeLabel, List.filterMap_nil,
    and_self]

/-- What a reader finds in the strings of a drawing, if what it finds on the line of a node does not
depend on the place of the node. -/
theorem filterMap_quotedStrings_dot {α : Type} {read? : String × String → Option α}
    {ofNode : Vertex → List α} {ofEdge : Edge → List α}
    (hnode : ∀ index node,
      ((nodePieces index node).flatMap Piece.strings).filterMap read? = ofNode node)
    (hedge : ∀ edge, ((edgePieces edge).flatMap Piece.strings).filterMap read? = ofEdge edge)
    (graph : Graph) :
    (quotedStrings graph.dot.toList).filterMap read? =
      (headingPieces.flatMap Piece.strings).filterMap read? ++ graph.nodes.flatMap ofNode ++
        graph.edges.flatMap ofEdge := by
  have hrest : ∀ text, (Piece.line text).strings = [] := fun _ => rfl
  have hplaces : (graph.nodes.zipIdx.flatMap fun entry => ofNode entry.1) =
      graph.nodes.flatMap ofNode := by
    rw [← List.flatMap_map Prod.fst ofNode, List.zipIdx_map_fst]
  rw [quotedStrings_dot, ← hplaces]
  simp only [dotPieces, List.flatMap_append, List.flatMap_cons, List.flatMap_nil, hrest,
    List.nil_append, List.append_nil, List.filterMap_append, List.flatMap_assoc,
    List.filterMap_flatMap, hnode, hedge]

/-- The nodes of a graph are found again in its drawing. -/
theorem drawnNodes_dot (graph : Graph) : drawnNodes graph.dot = graph.nodes := by
  have htypes : (quotedStrings graph.dot.toList).filterMap drawnType? =
      graph.nodes.map Vertex.typeId := by
    have hheading : (headingPieces.flatMap Piece.strings).filterMap drawnType? = [] := by
      decide +kernel
    rw [filterMap_quotedStrings_dot (fun index node => (filterMap_nodeStrings index node).1)
      fun edge => (filterMap_edgeStrings edge).1, hheading, List.map_eq_flatMap]
    simp
  have hactive : (quotedStrings graph.dot.toList).filterMap drawnActive? =
      graph.nodes.map Vertex.active := by
    have hheading : (headingPieces.flatMap Piece.strings).filterMap drawnActive? = [] := by
      decide +kernel
    rw [filterMap_quotedStrings_dot (fun index node => (filterMap_nodeStrings index node).2.1)
      fun edge => (filterMap_edgeStrings edge).2.1, hheading, List.map_eq_flatMap]
    simp
  rw [drawnNodes, htypes, hactive, List.zipWith_map, List.zipWith_self]
  exact List.map_id graph.nodes

/-- The edges of a graph are found again in its drawing. -/
theorem drawnEdges_dot (graph : Graph) : drawnEdges graph.dot = graph.edges := by
  have hheading : (headingPieces.flatMap Piece.strings).filterMap drawnEdge? = [] := by
    decide +kernel
  rw [drawnEdges, filterMap_quotedStrings_dot
    (fun index node => (filterMap_nodeStrings index node).2.2)
    fun edge => (filterMap_edgeStrings edge).2.2, hheading]
  simp

/-- What stands in quotes: what the heading has there, the label and the colour of each node, and
the label of each edge. -/
theorem map_snd_quotedStrings_dot (graph : Graph) :
    (quotedStrings graph.dot.toList).map Prod.snd =
      ["filled,rounded", "Helvetica", "white", "Helvetica"] ++
        (graph.nodes.flatMap fun node => [escape node.typeId, colour node]) ++
        graph.edges.map edgeLabel := by
  have hnode : ∀ index node,
      ((nodePieces index node).flatMap Piece.strings).filterMap (some ∘ Prod.snd) =
        [escape node.typeId, colour node] := fun _ _ => rfl
  have hedge : ∀ edge, ((edgePieces edge).flatMap Piece.strings).filterMap (some ∘ Prod.snd) =
      [edgeLabel edge] := fun _ => rfl
  have hstrings := filterMap_quotedStrings_dot hnode hedge graph
  rw [List.filterMap_eq_map, ← List.map_eq_flatMap] at hstrings
  rw [hstrings]
  rfl

theorem dot_congr {graph other : Graph} (hnodes : graph.nodes = other.nodes)
    (hedges : graph.edges = other.edges) : graph.dot = other.dot := by
  rw [dot, dot, hnodes, hedges]

/-- **Drawings cannot be confused.**  The quoted strings of a drawing, which end at the first quote
that is not behind a backslash, are those of the heading, the label and the colour of each node and
the label of each edge, one after another and nothing else.  The nodes, with whether they are
active, and the edges, with their ends, ids and files, can be read back.  So two graphs have the
same drawing if and only if they have the same nodes and the same edges. -/
theorem dot_readable (graph : Graph) :
    (quotedStrings graph.dot.toList).map Prod.snd =
      ["filled,rounded", "Helvetica", "white", "Helvetica"] ++
        (graph.nodes.flatMap fun node => [escape node.typeId, colour node]) ++
        graph.edges.map edgeLabel ∧
    drawnNodes graph.dot = graph.nodes ∧
    drawnEdges graph.dot = graph.edges ∧
    ∀ other : Graph, graph.dot = other.dot ↔
      graph.nodes = other.nodes ∧ graph.edges = other.edges := by
  refine ⟨?_, drawnNodes_dot graph, drawnEdges_dot graph, fun other => ⟨fun h => ?_, fun h => ?_⟩⟩
  · exact map_snd_quotedStrings_dot graph
  · rw [← drawnNodes_dot graph, ← drawnEdges_dot graph, h]
    exact ⟨drawnNodes_dot other, drawnEdges_dot other⟩
  · exact dot_congr h.1 h.2

end Remodel.Graph
