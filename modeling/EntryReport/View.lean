import EntryReport.UiState

/-!
# Views

`View.render` shows a tree in a state: for each node whether it is expanded, hidden or
highlighted, for each panel whether it is visible, and the counts of the summary.

`View.outline` is the view as a nested tree, from which every report is written.
-/

namespace EntryReport

/-- The colours of the selected item. -/
structure Highlight where
  background : String := "#008000"
  foreground : String := "#ffffff"
deriving DecidableEq, Repr

/-- The highlight as an object. -/
def Highlight.toJson (h : Highlight) : Json :=
  .obj [("background", .str h.background), ("foreground", .str h.foreground)]

/-- What a configuration says about the display. -/
structure RenderOptions where
  emptyFolders : EmptyFolders := .shown
  highlight : Highlight := {}
deriving DecidableEq, Repr

/-- The display of a node. -/
structure NodeView where
  id : Nat
  name : String
  path : String
  isFolder : Bool
  expanded : Bool
  hidden : Bool
  highlighted : Bool
  tags : Tags
  children : List Nat
deriving DecidableEq, Repr

/-- The display of a panel. -/
structure PanelView where
  id : String
  visible : Bool
deriving DecidableEq, Repr

/-- The counts of a report. -/
structure Summary where
  folders : Nat := 0
  items : Nat := 0
  warnings : Nat := 0
  errors : Nat := 0
  visibleItems : Nat := 0
deriving DecidableEq, Repr

/-- The display of a tree: nodes by their index, panels in the order of the tree. -/
structure View where
  tree : Tree
  nodes : Array NodeView
  nodes_pos : 0 < nodes.size
  panels : List PanelView
  highlight : Highlight
  emptyFolders : EmptyFolders
  criteria : Criteria

namespace View

/-- The display of a node of a tree. -/
def nodeView (s : UiState) (hidden : NodeSet) (id : Nat) (n : Node) : NodeView where
  id := id
  name := n.name
  path := n.path
  isFolder := n.isFolder
  expanded := n.isFolder && id ∈ s.expanded
  hidden := id ∈ hidden
  highlighted := s.selection.any (·.item == id)
  tags := n.tags
  children := n.children

/-- The display of a tree in a state. -/
def render (t : Tree) (s : UiState) (options : RenderOptions) : View where
  tree := t
  nodes := t.nodes.mapIdx (nodeView s (t.hidden s.criteria options.emptyFolders))
  nodes_pos := by simp [t.nodes_pos]
  panels := t.panels.toList.map fun p => ⟨p.id, s.selection.any (·.panelId == p.id)⟩
  highlight := options.highlight
  emptyFolders := options.emptyFolders
  criteria := s.criteria

/-- A node by its index. -/
def node? (v : View) (id : Nat) : Option NodeView := v.nodes[id]?

/-- The root. -/
def root (v : View) : NodeView :=
  have := v.nodes_pos
  v.nodes[0]

/-- The children of a node in order. -/
def childrenOf (v : View) (n : NodeView) : List NodeView :=
  n.children.filterMap v.node?

/-- The panel that is shown. -/
def visiblePanel? (v : View) : Option Panel :=
  (v.panels.find? (·.visible)).bind fun p => v.tree.panel? p.id

/-- The nodes that are highlighted. -/
def highlighted (v : View) : List NodeView :=
  v.nodes.toList.filter (·.highlighted)

/-- The node exists and is not hidden. -/
def isVisible (v : View) (id : Nat) : Bool :=
  (v.node? id).any fun n => !n.hidden

/-- Some condition is set. -/
def filterActive (v : View) : Bool := v.criteria.active

/-- The counts with those of a node. -/
def Summary.count (s : Summary) (n : NodeView) : Summary :=
  if n.isFolder then { s with folders := s.folders + 1 }
  else
    { s with
      items := s.items + 1
      warnings := s.warnings + n.tags.hasWarning.toNat
      errors := s.errors + n.tags.hasError.toNat
      visibleItems := s.visibleItems + (!n.hidden).toNat }

/-- The counts of the view. -/
def summary (v : View) : Summary :=
  v.nodes.toList.foldl Summary.count {}

/-! ## The view as a nested tree -/

end View

/-- A node with the nodes below it. -/
inductive Outline where
  | node (display : NodeView) (children : List Outline)

namespace View

/-- A node with the nodes below it, down to `limit` levels. -/
def outlineFrom (v : View) : (limit : Nat) → NodeView → Outline
  | 0, n => .node n []
  | limit + 1, n => .node n ((v.childrenOf n).map (v.outlineFrom limit))

/-- The view as a nested tree: there are no more levels than nodes. -/
def outline (v : View) : Outline :=
  v.outlineFrom v.nodes.size v.root

/-! ## As JSON -/

/-- The display of a node as an object. -/
def nodeJson (n : NodeView) : Json :=
  .obj
    [("id", .nat n.id), ("name", .str n.name), ("path", .str n.path),
      ("isFolder", .bool n.isFolder), ("expanded", .bool n.expanded),
      ("hiddenByFilter", .bool n.hidden), ("highlighted", .bool n.highlighted),
      ("tags", n.tags.toJson), ("children", .arr (n.children.map .nat))]

/-- The display of a panel as an object. -/
def panelJson (p : PanelView) : Json :=
  .obj [("id", .str p.id), ("visible", .bool p.visible)]

/-- The counts as an object. -/
def summaryJson (s : Summary) : Json :=
  .obj
    [("folders", .nat s.folders), ("items", .nat s.items), ("warnings", .nat s.warnings),
      ("errors", .nat s.errors), ("visibleItems", .nat s.visibleItems)]

/-- The view as an object. -/
def toJson (v : View) : Json :=
  .obj
    [("nodes", .arr (v.nodes.toList.map nodeJson)), ("panels", .arr (v.panels.map panelJson)),
      ("highlight", v.highlight.toJson), ("emptyFolders", .str v.emptyFolders.name),
      ("criteria", v.criteria.toJson), ("filterActive", .bool v.filterActive),
      ("summary", summaryJson v.summary)]

end View

end EntryReport
