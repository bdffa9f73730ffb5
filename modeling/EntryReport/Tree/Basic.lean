import EntryReport.Panel
import EntryReport.Tree.NodeSet
import EntryReport.Tree.Segments

/-!
# The report tree

A `Tree` holds its nodes in the order in which they were made; node 0 is the root. A folder lists
its children, an item has tags and one panel. `Tree.add` puts an entry into the tree and makes the
folders on the way to it; it gives the tree after the attempt and what came of it.

`TreeError` is what can be wrong with a path or a node.
-/

namespace EntryReport

/-- A folder with its children, or an item with its tags and the index of its panel. -/
inductive NodeKind where
  | folder (children : List Nat)
  | item (tags : Tags) (panel : Nat)
deriving DecidableEq, Repr

/-- A node of a report tree. -/
structure Node where
  name : String
  /-- The names from the root down, each after a slash. -/
  path : String
  parent : Option Nat
  kind : NodeKind
deriving DecidableEq, Repr

namespace Node

/-- The node is a folder. -/
def isFolder (n : Node) : Bool :=
  match n.kind with
  | .folder _ => true
  | .item _ _ => false

/-- The node is an item. -/
def isItem (n : Node) : Bool := !n.isFolder

/-- The children of a folder; an item has none. -/
def children (n : Node) : List Nat :=
  match n.kind with
  | .folder children => children
  | .item _ _ => []

/-- The tags of an item; a folder has none. -/
def tags (n : Node) : Tags :=
  match n.kind with
  | .folder _ => {}
  | .item tags _ => tags

/-- The node with its children replaced by `f` of them. -/
def mapChildren (f : List Nat → List Nat) (n : Node) : Node :=
  match n.kind with
  | .folder children => { n with kind := .folder (f children) }
  | .item _ _ => n

end Node

/-- What is wrong with a path or a node. -/
inductive TreeError where
  | emptyPath
  | duplicateItem (path : String)
  | itemOverFolder (path : String)
  | pathThroughItem (path item : String)
  | unknownNode (id : Nat)
  | notAFolder (id : Nat)
  | notAnItem (id : Nat)
  | noSuchItem (path : String)
deriving DecidableEq, Repr

/-- The error in words; a node is written as `#3`. -/
def TreeError.message : TreeError → String
  | .emptyPath => "entry path is empty"
  | .duplicateItem path => "duplicate item: " ++ path
  | .itemOverFolder path => "item path " ++ path ++ " is already a folder"
  | .pathThroughItem path item => "path " ++ path ++ " passes through item " ++ item
  | .unknownNode id => "unknown node id #" ++ toString id
  | .notAFolder id => "node #" ++ toString id ++ " is not a folder"
  | .notAnItem id => "node #" ++ toString id ++ " is not an item"
  | .noSuchItem path => "no item at path " ++ path

/-- Folders and items; an item has one of the panels. -/
structure Tree where
  nodes : Array Node
  panels : Array Panel
  nodes_pos : 0 < nodes.size

namespace Tree

/-- The root. -/
def root : Nat := 0

/-- A tree with nothing but its root. -/
def new (rootName : String) : Tree :=
  ⟨#[⟨rootName, "/", none, .folder []⟩], #[], by simp⟩

/-- The number of nodes. -/
def size (t : Tree) : Nat := t.nodes.size

/-- The number of items. -/
def itemCount (t : Tree) : Nat := t.panels.size

/-- The tree has no items. -/
def isEmpty (t : Tree) : Bool := t.itemCount == 0

/-- A node by its index. -/
def node? (t : Tree) (id : Nat) : Option Node := t.nodes[id]?

/-- A node that has to be in the tree. -/
def get (t : Tree) (id : Nat) : Except TreeError Node :=
  match t.node? id with
  | some n => .ok n
  | none => .error (.unknownNode id)

/-- The children of a node, none for an unknown one. -/
def childrenOf (t : Tree) (id : Nat) : List Nat :=
  match t.node? id with
  | some n => n.children
  | none => []

/-- The first child of a folder with a name, with its index. -/
def childNamed? (t : Tree) (folder : Nat) (name : String) : Option (Nat × Node) :=
  (t.childrenOf folder).findSome? fun id =>
    match t.node? id with
    | some n => if n.name = name then some (id, n) else none
    | none => none

/-- The node at a path. -/
def find? (t : Tree) (path : String) : Option Nat :=
  (segments path).foldlM (fun id name => (t.childNamed? id name).map (·.1)) root

/-- The panel with an id. -/
def panel? (t : Tree) (id : String) : Option Panel :=
  t.panels.find? fun p => p.id = id

/-- The panel of an item. -/
def panelOf? (t : Tree) (id : Nat) : Option Panel :=
  match t.node? id with
  | some ⟨_, _, _, .item _ panel⟩ => t.panels[panel]?
  | _ => none

/-! ## Adding entries -/

/-- The tree with a new child of `parent`, and the child's index. -/
def push (t : Tree) (parent : Nat) (name path : String) (kind : NodeKind) : Tree × Nat :=
  let id := t.nodes.size
  ({ nodes := (t.nodes.push ⟨name, path, some parent, kind⟩).modify parent
        (Node.mapChildren (· ++ [id]))
     panels := t.panels
     nodes_pos := by simp },
    id)

/-- Walks from `current`, at `path`, down to the folder with the given names below it, and makes
the folders that are missing. `full` is the path that is being added. -/
def openFolders (full : String) (t : Tree) (current : Nat) (path : String) :
    List String → Tree × Except TreeError (Nat × String)
  | [] => (t, .ok (current, path))
  | name :: names =>
    let path := path ++ "/" ++ name
    match t.childNamed? current name with
    | some (id, n) =>
      if n.isItem then (t, .error (.pathThroughItem full n.path))
      else openFolders full t id path names
    | none =>
      let (t, id) := t.push current name path (.folder [])
      openFolders full t id path names

/-- Makes an item in a folder, unless its name is taken. -/
def addItem (t : Tree) (folder : Nat) (path name : String) (e : Entry) :
    Tree × Except TreeError Nat :=
  match t.childNamed? folder name with
  | some (_, n) =>
    (t, .error (if n.isFolder then .itemOverFolder path else .duplicateItem path))
  | none =>
    let panel := Panel.ofEntry path e
    let index := t.panels.size
    let (t, id) := { t with panels := t.panels.push panel }.push folder name path
      (.item panel.tags index)
    (t, .ok id)

/-- Adds an entry: the tree after the attempt, and the new item or what was wrong. -/
def add (t : Tree) (e : Entry) : Tree × Except TreeError Nat :=
  let names := segments e.name
  match names.getLast? with
  | none => (t, .error .emptyPath)
  | some leaf =>
    match t.openFolders (pathOf names) root "" names.dropLast with
    | (t, .error err) => (t, .error err)
    | (t, .ok (folder, path)) => t.addItem folder (path ++ "/" ++ leaf) leaf e

end Tree

end EntryReport
