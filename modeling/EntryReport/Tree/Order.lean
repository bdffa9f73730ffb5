import EntryReport.Tree.Basic

/-!
# Order in a report tree

* `Tree.sort`: the children of every folder, folders first, then by name;
* `Tree.descendants`: a node and everything below it, in document order: a node comes before its
  children, and a child with all below it before the next child;
* `Tree.ancestors`: the folders from a node's parent up to the root.

Both walks take at most one step a node, so the number of nodes bounds them.
-/

namespace EntryReport

namespace Tree

/-! ## Sorting -/

/-- Whether `a` may stand before `b`: folders before items, and each by name. -/
def mayPrecede (t : Tree) (a b : Nat) : Bool :=
  match t.node? a, t.node? b with
  | some x, some y => if x.isFolder = y.isFolder then x.name ≤ y.name else x.isFolder
  | _, _ => true

/-- The tree with the children of every folder in order. -/
def sort (t : Tree) : Tree :=
  ⟨t.nodes.map (Node.mapChildren (·.mergeSort t.mayPrecede)), t.panels, by simp [t.nodes_pos]⟩

/-! ## Down -/

/-- The nodes on the stack with all below them, in document order, in at most `limit` steps. -/
def visit (t : Tree) : (limit : Nat) → List Nat → List Nat
  | 0, _ => []
  | _ + 1, [] => []
  | limit + 1, id :: stack => id :: t.visit limit (t.childrenOf id ++ stack)

/-- A node and everything below it, in document order. -/
def descendants (t : Tree) (id : Nat) : List Nat :=
  t.visit t.size [id]

/-- The node is a folder of the tree. -/
def isFolder (t : Tree) (id : Nat) : Bool :=
  (t.node? id).any Node.isFolder

/-- The node is an item of the tree. -/
def isItem (t : Tree) (id : Nat) : Bool :=
  (t.node? id).any Node.isItem

/-- All nodes in document order. -/
def documentOrder (t : Tree) : List Nat :=
  t.descendants root

/-- All folders in document order. -/
def folders (t : Tree) : List Nat :=
  t.documentOrder.filter t.isFolder

/-- The items below a node, in document order. -/
def itemsUnder (t : Tree) (id : Nat) : List Nat :=
  (t.descendants id).filter t.isItem

/-- All items in document order. -/
def items (t : Tree) : List Nat :=
  t.itemsUnder root

/-! ## Up -/

/-- The parent of a node. -/
def parent? (t : Tree) (id : Nat) : Option Nat :=
  (t.node? id).bind (·.parent)

/-- The node, if there is one, and its ancestors, in at most `limit` steps. -/
def climb (t : Tree) : (limit : Nat) → Option Nat → List Nat
  | 0, _ => []
  | _ + 1, none => []
  | limit + 1, some id => id :: t.climb limit (t.parent? id)

/-- The folders from the parent of a node up to the root. -/
def ancestors (t : Tree) (id : Nat) : List Nat :=
  t.climb t.size (t.parent? id)

/-- The number of ancestors. -/
def depth (t : Tree) (id : Nat) : Nat :=
  (t.ancestors id).length

end Tree

end EntryReport
