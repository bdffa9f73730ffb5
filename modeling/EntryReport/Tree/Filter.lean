import EntryReport.Tree.Order
import EntryReport.Text.Blank
import EntryReport.Text.Lowercase
import EntryReport.Text.Occurrence

/-!
# Filtering a report tree

`Criteria` are the conditions that a reader sets: only items with warnings, only items with
errors, only items whose name holds a text in any case. They all have to hold. `Tree.hidden` is
the set of nodes that the criteria hide:

* an item that does not match;
* a folder with items below it, all of which are hidden while the criteria are active;
* a folder without items while the criteria are active, or always if `EmptyFolders` says so.
-/

namespace EntryReport

/-- What an item has to have to be shown. -/
structure Criteria where
  warnings : Bool := false
  errors : Bool := false
  /-- The text sought, without blanks at its ends and in lowercase. -/
  search : String := ""
deriving DecidableEq, Repr

namespace Criteria

/-- The criteria with a search text as it was typed. -/
def new (warnings errors : Bool) (search : String) : Criteria :=
  ⟨warnings, errors, Text.lowercase (Text.trim search)⟩

/-- Some condition is set. -/
def active (c : Criteria) : Bool :=
  c.warnings || c.errors || !c.search.isEmpty

/-- The search text occurs in the name, in any case. -/
def finds (c : Criteria) (name : String) : Bool :=
  c.search.isEmpty || Text.occursIn c.search.toList (Text.lowercase name).toList

/-- An item with the tags and the name is shown. -/
def accepts (c : Criteria) (tags : Tags) (name : String) : Bool :=
  (tags.hasWarning || !c.warnings) && (tags.hasError || !c.errors) && c.finds name

/-- The criteria as an object. -/
def toJson (c : Criteria) : Json :=
  .obj [("warnings", .bool c.warnings), ("errors", .bool c.errors), ("search", .str c.search)]

end Criteria

/-- What becomes of folders without items while no condition is set. -/
inductive EmptyFolders where
  | shown
  | hidden
deriving DecidableEq, Repr

namespace EmptyFolders

/-- The name of a policy. -/
def name : EmptyFolders → String
  | .shown => "show"
  | .hidden => "hide"

/-- The policy of a name. -/
def ofName? (s : String) : Option EmptyFolders :=
  [shown, hidden].find? fun p => p.name = s

end EmptyFolders

namespace Tree

/-- The node is an item that matches the criteria. -/
def matching (t : Tree) (c : Criteria) (id : Nat) : Bool :=
  (t.node? id).any fun n => n.isItem && c.accepts n.tags n.name

/-- A folder is shown. -/
def showsFolder (t : Tree) (c : Criteria) (empty : EmptyFolders) (id : Nat) : Bool :=
  match t.itemsUnder id with
  | [] => !c.active && empty == .shown
  | items => !c.active || items.any (t.matching c)

/-- Hides the items below a folder that do not match, and the folder unless it is shown. -/
def hideUnder (t : Tree) (c : Criteria) (empty : EmptyFolders) (hidden : NodeSet) (folder : Nat) :
    NodeSet :=
  let hidden := hidden.insertAll ((t.itemsUnder folder).filter fun id => !t.matching c id)
  if t.showsFolder c empty folder then hidden else hidden.insert folder

/-- The nodes that are not shown, collected folder by folder: an item is looked at once for each
folder that it is in. -/
def hidden (t : Tree) (c : Criteria) (empty : EmptyFolders) : NodeSet :=
  t.folders.foldl (t.hideUnder c empty) .empty

end Tree

end EntryReport
