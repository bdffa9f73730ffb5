import EntryReport.Tree.Filter

/-!
# What the reader did

A `UiState` holds the folders that are expanded, the selected item and the criteria. Each
operation gives the state after the attempt and what came of it; an operation that fails leaves
the state as it was.

* `toggle`, `reveal`, `expandPath`, `expandAll`, `collapseAll` change the expanded folders;
* `select`, `selectPath`, `clearSelection` change the selection.
-/

namespace EntryReport

/-- The panel that is shown and the item that is highlighted. No panel needs to have the id. -/
structure Selection where
  panelId : String
  item : Nat
deriving DecidableEq, Repr

/-- The expanded folders, the selection and the criteria. -/
structure UiState where
  expanded : NodeSet := .empty
  selection : Option Selection := none
  criteria : Criteria := {}

namespace UiState

/-- Every folder is collapsed, nothing is selected, no condition is set. -/
def new : UiState := {}

/-- Expands a collapsed folder and collapses an expanded one. -/
def toggle (s : UiState) (t : Tree) (folder : Nat) : UiState × Except TreeError Unit :=
  match t.get folder with
  | .error err => (s, .error err)
  | .ok n =>
    if n.isFolder then
      let expanded :=
        if folder ∈ s.expanded then s.expanded.erase folder else s.expanded.insert folder
      ({ s with expanded }, .ok ())
    else (s, .error (.notAFolder folder))

/-- Expands every folder on the way to a node. -/
def reveal (s : UiState) (t : Tree) (id : Nat) : UiState × Except TreeError Unit :=
  match t.get id with
  | .error err => (s, .error err)
  | .ok _ => ({ s with expanded := s.expanded.insertAll (t.ancestors id) }, .ok ())

/-- Expands the folders along a path, the folder at its end too. -/
def expandPath (s : UiState) (t : Tree) (path : String) : UiState × Except TreeError Nat :=
  match t.find? path with
  | none => (s, .error (.noSuchItem path))
  | some id =>
    match s.reveal t id with
    | (s, .error err) => (s, .error err)
    | (s, .ok ()) =>
      (if t.isFolder id then { s with expanded := s.expanded.insert id } else s, .ok id)

/-- Expands every folder. -/
def expandAll (s : UiState) (t : Tree) : UiState :=
  { s with expanded := s.expanded.insertAll t.folders }

/-- Collapses every folder. -/
def collapseAll (s : UiState) : UiState :=
  { s with expanded := .empty }

/-- Highlights an item and shows the panel with the given id. -/
def select (s : UiState) (t : Tree) (panelId : String) (item : Nat) :
    UiState × Except TreeError Unit :=
  match t.get item with
  | .error err => (s, .error err)
  | .ok n =>
    if n.isItem then ({ s with selection := some ⟨panelId, item⟩ }, .ok ())
    else (s, .error (.notAnItem item))

/-- Selects the item at a path with its own panel. -/
def selectPath (s : UiState) (t : Tree) (path : String) : UiState × Except TreeError Nat :=
  match (t.find? path).bind fun id => (t.node? id).map fun n => (id, n) with
  | some (id, n) =>
    if n.isItem then
      match s.select t n.path id with
      | (s, .error err) => (s, .error err)
      | (s, .ok ()) => (s, .ok id)
    else (s, .error (.noSuchItem path))
  | none => (s, .error (.noSuchItem path))

/-- Selects nothing. -/
def clearSelection (s : UiState) : UiState :=
  { s with selection := none }

/-- Sets the criteria. -/
def setCriteria (s : UiState) (c : Criteria) : UiState :=
  { s with criteria := c }

end UiState

end EntryReport
