import EntryReport.UiState
import EntryReport.Proofs.Tree.Lookup

/-!
# What the operations on paths do

`expandPath` and `selectPath` look their node up, and from then on nothing can fail but that the
node is of the wrong kind. `Operation` lists the operations that name nodes by paths, or name none;
`Operation.runAll` carries them out one after the other.
-/

namespace EntryReport

namespace Tree

variable {t : Tree} {id : Nat} {n : Node}

theorem get_of_node? (h : t.node? id = some n) : t.get id = .ok n := by
  unfold get
  rw [h]

end Tree

namespace UiState

variable {t : Tree} {s s' : UiState} {id : Nat} {n : Node} {path : String}

/-- States with the same expanded nodes and the same rest are equal. -/
theorem eq_of_expanded (hexpanded : ∀ k, k ∈ s.expanded ↔ k ∈ s'.expanded)
    (hselection : s.selection = s'.selection) (hcriteria : s.criteria = s'.criteria) : s = s' := by
  cases s
  cases s'
  cases NodeSet.ext hexpanded
  cases hselection
  cases hcriteria
  rfl

/-! ## One path -/

theorem reveal_of_lt (s : UiState) (hid : id < t.size) :
    s.reveal t id = ({ s with expanded := s.expanded.insertAll (t.ancestors id) }, .ok ()) := by
  obtain ⟨n, hn⟩ := Tree.node?_eq_some_iff.mpr hid
  unfold reveal
  rw [Tree.get_of_node? hn]

theorem expandPath_of_none (s : UiState) (hf : t.find? path = none) :
    s.expandPath t path = (s, .error (.noSuchItem path)) := by
  unfold expandPath
  rw [hf]

/-- The folders on the way to the node are expanded, and the node itself if it is one. -/
theorem expandPath_of_some (s : UiState) (hf : t.find? path = some id) (hid : id < t.size) :
    s.expandPath t path =
      ({ s with
          expanded :=
            if t.isFolder id then (s.expanded.insertAll (t.ancestors id)).insert id
            else s.expanded.insertAll (t.ancestors id) }, .ok id) := by
  unfold expandPath
  simp only [hf, s.reveal_of_lt hid]
  split <;> rfl

theorem selectPath_of_none (s : UiState) (hf : t.find? path = none) :
    s.selectPath t path = (s, .error (.noSuchItem path)) := by
  unfold selectPath
  rw [hf]
  rfl

/-- An item is selected with the panel of its path; a folder cannot be. -/
theorem selectPath_of_some (s : UiState) (hf : t.find? path = some id)
    (hn : t.node? id = some n) :
    s.selectPath t path =
      if n.isItem then ({ s with selection := some ⟨n.path, id⟩ }, .ok id)
      else (s, .error (.noSuchItem path)) := by
  unfold selectPath select
  simp only [hf, Option.bind_some, hn, Option.map_some, Tree.get_of_node? hn]
  by_cases hi : n.isItem = true
  · simp only [if_pos hi]
  · simp only [if_neg hi]

end UiState

/-! ## Runs of operations -/

/-- An operation on the state that does not know the index of any node. -/
inductive Operation where
  | expandPath (path : String)
  | expandAll
  | collapseAll
  | selectPath (path : String)
  | clearSelection
  | setCriteria (criteria : Criteria)

namespace Operation

/-- The state after the operation, and whether it failed. -/
def run (t : Tree) (s : UiState) : Operation → UiState × Except TreeError Unit
  | expandPath path => ((s.expandPath t path).1, (s.expandPath t path).2.map fun _ => ())
  | expandAll => (s.expandAll t, .ok ())
  | collapseAll => (s.collapseAll, .ok ())
  | selectPath path => ((s.selectPath t path).1, (s.selectPath t path).2.map fun _ => ())
  | clearSelection => (s.clearSelection, .ok ())
  | setCriteria criteria => (s.setCriteria criteria, .ok ())

/-- The state after all operations, and what came of each. -/
def runAll (t : Tree) (s : UiState) : List Operation → UiState × List (Except TreeError Unit)
  | [] => (s, [])
  | o :: os => ((runAll t (o.run t s).1 os).1, (o.run t s).2 :: (runAll t (o.run t s).1 os).2)

end Operation

end EntryReport
