import EntryReport.Proofs.View.Render

/-!
# The counts of a view

A view is counted node by node. What comes of it is the number of its folders and of its items, and
how many of the items have a warning, have an error, or are not hidden (`foldl_count`). The nodes
are those of the tree, so that each count is one over the tree:

* `errors_pos_iff`: there are errors if an item of the tree has one;
* `visibleItems_render`: the visible items are the items of the tree that are not hidden.
-/

namespace EntryReport

namespace View

variable {t : Tree} {s : UiState} {options : RenderOptions}

/-- One node counts as a folder, or as an item with what it has. -/
theorem count_eq (c : Summary) (n : NodeView) : Summary.count c n =
    { folders := c.folders + if n.isFolder then 1 else 0
      items := c.items + if !n.isFolder then 1 else 0
      warnings := c.warnings + if !n.isFolder && n.tags.hasWarning then 1 else 0
      errors := c.errors + if !n.isFolder && n.tags.hasError then 1 else 0
      visibleItems := c.visibleItems + if !n.isFolder && !n.hidden then 1 else 0 } := by
  unfold Summary.count
  cases n.isFolder with
  | true => rfl
  | false => cases n.tags.hasWarning <;> cases n.tags.hasError <;> cases n.hidden <;> rfl

/-- **What counting comes to**: each count grows by the number of nodes of its kind. -/
theorem foldl_count (c : Summary) (ns : List NodeView) : ns.foldl Summary.count c =
    { folders := c.folders + ns.countP fun n => n.isFolder
      items := c.items + ns.countP fun n => !n.isFolder
      warnings := c.warnings + ns.countP fun n => !n.isFolder && n.tags.hasWarning
      errors := c.errors + ns.countP fun n => !n.isFolder && n.tags.hasError
      visibleItems := c.visibleItems + ns.countP fun n => !n.isFolder && !n.hidden } := by
  induction ns generalizing c with
  | nil => rfl
  | cons n ns ih =>
    rw [List.foldl_cons, ih, count_eq]
    simp only [List.countP_cons]
    congr 1 <;> omega

/-- The nodes of a view are counted by their indices. -/
theorem countP_nodes (p : NodeView → Bool) : (render t s options).nodes.toList.countP p =
    (List.range t.size).countP fun id => ((render t s options).node? id).any p := by
  rw [← filterMap_range, size_render, List.countP_filterMap]
  refine List.countP_congr fun id _ => ?_
  cases (render t s options).node? id <;> rfl

/-- **There are errors** if some item of the tree has one. -/
theorem errors_pos_iff : 0 < (render t s options).summary.errors ↔
    ∃ id n, t.node? id = some n ∧ n.isItem = true ∧ n.tags.hasError = true := by
  unfold summary
  rw [foldl_count]
  simp only [countP_nodes, render_node?, Nat.zero_add, List.countP_pos_iff, Option.any_map,
    Option.any_eq_true, List.mem_range, Bool.and_eq_true]
  constructor
  · rintro ⟨id, -, n, hn, hi, he⟩
    exact ⟨id, n, hn, hi, he⟩
  · rintro ⟨id, n, hn, hi, he⟩
    exact ⟨id, Tree.lt_size_of_node? hn, n, hn, hi, he⟩

/-- **The visible items** are the items that are not hidden. -/
theorem visibleItems_render : (render t s options).summary.visibleItems =
    (List.range t.size).countP fun id =>
      t.isItem id && decide (id ∉ t.hidden s.criteria options.emptyFolders) := by
  unfold summary
  rw [foldl_count]
  simp only [countP_nodes, render_node?, Nat.zero_add]
  refine List.countP_congr fun id _ => ?_
  unfold Tree.isItem
  cases t.node? id <;> simp [nodeView, Node.isItem]

end View

end EntryReport
