import EntryReport.View
import EntryReport.Proofs.Tree.Traversal

/-!
# What a rendered view shows

`render` shows each node under its index (`render_node?`), so that the nodes of the view in document
order are all its nodes (`perm_nodes`), and the panel of the selection if the tree has it
(`visiblePanel?_render`). The counts do not depend on the order in which nodes are counted.
-/

namespace EntryReport

namespace View

variable {t : Tree} {s : UiState} {options : RenderOptions} {id : Nat}

/-! ## Nodes -/

theorem render_node? : (render t s options).node? id =
    (t.node? id).map (nodeView s (t.hidden s.criteria options.emptyFolders) id) := by
  unfold node? render Tree.node?
  rw [Array.getElem?_mapIdx]

theorem size_render : (render t s options).nodes.size = t.size := by
  unfold render Tree.size
  rw [Array.size_mapIdx]

theorem node?_root (v : View) : v.node? 0 = some v.root :=
  Array.getElem?_eq_getElem v.nodes_pos

/-- The nodes of a view by their indices. -/
theorem filterMap_range (v : View) :
    (List.range v.nodes.size).filterMap v.node? = v.nodes.toList := by
  have hmap : (List.range v.nodes.size).map v.node? = v.nodes.toList.map some := by
    refine List.ext_getElem (by simp) fun i hi hi' => ?_
    have hlt : i < v.nodes.size := by simpa using hi
    rw [List.getElem_map, List.getElem_map, List.getElem_range, Array.getElem_toList]
    exact Array.getElem?_eq_getElem hlt
  have hid : (List.range v.nodes.size).filterMap v.node? =
      ((List.range v.nodes.size).map v.node?).filterMap id := by
    rw [List.filterMap_map]
    rfl
  rw [hid, hmap, List.filterMap_map]
  exact List.filterMap_some

/-- **In document order a view has all its nodes**, each once. -/
theorem perm_nodes (h : t.WellFormed) :
    (t.documentOrder.filterMap (render t s options).node?).Perm
      (render t s options).nodes.toList := by
  rw [← filterMap_range, size_render]
  exact (Tree.perm_documentOrder h).filterMap _

/-! ## Counts -/

theorem count_comm (s : Summary) (n m : NodeView) :
    Summary.count (Summary.count s n) m = Summary.count (Summary.count s m) n := by
  unfold Summary.count
  split <;> split <;> simp [Nat.add_right_comm]

instance : RightCommutative Summary.count := ⟨count_comm⟩

/-! ## Panels -/

/-- **The panel that is shown** is that of the selection. -/
theorem visiblePanel?_render : (render t s options).visiblePanel? =
    s.selection.bind fun x => t.panel? x.panelId := by
  unfold visiblePanel? render
  rw [List.find?_map]
  cases s.selection with
  | none =>
    have hnone : t.panels.toList.find? (fun _ => false) = none := by simp
    simp only [Option.any_none, Function.comp_def, hnone]
    rfl
  | some x =>
    have hsame : (fun p : Panel => x.panelId == p.id) = fun p => decide (p.id = x.panelId) := by
      funext p
      rw [Bool.eq_iff_iff, beq_iff_eq, decide_eq_true_eq, eq_comm]
    have hfind : t.panels.toList.find? (fun p => decide (p.id = x.panelId)) =
        t.panel? x.panelId := Array.find?_toList
    simp only [Option.any_some, Function.comp_def, Option.bind_some, hsame, hfind]
    cases hf : t.panel? x.panelId with
    | none => rfl
    | some d =>
      have hid : d.id = x.panelId := by simpa using Array.find?_some hf
      rw [Option.map_some, Option.bind_some, hid, hf]

end View

end EntryReport
