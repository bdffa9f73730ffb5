import EntryReport.Proofs.State.Alike
import EntryReport.Proofs.View.Render

/-!
# Views that differ in indices only

`unnumbered` forgets the indices in an outline. Views of trees and states that are alike are
`Alike`: their outlines are the same without the indices, and so are the counts, the panel that is
shown and the criteria.
-/

namespace EntryReport

open EntryReport.Tree (Same)

/-- The display of a node without any index. -/
def NodeView.unnumbered (n : NodeView) : NodeView := { n with id := 0, children := [] }

namespace Outline

mutual
/-- The outline without any index. -/
def unnumbered : Outline → Outline
  | .node n children => .node n.unnumbered (unnumberedAll children)

/-- Outlines without any index. -/
def unnumberedAll : List Outline → List Outline
  | [] => []
  | o :: os => o.unnumbered :: unnumberedAll os
end

theorem unnumberedAll_eq_map (os : List Outline) : unnumberedAll os = os.map unnumbered := by
  induction os with
  | nil => rfl
  | cons o os ih => rw [unnumberedAll, ih, List.map_cons]

end Outline

variable {t₁ t₂ : Tree} {s₁ s₂ : UiState} {options : RenderOptions} {a b limit : Nat}

/-- The displays are the same but for indices, and so are the children. -/
structure NodeView.Alike (t₁ t₂ : Tree) (n m : NodeView) : Prop where
  unnumbered : n.unnumbered = m.unnumbered
  children : List.Forall₂ (Same t₁ t₂) n.children m.children

namespace View

/-- What a report can show of the views is the same. -/
structure Alike (v w : View) : Prop where
  outline : v.outline.unnumbered = w.outline.unnumbered
  summary : v.summary = w.summary
  visiblePanel? : v.visiblePanel? = w.visiblePanel?
  criteria : v.criteria = w.criteria

/-! ## Nodes -/

/-- The selected item is highlighted in both. -/
theorem highlighted_eq (h : t₁.Alike t₂) (hs : UiState.Alike t₁ t₂ s₁ s₂) (hab : Same t₁ t₂ a b) :
    s₁.selection.any (·.item == a) = s₂.selection.any (·.item == b) := by
  have hsel := hs.selection
  cases hx : s₁.selection <;> cases hy : s₂.selection <;> rw [hx, hy] at hsel <;> cases hsel
  case none.none => rfl
  case some.some hxy =>
    rw [Option.any_some, Option.any_some, Bool.eq_iff_iff, beq_iff_eq, beq_iff_eq]
    exact h.eq_iff hxy.item hab

theorem alike_nodeView (h : t₁.Alike t₂) (hs : UiState.Alike t₁ t₂ s₁ s₂) (hab : Same t₁ t₂ a b)
    {x y : Node} (hx : t₁.node? a = some x) (hy : t₂.node? b = some y) :
    NodeView.Alike t₁ t₂
      (nodeView s₁ (t₁.hidden s₁.criteria options.emptyFolders) a x)
      (nodeView s₂ (t₂.hidden s₂.criteria options.emptyFolders) b y) where
  unnumbered := by
    obtain ⟨hname, hpath, hfolder, htags⟩ := h.node_eq hab hx hy
    unfold NodeView.unnumbered nodeView
    simp only [hname, hpath, hfolder, htags, hs.criteria, hs.expanded hab, h.mem_hidden_iff hab,
      highlighted_eq h hs hab]
  children := by
    have hchildren := h.forall₂_children hab
    rwa [Tree.childrenOf_of_node? hx, Tree.childrenOf_of_node? hy] at hchildren

/-- The views show the same at nodes that are the same. -/
theorem alike_node? (options : RenderOptions) (h : t₁.Alike t₂) (hs : UiState.Alike t₁ t₂ s₁ s₂)
    (hab : Same t₁ t₂ a b) :
    Option.Rel (NodeView.Alike t₁ t₂) ((render t₁ s₁ options).node? a)
      ((render t₂ s₂ options).node? b) := by
  obtain ⟨x, hx⟩ := Tree.node?_eq_some_iff.mpr hab.left
  obtain ⟨y, hy⟩ := Tree.node?_eq_some_iff.mpr hab.right
  rw [render_node?, render_node?, hx, hy]
  exact Option.Rel.some (alike_nodeView h hs hab hx hy)

theorem forall₂_nodes (options : RenderOptions) (h : t₁.Alike t₂)
    (hs : UiState.Alike t₁ t₂ s₁ s₂) {l₁ l₂ : List Nat} (hl : List.Forall₂ (Same t₁ t₂) l₁ l₂) :
    List.Forall₂ (NodeView.Alike t₁ t₂) (l₁.filterMap (render t₁ s₁ options).node?)
      (l₂.filterMap (render t₂ s₂ options).node?) :=
  List.rel_filterMap (fun _ _ hab => alike_node? options h hs hab) hl

theorem alike_root (h : t₁.Alike t₂) (hs : UiState.Alike t₁ t₂ s₁ s₂) :
    NodeView.Alike t₁ t₂ (render t₁ s₁ options).root (render t₂ s₂ options).root := by
  have hroot := alike_node? options h hs h.same_root
  unfold Tree.root at hroot
  rw [node?_root, node?_root] at hroot
  cases hroot
  assumption

/-! ## Outlines and counts -/

/-- **The outlines are the same** without the indices. -/
theorem unnumbered_outlineFrom (h : t₁.Alike t₂) (hs : UiState.Alike t₁ t₂ s₁ s₂) {n m : NodeView}
    (hnm : NodeView.Alike t₁ t₂ n m) :
    ((render t₁ s₁ options).outlineFrom limit n).unnumbered =
      ((render t₂ s₂ options).outlineFrom limit m).unnumbered := by
  induction limit generalizing n m with
  | zero =>
    unfold outlineFrom Outline.unnumbered
    rw [hnm.unnumbered]
  | succ limit ih =>
    have hchildren : List.Forall₂ (NodeView.Alike t₁ t₂) ((render t₁ s₁ options).childrenOf n)
        ((render t₂ s₂ options).childrenOf m) := forall₂_nodes options h hs hnm.children
    unfold outlineFrom Outline.unnumbered
    rw [hnm.unnumbered, Outline.unnumberedAll_eq_map, Outline.unnumberedAll_eq_map, List.map_map,
      List.map_map]
    congr 1
    have hmap := List.rel_map (fun _ _ hcd => ih hcd) hchildren
    rwa [List.forall₂_eq_eq_eq] at hmap

theorem count_unnumbered (s : Summary) (n : NodeView) :
    Summary.count s n.unnumbered = Summary.count s n := rfl

/-- The counts are those of the nodes without indices, in document order. -/
theorem summary_eq {t : Tree} {s : UiState} (h : t.WellFormed) : (render t s options).summary =
    ((t.documentOrder.filterMap (render t s options).node?).map NodeView.unnumbered).foldl
      Summary.count {} := by
  unfold summary
  rw [← (perm_nodes h).foldl_eq, List.foldl_map]
  simp only [count_unnumbered]

/-- **Views of trees and states that are alike are alike.** -/
theorem alike_render (h : t₁.Alike t₂) (hs : UiState.Alike t₁ t₂ s₁ s₂) (options : RenderOptions) :
    Alike (render t₁ s₁ options) (render t₂ s₂ options) where
  outline := by
    unfold outline
    rw [size_render, size_render, h.size_eq]
    exact unnumbered_outlineFrom h hs (alike_root h hs)
  summary := by
    have hnodes := forall₂_nodes options h hs h.forall₂_documentOrder
    have hmap := List.rel_map (fun _ _ hnm => NodeView.Alike.unnumbered hnm) hnodes
    rw [List.forall₂_eq_eq_eq] at hmap
    rw [summary_eq h.left, summary_eq h.right, hmap]
  visiblePanel? := by
    rw [visiblePanel?_render, visiblePanel?_render]
    have hsel := hs.selection
    cases hx : s₁.selection <;> cases hy : s₂.selection <;> rw [hx, hy] at hsel <;> cases hsel
    case none.none => rfl
    case some.some hxy => rw [Option.bind_some, Option.bind_some, hxy.panelId, h.panel?]
  criteria := hs.criteria

end View

end EntryReport
