import EntryReport.Proofs.Tree.Walks
import EntryReport.Proofs.View.Render

/-!
# The outline of a view

Reports are made from the outline of a view, which is cut off after as many levels as there are
nodes. On a well-formed tree this cuts nothing off: the outline has the root on top, and under each
node all of its children in their order (`shows_outline`). So what a report makes of an outline can
be compared with the tree node by node.

* `nodes_outline`: a node before those below it, the outline has the nodes of the view in document
  order.
-/

namespace EntryReport

namespace Outline

mutual
/-- The outline is that of a node: the display of the node is on top, and under it are outlines of
its children. -/
def Shows (v : View) (id : Nat) : Outline → Prop
  | .node n os => v.node? id = some n ∧ ShowsAll v n.children os

/-- Each outline is that of the node in its place. -/
def ShowsAll (v : View) : List Nat → List Outline → Prop
  | [], [] => True
  | id :: ids, o :: os => o.Shows v id ∧ ShowsAll v ids os
  | _, _ => False
end

theorem eq_nil_of_showsAll_nil {v : View} {os : List Outline} (h : ShowsAll v [] os) : os = [] := by
  cases os with
  | nil => rfl
  | cons o os => exact h.elim

mutual
/-- The nodes of an outline, a node before those below it. -/
def nodes : Outline → List NodeView
  | .node n os => n :: nodesAll os

/-- The nodes of outlines, one after the other. -/
def nodesAll : List Outline → List NodeView
  | [] => []
  | o :: os => o.nodes ++ nodesAll os
end

end Outline

namespace View

/-- The nodes in document order. -/
def inOrder (v : View) : List NodeView := v.tree.documentOrder.filterMap v.node?

variable {t : Tree} {s : UiState} {options : RenderOptions} {id limit : Nat} {n : NodeView}

/-! ## One node -/

theorem node?_render_eq_some_iff : (render t s options).node? id = some n ↔
    ∃ m, t.node? id = some m ∧
      nodeView s (t.hidden s.criteria options.emptyFolders) id m = n := by
  rw [render_node?, Option.map_eq_some_iff]

theorem lt_size_of_node? (hn : (render t s options).node? id = some n) : id < t.size := by
  obtain ⟨m, hm, -⟩ := node?_render_eq_some_iff.mp hn
  exact Tree.lt_size_of_node? hm

theorem children_of_node? (hn : (render t s options).node? id = some n) :
    n.children = t.childrenOf id := by
  obtain ⟨m, hm, rfl⟩ := node?_render_eq_some_iff.mp hn
  exact (Tree.childrenOf_of_node? hm).symm

/-- An item has no children. -/
theorem children_of_item (hn : (render t s options).node? id = some n)
    (hf : n.isFolder = false) : n.children = [] := by
  obtain ⟨m, -, rfl⟩ := node?_render_eq_some_iff.mp hn
  have hm : ¬ m.isFolder = true := Bool.eq_false_iff.mp hf
  exact Node.children_of_not_isFolder hm

/-! ## All nodes -/

/-- The outline of a node is complete if there are as many levels as nodes made after it. -/
theorem shows_outlineFrom (h : t.WellFormed) (hn : (render t s options).node? id = some n)
    (hlimit : t.size ≤ limit + id) :
    ((render t s options).outlineFrom limit n).Shows (render t s options) id := by
  induction limit generalizing id n with
  | zero =>
    have hlt := lt_size_of_node? hn
    omega
  | succ limit ih =>
    have hbelow (cs : List Nat) (hcs : ∀ c ∈ cs, c ∈ t.childrenOf id) :
        Outline.ShowsAll (render t s options) cs
          ((cs.filterMap (render t s options).node?).map
            ((render t s options).outlineFrom limit)) := by
      induction cs with
      | nil => trivial
      | cons c cs ihcs =>
        rw [List.forall_mem_cons] at hcs
        obtain ⟨k, hk⟩ := Tree.node?_eq_some_iff.mpr (h.lt_size_of_mem_children hcs.1)
        have hc : (render t s options).node? c = some _ :=
          node?_render_eq_some_iff.mpr ⟨k, hk, rfl⟩
        -- a child was made after its parent, so that one level less is enough
        have hlt := h.lt_of_mem_children hcs.1
        rw [List.filterMap_cons_some hc, List.map_cons]
        exact ⟨ih hc (by omega), ihcs hcs.2⟩
    refine ⟨hn, ?_⟩
    rw [childrenOf, children_of_node? hn]
    exact hbelow _ fun c hc => hc

/-- **Nothing is cut off.** -/
theorem shows_outline (h : t.WellFormed) :
    (render t s options).outline.Shows (render t s options) Tree.root := by
  refine shows_outlineFrom h (node?_root _) ?_
  rw [size_render]
  exact Nat.le_add_right _ _

mutual
/-- The nodes of the outline of a node are the node and what is below it. -/
theorem nodes_of_shows (h : t.WellFormed) {id : Nat} : (o : Outline) →
    o.Shows (render t s options) id →
    o.nodes = (t.descendants id).filterMap (render t s options).node?
  | .node n os, ho => by
    obtain ⟨hn, hos⟩ := ho
    rw [children_of_node? hn] at hos
    rw [Outline.nodes, nodesAll_of_showsAll h os hos, h.descendants_eq (lt_size_of_node? hn),
      List.filterMap_cons_some hn]

theorem nodesAll_of_showsAll (h : t.WellFormed) {ids : List Nat} : (os : List Outline) →
    Outline.ShowsAll (render t s options) ids os →
    Outline.nodesAll os = (ids.flatMap t.descendants).filterMap (render t s options).node?
  | [], hos => by
    cases ids with
    | nil => rfl
    | cons id ids => exact hos.elim
  | o :: os, hos => by
    cases ids with
    | nil => exact hos.elim
    | cons id ids =>
      obtain ⟨ho, hos⟩ := hos
      rw [Outline.nodesAll, nodes_of_shows h o ho, nodesAll_of_showsAll h os hos,
        List.flatMap_cons, List.filterMap_append]
end

/-- **The nodes of the outline** are those of the view in document order. -/
theorem nodes_outline (h : t.WellFormed) :
    (render t s options).outline.nodes = (render t s options).inOrder :=
  nodes_of_shows h _ (shows_outline h)

end View

end EntryReport
