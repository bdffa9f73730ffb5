import EntryReport.Proofs.Tree.Finding
import EntryReport.Proofs.Tree.Walks

/-!
# What stays while a tree grows

A reader of a tree holds on to indices, paths and ids of panels. What they stand for does not change
when entries are added, successfully or not, and the tree is sorted in between: one operation leaves
nodes and panels where they are, and so does a run of operations (`Settled.run`). Sorting puts
children in another order and adding appends to them, so that of these it only holds that no child
is lost.

* `stable_of_reachable`: all that a reader can have got hold of, for a run of any length.
-/

namespace EntryReport

namespace Tree

variable {t t' : Tree} {id p : Nat} {n : Node} {path s : String} {d : Panel}

/-! ## One operation, and a run of them -/

/-- One operation leaves the nodes and panels where they are. -/
theorem Settled.extends_step (h : t.Settled) (hs : Step t t') : Extends t t' := by
  cases hs with
  | add e => exact h.extends_add e
  | sort => exact extends_sort

/-- **A run of operations** leaves the nodes and panels where they are. -/
theorem Settled.run (h : t.Settled) (hrun : Relation.ReflTransGen Step t t') :
    t'.Settled ∧ Extends t t' := by
  induction hrun with
  | refl => exact ⟨h, Extends.refl t⟩
  | tail _ hs ih =>
    obtain ⟨hmid, hkeeps⟩ := ih
    exact ⟨hmid.step hs, hkeeps.trans (hmid.extends_step hs)⟩

/-! ## What follows from it -/

theorem panelOf?_of_not_isItem (hn : t.node? id = some n) (hi : ¬ n.isItem = true) :
    t.panelOf? id = none := by
  obtain ⟨name, path, parent, children | ⟨tags, i⟩⟩ := n
  · unfold panelOf?
    rw [hn]
  · exact absurd rfl hi

namespace Extends

/-- A node that has been there differs in its children at most. -/
theorem exists_node? (h : Extends t t') (hn : t.node? id = some n) :
    ∃ m, t'.node? id = some m ∧ m.bare = n.bare :=
  node?_of_bare? (h.bare?_eq (bare?_of_node? hn))

theorem parent?_eq (h : Extends t t') (hid : id < t.size) : t'.parent? id = t.parent? id := by
  rw [Tree.parent?_eq, Tree.parent?_eq, h.bare id hid]

/-- No folder loses a child. -/
theorem childrenOf_subset (h : Extends t t') (hwf : t.WellFormed) (hwf' : t'.WellFormed) :
    t.childrenOf p ⊆ t'.childrenOf p := by
  intro c hc
  have hlt := hwf.lt_size_of_mem_children hc
  rw [hwf.mem_children] at hc
  rw [hwf'.mem_children, h.parent?_eq hlt, hc]

/-- A path goes on leading to the same node. -/
theorem find?_eq (h : Extends t t') (hwf : t.WellFormed) (hwf' : t'.WellFormed)
    (hfound : t.find? path = some id) : t'.find? path = some id := by
  obtain ⟨hid, htrail⟩ := hwf.find?_eq_some_iff.mp hfound
  rw [hwf'.find?_eq_some_iff, h.trail_eq hid]
  exact ⟨hid.trans_le h.size_le, htrail⟩

/-- The way up from a node stays, as no node gets another parent. -/
theorem ancestors_eq (h : Extends t t') (hwf : t.WellFormed) (hwf' : t'.WellFormed)
    (hid : id < t.size) : t'.ancestors id = t.ancestors id := by
  refine hwf.induction_down ?_ ?_ hid
  · rw [hwf.ancestors_root, hwf'.ancestors_root]
  · intro id n p hn hp hid _ _ ih
    have hparent : t.parent? id = some p := by rw [Tree.parent?_eq, hn, Option.bind_some, hp]
    have hparent' : t'.parent? id = some p := by rw [h.parent?_eq hid, hparent]
    rw [hwf.ancestors_of_parent hparent, hwf'.ancestors_of_parent hparent', ih]

/-- The panel with an id stays, as no other panel has the id. -/
theorem panel?_eq (h : Extends t t') (hs : t.Settled) (hs' : t'.Settled)
    (hd : t.panel? s = some d) : t'.panel? s = some d := by
  rw [hs'.panel?_eq_some_iff]
  exact (hs.panel?_eq_some_iff.mp hd).imp_left fun hmem => h.panels.subset hmem

/-- An item keeps its panel, and a folder gets none. -/
theorem panelOf?_eq (h : Extends t t') (hs : t.Settled) (hs' : t'.Settled) (hid : id < t.size) :
    t'.panelOf? id = t.panelOf? id := by
  obtain ⟨n, hn⟩ := node?_eq_some_iff.mpr hid
  obtain ⟨m, hm, hbare⟩ := h.exists_node? hn
  have hpath : m.path = n.path := by rw [← Node.path_bare, hbare, Node.path_bare]
  have hitem : m.isItem = n.isItem := by rw [← Node.isItem_bare, hbare, Node.isItem_bare]
  by_cases hi : n.isItem = true
  · obtain ⟨d, hd, -⟩ := hs.panelOf?_of_isItem hn hi
    rw [← hs'.panel?_path hm (hitem.trans hi), hpath, hd]
    rw [← hs.panel?_path hn hi] at hd
    exact h.panel?_eq hs hs' hd
  · rw [panelOf?_of_not_isItem hn hi, panelOf?_of_not_isItem hm (by rwa [hitem])]

end Extends

/-! ## What holds of all reachable trees -/

/-- What a reader of `t` has got hold of stands for the same in `t'`. -/
structure Stable (t t' : Tree) : Prop where
  /-- A node keeps its index, and all that it says of itself. -/
  node : ∀ {id n}, t.node? id = some n → ∃ m, t'.node? id = some m ∧ m.name = n.name ∧
    m.path = n.path ∧ m.parent = n.parent ∧ m.isFolder = n.isFolder ∧ m.tags = n.tags
  /-- It has the same nodes above it. -/
  above : ∀ {id}, id < t.size → t'.ancestors id = t.ancestors id
  /-- It has the same panel, or none as before. -/
  own_panel : ∀ {id}, id < t.size → t'.panelOf? id = t.panelOf? id
  /-- A path that led to a node leads to it. -/
  found : ∀ {path id}, t.find? path = some id → t'.find? path = some id
  /-- A folder has the children that it had. -/
  children : ∀ p, t.childrenOf p ⊆ t'.childrenOf p
  /-- The panels are those that there were, and others after them. -/
  panels : t.panels.toList <+: t'.panels.toList
  /-- A panel that was found under an id is found under it. -/
  panel : ∀ {s d}, t.panel? s = some d → t'.panel? s = some d

/-- **Indices, paths and ids go on meaning the same** through any run of operations. -/
theorem stable_of_reachable (hr : Reachable t) (hrun : Relation.ReflTransGen Step t t') :
    Stable t t' := by
  have hs := hr.settled
  obtain ⟨hs', hkeeps⟩ := hs.run hrun
  have hwf := hs.wellFormed
  have hwf' := hs'.wellFormed
  constructor
  case node =>
    intro id n hn
    obtain ⟨m, hm, hbare⟩ := hkeeps.exists_node? hn
    refine ⟨m, hm, ?_, ?_, ?_, ?_, ?_⟩
    · rw [← Node.name_bare, hbare, Node.name_bare]
    · rw [← Node.path_bare, hbare, Node.path_bare]
    · rw [← Node.parent_bare, hbare, Node.parent_bare]
    · rw [← Node.isFolder_bare, hbare, Node.isFolder_bare]
    · rw [← Node.tags_bare, hbare, Node.tags_bare]
  case above => exact fun hid => hkeeps.ancestors_eq hwf hwf' hid
  case own_panel => exact fun hid => hkeeps.panelOf?_eq hs hs' hid
  case found => exact fun hfound => hkeeps.find?_eq hwf hwf' hfound
  case children => exact fun p => hkeeps.childrenOf_subset hwf hwf'
  case panels => exact hkeeps.panels
  case panel => exact fun hd => hkeeps.panel?_eq hs hs' hd

/-- A sibling that is sorted to the front, and an entry that is rejected. -/
theorem stable_past_rejection :
    Reachable ((new "r").add { name := "b/d" }).1 ∧
    Relation.ReflTransGen Step ((new "r").add { name := "b/d" }).1
      ((((new "r").add { name := "b/d" }).1.add { name := "b/c" }).1.sort.add
        { name := "b/d/x" }).1 ∧
    ((((new "r").add { name := "b/d" }).1.add { name := "b/c" }).1.sort.add
      { name := "b/d/x" }).1.find? "b//d" = some 2 := by
  have hr := (reachable_new "r").step (.add _ { name := "b/d" })
  have hrun := ((Relation.ReflTransGen.single (Step.add ((new "r").add { name := "b/d" }).1
    { name := "b/c" })).tail (.sort _)).tail (.add _ { name := "b/d/x" })
  have hfound : ((new "r").add { name := "b/d" }).1.find? "b//d" = some 2 := by decide
  exact ⟨hr, hrun, (stable_of_reachable hr hrun).found hfound⟩

end Tree

end EntryReport
