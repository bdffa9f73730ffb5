import EntryReport.Proofs.Tree.Searching
import EntryReport.Proofs.View.Counts
import EntryReport.Proofs.View.Outline
import EntryReport.Report.Console

/-!
# The lines of the tree

The report for a terminal prints the outline from the root down and goes no further at a folder that
is hidden or collapsed. Node by node, the same lines are found by going through all nodes in
document order: a node has a line if it is not hidden and every folder above it is open, that is,
expanded and not hidden (`treeLines_render`). The recursion skips a node exactly if a node above it
is not open.

* `printed_of_reachable`: the text of these lines, and how many of them are of items if every folder
  is expanded. This many items are visible, because the filter hides no folder above an item that it
  shows.
-/

namespace EntryReport

namespace Tree

variable {t : Tree} {s : UiState} {options : RenderOptions} {id m : Nat}

/-- The folder is expanded and not hidden. -/
def Opens (t : Tree) (s : UiState) (options : RenderOptions) (id : Nat) : Prop :=
  id ∈ s.expanded ∧ id ∉ t.hidden s.criteria options.emptyFolders

/-- The node is not hidden, and every folder above it is open. -/
def Displays (t : Tree) (s : UiState) (options : RenderOptions) (id : Nat) : Prop :=
  id ∉ t.hidden s.criteria options.emptyFolders ∧ ∀ a ∈ t.ancestors id, t.Opens s options a

instance (t : Tree) (s : UiState) (options : RenderOptions) (id : Nat) :
    Decidable (t.Opens s options id) :=
  inferInstanceAs (Decidable (_ ∧ _))

instance (t : Tree) (s : UiState) (options : RenderOptions) (id : Nat) :
    Decidable (t.Displays s options id) :=
  inferInstanceAs (Decidable (_ ∧ ∀ a ∈ t.ancestors id, t.Opens s options a))

/-- What is below the children of a node has the node above it. -/
theorem WellFormed.mem_ancestors_of_below (h : t.WellFormed) (hid : id < t.size)
    (hm : m ∈ (t.childrenOf id).flatMap t.descendants) : id ∈ t.ancestors m := by
  have hnodup := nodup_descendants h hid
  rw [h.descendants_eq hid, List.nodup_cons] at hnodup
  have hbelow : m ∈ t.descendants id := by
    rw [h.descendants_eq hid]
    exact List.mem_cons_of_mem _ hm
  refine ((h.mem_descendants_iff hid).mp hbelow).resolve_left ?_
  rintro rfl
  exact hnodup.1 hm

/-- Nothing is displayed below a node that is not open. -/
theorem WellFormed.not_displays_below (h : t.WellFormed) (hid : id < t.size)
    (hclosed : ¬ t.Opens s options id) (hm : m ∈ (t.childrenOf id).flatMap t.descendants) :
    ¬ t.Displays s options m :=
  fun hdisplays => hclosed (hdisplays.2 id (h.mem_ancestors_of_below hid hm))

end Tree

namespace Console

variable {t : Tree} {s : UiState} {options : RenderOptions}

/-! ## Lines -/

/-- The line of a node, if it is displayed. -/
def displayLines (t : Tree) (s : UiState) (options : RenderOptions) (id : Nat) : List Line :=
  if t.Displays s options id then
    ((View.render t s options).node? id).toList.map (nodeLine (t.depth id))
  else []

theorem displayLines_of_not_displays {id : Nat} (h : ¬ t.Displays s options id) :
    displayLines t s options id = [] := if_neg h

mutual
/-- **The lines of a node**, of which all ancestors are open, and of what is below it. -/
theorem outlineLines_of_shows (h : t.WellFormed) {id : Nat}
    (habove : ∀ a ∈ t.ancestors id, t.Opens s options a) : (o : Outline) →
    o.Shows (.render t s options) id →
    outlineLines (t.depth id) o = (t.descendants id).flatMap (displayLines t s options)
  | .node n os, ho => by
    obtain ⟨hn, hos⟩ := ho
    have hid := View.lt_size_of_node? hn
    rw [View.children_of_node? hn] at hos
    obtain ⟨m, hm, rfl⟩ := View.node?_render_eq_some_iff.mp hn
    rw [outlineLines, h.descendants_eq hid, List.flatMap_cons]
    by_cases hhidden : id ∈ t.hidden s.criteria options.emptyFolders
    · have hclosed : ¬ t.Opens s options id := fun hopen => hopen.2 hhidden
      have hself : ¬ t.Displays s options id := fun hdisplays => hdisplays.1 hhidden
      rw [if_pos (show (View.nodeView _ _ id m).hidden = true from decide_eq_true hhidden),
        displayLines_of_not_displays hself, List.nil_append]
      refine (List.flatMap_eq_nil_iff.mpr fun k hk => ?_).symm
      exact displayLines_of_not_displays (h.not_displays_below hid hclosed hk)
    · have hline : displayLines t s options id = [nodeLine (t.depth id)
          (View.nodeView s (t.hidden s.criteria options.emptyFolders) id m)] := by
        rw [displayLines, if_pos ⟨hhidden, habove⟩, hn]
        rfl
      rw [if_neg (by simpa [View.nodeView] using hhidden), hline, List.singleton_append]
      congr 1
      by_cases hfolder : m.isFolder = true
      · by_cases hexpanded : id ∈ s.expanded
        · have hopen : t.Opens s options id := ⟨hexpanded, hhidden⟩
          rw [if_pos (by simp [View.nodeView, hfolder, hexpanded])]
          refine outlinesLines_of_showsAll h (fun c hc => ⟨h.depth_child hc, ?_⟩) os hos
          rw [h.ancestors_of_parent (h.mem_children.mp hc), List.forall_mem_cons]
          exact ⟨hopen, habove⟩
        · have hclosed : ¬ t.Opens s options id := fun hopen => hexpanded hopen.1
          rw [if_neg (by simp [View.nodeView, hexpanded])]
          refine (List.flatMap_eq_nil_iff.mpr fun k hk => ?_).symm
          exact displayLines_of_not_displays (h.not_displays_below hid hclosed hk)
      · -- an item has nothing below it
        have hnone : t.childrenOf id = [] := by
          rw [Tree.childrenOf_of_node? hm, Node.children_of_not_isFolder hfolder]
        rw [if_neg (by simp [View.nodeView, hfolder]), hnone]
        rfl

theorem outlinesLines_of_showsAll (h : t.WellFormed) {depth : Nat} {ids : List Nat}
    (hids : ∀ id ∈ ids, t.depth id = depth ∧ ∀ a ∈ t.ancestors id, t.Opens s options a) :
    (os : List Outline) → Outline.ShowsAll (.render t s options) ids os →
    outlinesLines depth os = (ids.flatMap t.descendants).flatMap (displayLines t s options)
  | [], hos => by
    cases ids with
    | nil => rfl
    | cons id ids => exact hos.elim
  | o :: os, hos => by
    cases ids with
    | nil => exact hos.elim
    | cons id ids =>
      rw [List.forall_mem_cons] at hids
      obtain ⟨⟨hdepth, habove⟩, hids⟩ := hids
      obtain ⟨ho, hos⟩ := hos
      rw [outlinesLines, ← hdepth, outlineLines_of_shows h habove o ho, hdepth,
        outlinesLines_of_showsAll h hids os hos, List.flatMap_cons, List.flatMap_append]
end

/-- **The lines of the tree** are those of the nodes that are displayed, in document order. -/
theorem treeLines_render (h : t.WellFormed) : treeLines (.render t s options) =
    t.documentOrder.flatMap (displayLines t s options) := by
  have habove : ∀ a ∈ t.ancestors Tree.root, t.Opens s options a := by
    rw [h.ancestors_root]
    exact fun a ha => absurd ha List.not_mem_nil
  have hlines := outlineLines_of_shows h habove _ (View.shows_outline h)
  rwa [h.depth_root] at hlines

/-! ## Text -/

/-- Lines are written one after the other, each with its end. -/
theorem linesText_eq_join (colors : Bool) (ls : List Line) :
    linesText colors ls = String.join (ls.map fun line => lineText colors line ++ "\n") := by
  rw [← String.toList_inj, String.toList_join, linesText, String.toList_ofList, List.flatMap_map]
  refine congrArg (ls.flatMap ·) (funext fun line => ?_)
  rw [String.toList_append, lineText, String.toList_ofList]
  rfl

theorem linesText_append (colors : Bool) (ls ls' : List Line) :
    linesText colors (ls ++ ls') = linesText colors ls ++ linesText colors ls' := by
  rw [linesText_eq_join, List.map_append, String.join_append, ← linesText_eq_join,
    ← linesText_eq_join]

/-- The line of a node, by what the tree and the state say of it. -/
def nodeText (t : Tree) (s : UiState) (id : Nat) (n : Node) : String :=
  String.join (List.replicate (t.depth id) "  ") ++
    (if n.isFolder then (if id ∈ s.expanded then "▾ " else "▸ ") ++ n.name
    else (if s.selection.any (·.item == id) then "> " else "  ") ++ n.name ++
      (if n.tags.hasWarning then " [W]" else "") ++ (if n.tags.hasError then " [E]" else "")) ++
    "\n"

/-- What is printed for a node: its line if it is displayed, otherwise nothing. -/
def displayText (t : Tree) (s : UiState) (options : RenderOptions) (id : Nat) : String :=
  match t.node? id with
  | none => ""
  | some n => if t.Displays s options id then nodeText t s id n else ""

theorem indent_eq (depth : Nat) :
    (indent depth).text.toList = (String.join (List.replicate depth "  ")).toList := by
  have htwo : "  ".toList = List.replicate 2 ' ' := rfl
  rw [String.toList_join, List.flatMap_replicate, htwo, List.flatten_replicate_replicate,
    Nat.mul_comm]
  exact String.toList_ofList

/-- Without colours, the line of a node is its text. -/
theorem lineText_nodeLine (hidden : NodeSet) (id : Nat) (n : Node) :
    lineText false (nodeLine (t.depth id) (View.nodeView s hidden id n)) ++ "\n" =
      nodeText t s id n := by
  rw [← String.toList_inj]
  unfold nodeText lineText nodeLine
  by_cases hf : n.isFolder = true
  · by_cases he : id ∈ s.expanded <;>
      simp [View.nodeView, hf, he, folderLine, caret, plain, Segment.chars, indent_eq]
  · cases hs : s.selection.any (·.item == id) <;> cases hw : n.tags.hasWarning <;>
      cases hx : n.tags.hasError <;>
      simp [View.nodeView, hf, hs, hw, hx, itemLine, tagSegments, plain, Segment.chars, indent_eq]

theorem displayText_eq (id : Nat) : displayText t s options id =
    String.join ((displayLines t s options id).map fun line => lineText false line ++ "\n") := by
  unfold displayText displayLines
  rw [View.render_node?]
  by_cases hdisplays : t.Displays s options id
  · rw [if_pos hdisplays]
    cases t.node? id with
    | none => rfl
    | some n => simp [hdisplays, lineText_nodeLine]
  · rw [if_neg hdisplays]
    cases t.node? id with
    | none => rfl
    | some n => exact if_neg hdisplays

/-- **The text of the tree** is that of its nodes, in document order. -/
theorem linesText_treeLines (h : t.WellFormed) :
    linesText false (treeLines (.render t s options)) =
      String.join (t.documentOrder.map (displayText t s options)) := by
  rw [treeLines_render h, linesText_eq_join, ← String.toList_inj, String.toList_join,
    String.toList_join, List.map_flatMap, List.flatMap_assoc, List.flatMap_map]
  refine congrArg (t.documentOrder.flatMap ·) (funext fun id => ?_)
  rw [displayText_eq, String.toList_join]

/-! ## The report -/

/-- What comes after the tree: the panel, if it is asked for, and the counts. -/
def linesAfterTree (verbose : Bool) (v : View) : List Line :=
  (match verbose, v.visiblePanel? with
    | true, some p => [] :: panelLines p
    | _, _ => []) ++ [[], summaryLine v]

theorem lines_eq (verbose : Bool) (v : View) :
    lines verbose v = treeLines v ++ linesAfterTree verbose v :=
  List.append_assoc _ _ _

/-- If every folder is expanded, an item is displayed unless it is hidden. -/
theorem displays_iff_of_expanded (h : t.WellFormed)
    (hall : ∀ f, t.isFolder f = true → f ∈ s.expanded) {id : Nat} (hi : t.isItem id = true) :
    t.Displays s options id ↔ id ∉ t.hidden s.criteria options.emptyFolders := by
  refine ⟨fun hdisplays => hdisplays.1, fun hshown => ⟨hshown, fun a ha => ⟨?_, ?_⟩⟩⟩
  · exact hall a (h.isFolder_of_mem_ancestors (Tree.lt_size_of_isItem hi) ha)
  · exact h.not_mem_hidden_above hi hshown ha

/-- **The items that are displayed** in a tree with all folders expanded are the visible items. -/
theorem countP_items (h : t.WellFormed) (hall : ∀ f, t.isFolder f = true → f ∈ s.expanded) :
    t.documentOrder.countP (fun id => t.isItem id && decide (t.Displays s options id)) =
      (View.render t s options).summary.visibleItems := by
  rw [View.visibleItems_render, (Tree.perm_documentOrder h).countP_eq]
  refine List.countP_congr fun id _ => ?_
  simp only [Bool.and_eq_true, decide_eq_true_eq]
  exact and_congr_right fun hi => displays_iff_of_expanded h hall hi

/-- What the report prints of the tree. -/
structure Printed (t : Tree) (s : UiState) (options : RenderOptions) : Prop where
  /-- The report begins with a line for each node that is displayed, in document order. -/
  text : ∀ verbose, text false verbose (.render t s options) =
    String.join (t.documentOrder.map (displayText t s options)) ++
      linesText false (linesAfterTree verbose (.render t s options))
  /-- If every folder is expanded, as many of the lines are of items as there are visible items. -/
  items : (∀ f, t.isFolder f = true → f ∈ s.expanded) →
    t.documentOrder.countP (fun id => t.isItem id && decide (t.Displays s options id)) =
      (View.render t s options).summary.visibleItems

/-- **The report shows what can be seen of a reachable tree**, and nothing else of it. -/
theorem printed_of_reachable (hr : Tree.Reachable t) (s : UiState) (options : RenderOptions) :
    Printed t s options where
  text verbose := by
    unfold Console.text
    rw [lines_eq, linesText_append, linesText_treeLines hr.settled.wellFormed]
  items := countP_items hr.settled.wellFormed

/-- An expanded folder with a selected item, and a collapsed one. -/
theorem printed_half_expanded :
    Tree.Reachable (((Tree.new "r").add { name := "a/b" }).1.add { name := "c/d" }).1 ∧
    text false false (.render (((Tree.new "r").add { name := "a/b" }).1.add { name := "c/d" }).1
      { expanded := .ofList [0, 1, 2], selection := some ⟨"", 2⟩ } {}) =
      "▾ r\n  ▾ a\n    > b [W]\n  ▸ c\n\n2 items, 2 warnings, 0 errors\n" := by
  have hr := ((Tree.reachable_new "r").step (.add _ { name := "a/b" })).step
    (.add _ { name := "c/d" })
  refine ⟨hr, ((printed_of_reachable hr _ {}).text false).trans ?_⟩
  decide +kernel

end Console

end EntryReport
