import EntryReport.Proofs.Json.Reading
import EntryReport.Proofs.View.Counts
import EntryReport.Proofs.View.Outline
import EntryReport.Proofs.View.Selection
import EntryReport.Report.Data

/-!
# What another program reads in a report

The report for other programs holds no fractions, so that both of its layouts are read as the same
document (`whole_document`). Another program reads the tree in it node by node: what is said of a
node (`Facts`), where marks that are left out are false, and in the same way the nodes under
`children`, of which there are none where they are left out (`readNode?`). What it gets is a
`Listing`.

* `listed_of_reachable`: the listing nests as the tree does, its rows are the nodes of the view in
  document order, the counts are those of the rows, and there is a panel if one is visible.
-/

namespace EntryReport.Data

open Json (Doc Items Members Document Layout)

/-! ## Facts -/

/-- What is said of a node. -/
structure Facts where
  name : String
  path : String
  kind : String
  expanded : Bool
  hidden : Bool
  highlighted : Bool
  hasWarning : Bool
  hasError : Bool
deriving DecidableEq, Repr

namespace Facts

/-- What a view says of a node. -/
def ofView (n : NodeView) : Facts where
  name := n.name
  path := n.path
  kind := if n.isFolder then "folder" else "item"
  expanded := n.expanded
  hidden := n.hidden
  highlighted := n.highlighted
  hasWarning := n.tags.hasWarning
  hasError := n.tags.hasError

/-- What the members of an object say of a node. -/
def read? (ms : Members) : Option Facts := do
  return {
    name := ← ms.text? "name"
    path := ← ms.text? "path"
    kind := ← ms.text? "kind"
    expanded := ← ms.flag? "expanded"
    hidden := ← ms.flag? "hidden"
    highlighted := ← ms.flag? "highlighted"
    hasWarning := ← ms.flag? "hasWarning"
    hasError := ← ms.flag? "hasError" }

end Facts

/-! ## Listings -/

/-- A node with the nodes below it, as another program reads them. -/
inductive Listing where
  | node (facts : Facts) (children : List Listing)

mutual
/-- The rows of a listing, a node before those below it. -/
def Listing.rows : Listing → List Facts
  | .node f ls => f :: rowsAll ls

/-- The rows of listings, one after the other. -/
def rowsAll : List Listing → List Facts
  | [] => []
  | l :: ls => l.rows ++ rowsAll ls
end

mutual
/-- The listing of an outline. -/
def Listing.ofOutline : Outline → Listing
  | .node n os => .node (.ofView n) (ofOutlines os)

/-- The listings of outlines. -/
def ofOutlines : List Outline → List Listing
  | [] => []
  | o :: os => .ofOutline o :: ofOutlines os
end

mutual
/-- A node is read from an object. -/
def readNode? : Doc → Option Listing
  | .obj ms => do return .node (← Facts.read? ms) (← readBelow? ms)
  | _ => none

/-- The nodes below it are under the first key `children`; without such a key there are none. -/
def readBelow? : Members → Option (List Listing)
  | .closed => some []
  | .broken => none
  | .member key value rest => if key = some "children" then readNodes? value else readBelow? rest

/-- Nodes are read from an array. -/
def readNodes? : Doc → Option (List Listing)
  | .arr items => readItems? items
  | _ => none

/-- Each item of the array is a node. -/
def readItems? : Items → Option (List Listing)
  | .closed => some []
  | .broken => none
  | .item value rest => do return (← readNode? value) :: (← readItems? rest)
end

mutual
/-- The listing is that of a node: it says what the view says of the node, and the listings below
are those of its children. -/
def Listing.Nests (v : View) (id : Nat) : Listing → Prop
  | .node f ls => (v.node? id).map .ofView = some f ∧ NestsAll v (v.tree.childrenOf id) ls

/-- Each listing is that of the node in its place. -/
def NestsAll (v : View) : List Nat → List Listing → Prop
  | [], [] => True
  | id :: ids, l :: ls => l.Nests v id ∧ NestsAll v ids ls
  | _, _ => False
end

mutual
theorem rows_ofOutline : (o : Outline) → (Listing.ofOutline o).rows = o.nodes.map .ofView
  | .node n os => by
    rw [Listing.ofOutline, Listing.rows, rowsAll_ofOutlines os, Outline.nodes, List.map_cons]

theorem rowsAll_ofOutlines :
    (os : List Outline) → rowsAll (ofOutlines os) = (Outline.nodesAll os).map .ofView
  | [] => rfl
  | o :: os => by
    rw [ofOutlines, rowsAll, rows_ofOutline o, rowsAll_ofOutlines os, Outline.nodesAll,
      List.map_append]
end

section

variable {t : Tree} {s : UiState} {options : RenderOptions}

mutual
theorem nests_ofOutline {id : Nat} : (o : Outline) → o.Shows (.render t s options) id →
    (Listing.ofOutline o).Nests (.render t s options) id
  | .node n os, ho => by
    obtain ⟨hn, hos⟩ := ho
    rw [View.children_of_node? hn] at hos
    exact ⟨by rw [hn, Option.map_some], nestsAll_ofOutlines os hos⟩

theorem nestsAll_ofOutlines {ids : List Nat} : (os : List Outline) →
    Outline.ShowsAll (.render t s options) ids os →
    NestsAll (.render t s options) ids (ofOutlines os)
  | [], hos => by
    cases ids with
    | nil => trivial
    | cons id ids => exact hos.elim
  | o :: os, hos => by
    cases ids with
    | nil => exact hos.elim
    | cons id ids => exact ⟨nests_ofOutline o hos.1, nestsAll_ofOutlines os hos.2⟩
end

end

/-! ## Reading a node -/

variable {rest : List (String × Json)} {key : String}

/-- What is said of a node is not changed by its children. -/
theorem read?_append {ms : List (String × Json)} (hrest : ∀ m ∈ rest, m.1 = "children") :
    Facts.read? (Members.asRead (ms ++ rest)) = Facts.read? (Members.asRead ms) := by
  have hlookup {key : String} (hkey : key ≠ "children") :
      (ms ++ rest).lookup key = ms.lookup key := by
    have hnone : rest.lookup key = none := by
      rw [List.lookup_eq_none_iff]
      intro m hm
      rw [hrest m hm]
      simpa using hkey
    rw [List.lookup_append, hnone, Option.or_none]
  unfold Facts.read? Members.text? Members.flag?
  simp (disch := decide) only [Members.get?_asRead, hlookup]

/-- **What is said of a node is read,** if only folders are expanded. -/
theorem read?_nodeMembers {n : NodeView} (hn : n.isFolder = false → n.expanded = false) :
    Facts.read? (Members.asRead (nodeMembers n)) = some (.ofView n) := by
  unfold nodeMembers mark Facts.ofView
  -- the marks that are left out differ from case to case
  cases hfolder : n.isFolder <;> cases n.highlighted <;> cases n.tags.hasWarning <;>
    cases n.tags.hasError <;>
    simp [Facts.read?, Members.asRead, Members.text?, Members.flag?, Members.get?, Doc.asRead,
      Doc.text?, Doc.truth?, hn, hfolder]

theorem readBelow?_append {ms : List (String × Json)} (h : ∀ m ∈ ms, m.1 ≠ "children") :
    readBelow? (Members.asRead (ms ++ rest)) = readBelow? (Members.asRead rest) := by
  induction ms with
  | nil => rfl
  | cons m ms ih =>
    rw [List.forall_mem_cons] at h
    have hkey : some m.1 ≠ some "children" := by simpa using h.1
    rw [List.cons_append, Members.asRead, readBelow?, if_neg hkey, ih h.2]

theorem nodeMembers_keys (n : NodeView) : ∀ m ∈ nodeMembers n, m.1 ≠ "children" := by
  unfold nodeMembers mark
  cases n.isFolder <;> cases n.highlighted <;> cases n.tags.hasWarning <;>
    cases n.tags.hasError <;> simp

mutual
/-- **A node is read with the nodes below it.** -/
theorem readNode?_outlineJson {v : View} {id : Nat} : (o : Outline) → o.Shows v id →
    (∀ m n, v.node? m = some n → n.isFolder = false → n.expanded = false) →
    readNode? (Doc.asRead (outlineJson o)) = some (.ofOutline o)
  | .node n [], ho, hv => by
    have hfacts := read?_nodeMembers (hv id n ho.1)
    have hbelow : readBelow? (Members.asRead (nodeMembers n)) = some [] := by
      rw [← List.append_nil (nodeMembers n), readBelow?_append (nodeMembers_keys n)]
      rfl
    rw [outlineJson, Doc.asRead, readNode?, hfacts, hbelow]
    rfl
  | .node n (o :: os), ho, hv => by
    have hrest : ∀ m ∈ [("children", Json.arr (outlinesJson (o :: os)))], m.1 = "children" := by
      simp
    have hfacts := (read?_append hrest).trans (read?_nodeMembers (hv id n ho.1))
    have hbelow : readBelow? (Members.asRead (nodeMembers n ++
        [("children", .arr (outlinesJson (o :: os)))])) = some (ofOutlines (o :: os)) := by
      rw [readBelow?_append (nodeMembers_keys n), Members.asRead, readBelow?, if_pos rfl,
        Doc.asRead, readNodes?, readItems?_outlinesJson (o :: os) ho.2 hv]
    rw [outlineJson, ← outlinesJson, Doc.asRead, readNode?, hfacts, hbelow]
    rfl

theorem readItems?_outlinesJson {v : View} {ids : List Nat} : (os : List Outline) →
    Outline.ShowsAll v ids os →
    (∀ m n, v.node? m = some n → n.isFolder = false → n.expanded = false) →
    readItems? (Items.asRead (outlinesJson os)) = some (ofOutlines os)
  | [], _, _ => rfl
  | o :: os, hos, hv => by
    cases ids with
    | nil => exact hos.elim
    | cons id ids =>
      rw [outlinesJson, Items.asRead, readItems?, readNode?_outlineJson o hos.1 hv,
        readItems?_outlinesJson os hos.2 hv, ofOutlines]
      rfl
end

/-! ## Whole numbers -/

theorem allWhole_rows (rows : List Row) : Json.AllWhole (rows.map Panel.rowJson) := by
  rw [Json.allWhole_iff, List.forall_mem_map]
  intro r _
  rw [Panel.rowJson, Json.Whole, Json.membersWhole_iff]
  cases r.warning <;> simp [Json.member?, Json.Whole]

theorem whole_optional_text (o : Option String) : (Json.optional .str o).Whole := by
  cases o <;> trivial

theorem whole_panel (d : Panel) : d.toJson.Whole := by
  rw [Panel.toJson, Json.Whole, Json.membersWhole_iff]
  simp [allWhole_rows, whole_optional_text, Json.Whole, Json.MembersWhole, Tags.toJson]

theorem membersWhole_nodeMembers (n : NodeView) : Json.MembersWhole (nodeMembers n) := by
  rw [Json.membersWhole_iff]
  unfold nodeMembers mark
  cases n.isFolder <;> cases n.highlighted <;> cases n.tags.hasWarning <;>
    cases n.tags.hasError <;> simp [Json.Whole]

mutual
theorem whole_outlineJson : (o : Outline) → (outlineJson o).Whole
  | .node n [] => by
    rw [outlineJson, Json.Whole]
    exact membersWhole_nodeMembers n
  | .node n (o :: os) => by
    rw [outlineJson, ← outlinesJson, Json.Whole, Json.membersWhole_iff, List.forall_mem_append,
      ← Json.membersWhole_iff]
    exact ⟨membersWhole_nodeMembers n,
      List.forall_mem_singleton.mpr (allWhole_outlinesJson (o :: os))⟩

theorem allWhole_outlinesJson : (os : List Outline) → Json.AllWhole (outlinesJson os)
  | [] => trivial
  | o :: os => ⟨whole_outlineJson o, allWhole_outlinesJson os⟩
end

/-- **The report holds no fractions.** -/
theorem whole_document (title : Option String) (v : View) : (document title v).Whole := by
  have hselected : (Json.optional Panel.toJson v.visiblePanel?).Whole := by
    cases v.visiblePanel? with
    | none => trivial
    | some d => exact whole_panel d
  rw [document, Json.Whole, Json.membersWhole_iff]
  cases title <;>
  simp [hselected, whole_outlineJson, View.summaryJson, Criteria.toJson, Json.member?, Json.nat,
    Json.Whole, Json.MembersWhole]

/-! ## The document -/

theorem get?_document (title : Option String) (v : View) (hkey : key ≠ "title") :
    (Doc.asRead (document title v)).get? key =
      (List.lookup key [("summary", View.summaryJson v.summary), ("filter", v.criteria.toJson),
        ("tree", outlineJson v.outline),
        ("selected", Json.optional Panel.toJson v.visiblePanel?)]).map Doc.asRead := by
  have hnone : (Json.member? "title" .str title).lookup key = none := by
    cases title with
    | none => rfl
    | some title => rw [Json.member?, List.lookup_cons, beq_false_of_ne hkey]; rfl
  rw [document, Doc.get?_asRead, List.lookup_append, hnone, Option.none_or]

/-- A count of the report. -/
def count? (key : String) (d : Doc) : Option Doc :=
  (d.get? "summary").bind (·.get? key)

section

variable {t : Tree} {s : UiState} {options : RenderOptions}

/-- Only folders are expanded. -/
theorem expanded_of_node? {id : Nat} {n : NodeView}
    (hn : (View.render t s options).node? id = some n) (hfolder : n.isFolder = false) :
    n.expanded = false := by
  obtain ⟨m, -, rfl⟩ := View.node?_render_eq_some_iff.mp hn
  have hf : m.isFolder = false := hfolder
  simp [View.nodeView, hf]

/-- The counts are those of what is said of the nodes in document order. -/
theorem summary_render (h : t.WellFormed) {fs : List Facts}
    (hfs : fs = (View.render t s options).inOrder.map .ofView) :
    (View.render t s options).summary =
      { folders := fs.countP (·.kind == "folder")
        items := fs.countP (·.kind == "item")
        warnings := fs.countP fun f => f.kind == "item" && f.hasWarning
        errors := fs.countP fun f => f.kind == "item" && f.hasError
        visibleItems := fs.countP fun f => f.kind == "item" && !f.hidden } := by
  have hperm : (View.render t s options).summary =
      (View.render t s options).inOrder.foldl View.Summary.count {} := by
    unfold View.summary
    exact ((View.perm_nodes h).foldl_eq _).symm
  have hfolder (n : NodeView) : ((Facts.ofView n).kind == "folder") = n.isFolder := by
    unfold Facts.ofView
    cases n.isFolder <;> rfl
  have hitem (n : NodeView) : ((Facts.ofView n).kind == "item") = !n.isFolder := by
    unfold Facts.ofView
    cases n.isFolder <;> rfl
  rw [hperm, View.foldl_count, hfs]
  simp only [List.countP_map, Function.comp_def, hfolder, hitem, Nat.zero_add]
  rfl

end

/-- What another program finds in the document of a view. -/
structure Listed (v : View) (d : Doc) (l : Listing) : Prop where
  /-- The listing is what is read of the tree. -/
  tree : (d.get? "tree").bind readNode? = some l
  /-- It nests as the nodes do. -/
  nested : l.Nests v Tree.root
  /-- Its rows are the nodes in document order. -/
  rows : l.rows = v.inOrder.map .ofView
  /-- These are all nodes, each once. -/
  once : v.inOrder.Perm v.nodes.toList
  /-- The counts are those of the rows. -/
  folders : count? "folders" d = some (.ofCount (l.rows.countP (·.kind == "folder")))
  items : count? "items" d = some (.ofCount (l.rows.countP (·.kind == "item")))
  warnings : count? "warnings" d =
    some (.ofCount (l.rows.countP fun f => f.kind == "item" && f.hasWarning))
  errors : count? "errors" d =
    some (.ofCount (l.rows.countP fun f => f.kind == "item" && f.hasError))
  visibleItems : count? "visibleItems" d =
    some (.ofCount (l.rows.countP fun f => f.kind == "item" && !f.hidden))
  /-- The counts are read as they are, if 64 bits are enough for the number of nodes. -/
  read_exactly : v.nodes.size < 2 ^ 64 → ∀ p : Facts → Bool,
    Doc.ofCount (l.rows.countP p) = .number (some (.int (l.rows.countP p)))
  /-- There is no selected panel exactly if no panel is visible. -/
  selected : d.get? "selected" = some .null ↔ v.visiblePanels = []

/-- **The report can be read back.** -/
theorem listed_of_reachable {t : Tree} (ht : t.Reachable) (s : UiState) (options : RenderOptions)
    (title : Option String) :
    ∃ d, (∀ pretty, Document.ofText (report pretty title (.render t s options)) = ⟨d, true⟩) ∧
      ∃ l, Listed (.render t s options) d l := by
  have h := ht.settled
  have hlayout (pretty : Bool) : (if pretty then Layout.pretty else .compact).Blank := by
    cases pretty
    · exact Layout.blank_compact
    · exact Layout.blank_pretty
  refine ⟨Doc.asRead (document title (.render t s options)), fun pretty =>
    Document.ofText_asRead (hlayout pretty) (whole_document _ _),
    .ofOutline (View.render t s options).outline, ?_⟩
  have hshows : (View.render t s options).outline.Shows (.render t s options) Tree.root :=
    View.shows_outline h.wellFormed
  have hrows : (Listing.ofOutline (View.render t s options).outline).rows =
      (View.render t s options).inOrder.map .ofView := by
    rw [rows_ofOutline, View.nodes_outline h.wellFormed]
  have honce : (View.render t s options).inOrder.Perm (View.render t s options).nodes.toList :=
    View.perm_nodes h.wellFormed
  have hsummary := summary_render h.wellFormed hrows
  have hcount (key : String) : count? key (Doc.asRead (document title (.render t s options))) =
      (Doc.asRead (View.summaryJson (View.render t s options).summary)).get? key := by
    rw [count?, get?_document title _ (by decide)]
    rfl
  rw [hsummary, View.summaryJson] at hcount
  constructor
  case tree =>
    rw [get?_document title _ (by decide)]
    exact readNode?_outlineJson _ hshows fun _ _ => expanded_of_node?
  case nested => exact nests_ofOutline _ hshows
  case rows => exact hrows
  case once => exact honce
  case folders => rw [hcount, Doc.get?_asRead]; rfl
  case items => rw [hcount, Doc.get?_asRead]; rfl
  case warnings => rw [hcount, Doc.get?_asRead]; rfl
  case errors => rw [hcount, Doc.get?_asRead]; rfl
  case visibleItems => rw [hcount, Doc.get?_asRead]; rfl
  case read_exactly =>
    intro hsize p
    refine Doc.ofCount_of_lt (lt_of_le_of_lt List.countP_le_length ?_)
    rw [hrows, List.length_map, honce.length_eq, Array.length_toList]
    exact hsize
  case selected =>
    have hselected : (Doc.asRead (document title (.render t s options))).get? "selected" = some
        (Doc.asRead (.optional Panel.toJson (View.render t s options).visiblePanel?)) := by
      rw [get?_document title _ (by decide)]
      rfl
    rw [hselected, ← View.visiblePanel?_eq_none_iff h]
    cases (View.render t s options).visiblePanel? with
    | none => exact iff_of_true rfl rfl
    | some d => exact iff_of_false (by simp [Json.optional, Panel.toJson, Doc.asRead]) (by simp)

/-- A name with a quotation mark and a line break, selected and not hidden by the criteria. -/
theorem listed_of_quoted :
    Tree.Reachable (((Tree.new "r").add { name := "a/b\"\n" }).1.add
      { name := "c", description := "d" }).1 ∧
    ∃ d, ∃ l : Listing, (∀ pretty, Document.ofText (report pretty (some "<t>") (.render
        (((Tree.new "r").add { name := "a/b\"\n" }).1.add { name := "c", description := "d" }).1
        { selection := some ⟨"/a/b\"\n", 2⟩, criteria := { warnings := true } } {})) = ⟨d, true⟩) ∧
      l.rows =
        [⟨"r", "/", "folder", false, false, false, false, false⟩,
          ⟨"a", "/a", "folder", false, false, false, false, false⟩,
          ⟨"b\"\n", "/a/b\"\n", "item", false, false, true, true, false⟩,
          ⟨"c", "/c", "item", false, true, false, false, false⟩] ∧
      count? "visibleItems" d = some (.number (some (.int 1))) := by
  have hr := ((Tree.reachable_new "r").step (.add _ { name := "a/b\"\n" })).step
    (.add _ { name := "c", description := "d" })
  obtain ⟨d, hread, l, hl⟩ := listed_of_reachable hr
    { selection := some ⟨"/a/b\"\n", 2⟩, criteria := { warnings := true } } {} (some "<t>")
  refine ⟨hr, d, l, hread, ?_, ?_⟩
  · rw [hl.rows]
    decide +kernel
  · have hone : (l.rows.countP fun f => f.kind == "item" && !f.hidden) = 1 := by
      rw [hl.rows]
      decide +kernel
    rw [hl.visibleItems, hl.read_exactly (by decide +kernel), hone]
    rfl

end EntryReport.Data
