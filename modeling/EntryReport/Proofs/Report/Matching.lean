import EntryReport.Proofs.Report.Page
import EntryReport.Proofs.Report.ReadTags
import EntryReport.Proofs.Tree.Panels
import EntryReport.Proofs.View.Outline
import EntryReport.Proofs.View.Selection

/-!
# The items and the panels of a page

A reader of a page takes the tags between the list with the class `tree` and the sidebar for the
tree, and the tags in the sidebar for the panels. In the tree each list item begins a node, and the
tags up to the next list item tell how the node looks (`Sight`).

* `readNodes_report`: the nodes are those of the view in document order;
* `readPanels_report`: the panels are those of the view;
* `matched_of_reachable`: so each item names one panel, the panel of its path.
-/

namespace EntryReport

open Markup

/-! ## Tags of pieces -/

namespace Html

variable {tag className : String} {as : List Attribute} {children hs hs' : List Html}

/-- The tags that begin elements. -/
def beginTags (hs : List Html) : List Tag :=
  (tokensAll hs).filterMap Token.begin?

@[simp] theorem beginTags_nil : beginTags [] = [] := rfl

@[simp] theorem beginTags_text {s : String} : beginTags (.text s :: hs) = beginTags hs := rfl

@[simp] theorem beginTags_element : beginTags (.element tag as children :: hs) =
    ⟨tag, as.filterMap Attribute.pair?⟩ :: (beginTags children ++ beginTags hs) := by
  simp [beginTags, List.filterMap_cons, Token.begin?]

@[simp] theorem beginTags_classed : beginTags (classed tag className children :: hs) =
    ⟨tag, [("class", className)]⟩ :: (beginTags children ++ beginTags hs) :=
  beginTags_element

@[simp] theorem beginTags_void : beginTags (.void tag as :: hs) =
    ⟨tag, as.filterMap Attribute.pair?⟩ :: beginTags hs := rfl

@[simp] theorem beginTags_append : beginTags (hs ++ hs') = beginTags hs ++ beginTags hs' := by
  unfold beginTags
  rw [tokensAll_append, List.filterMap_append]

theorem beginTags_flatMap {α : Type} (f : α → List Html) (xs : List α) :
    beginTags (xs.flatMap f) = xs.flatMap fun x => beginTags (f x) := by
  unfold beginTags
  rw [tokensAll_flatMap, List.filterMap_flatMap]

/-- An element that is barred does not begin. -/
theorem name_of_mem_beginTags {barred : List String} (h : tidy barred hs = true) {tag : Tag}
    (htag : tag ∈ beginTags hs) : tag.name = "input" ∨ tag.name ∉ barred := by
  obtain ⟨t, ht, hbegin⟩ := List.mem_filterMap.mp htag
  have htidy := List.all_eq_true.mp h t ht
  cases t with
  | text s => cases hbegin
  | opening tag as =>
    cases hbegin
    exact Or.inr (Token.tidy_opening htidy).2.2.1
  | closing tag => cases hbegin
  | void tag as =>
    cases hbegin
    exact Or.inl (Token.tidy_void htidy).1

end Html

namespace Page

open Html (beginTags tidy tokensAll)

/-! ## Parts of a page -/

/-- The tag of the list that holds the tree. -/
def treeTag : Tag := ⟨"ul", [("class", "tree")]⟩

/-- The tag of the part that holds the panels. -/
def sidebarTag : Tag := ⟨"div", [("class", "sidebar")]⟩

/-- The tags of the tree: those between the list of the tree and the sidebar. -/
def treeTags (page : List Char) : List Tag :=
  ((readTags (viewPart page)).dropWhile (· ≠ treeTag)).tail.takeWhile (· ≠ sidebarTag)

/-- The tags of the panels: those in the sidebar. -/
def sidebarTags (page : List Char) : List Tag :=
  ((readTags (viewPart page)).dropWhile (· ≠ sidebarTag)).tail

theorem readTags_viewPart (title : String) (v : View) :
    readTags (viewPart (report title v).toList) = beginTags [body title v] := by
  unfold readTags
  rw [rawTags_viewPart, Token.readTags_eq (tidy_body title v)]
  rfl

/-- The tags in front of the tree. -/
def frontTags (title : String) (v : View) : List Tag :=
  ⟨"div", [("class", "shell")]⟩ :: (beginTags [header title v.summary] ++
    (beginTags [controls v.criteria] ++ [⟨"div", [("class", "main")]⟩]))

theorem beginTags_body (title : String) (v : View) : beginTags [body title v] =
    frontTags title v ++ treeTag :: (beginTags (outline v.highlight true v.outline) ++
      sidebarTag :: beginTags (panels v)) := by
  unfold beginTags
  rw [tokensAll_body]
  simp [frontTags, beginTags, List.filterMap_cons, Token.begin?, Attribute.pair?, treeTag,
    sidebarTag]

/-- What stands in front of the tree is neither its list nor the sidebar. -/
theorem front_ne (title : String) (v : View) {tag : Tag} (htag : tag ∈ frontTags title v) :
    tag ≠ treeTag ∧ tag ≠ sidebarTag := by
  have hheader : ∀ tag ∈ beginTags [header title v.summary], tag ≠ treeTag ∧ tag ≠ sidebarTag := by
    simp [header, treeTag, sidebarTag, Attribute.pair?]
  have hcontrols : ∀ tag ∈ beginTags [controls v.criteria], tag ≠ treeTag ∧ tag ≠ sidebarTag := by
    simp [controls, checkbox, treeTag, sidebarTag, Attribute.pair?]
  simp only [frontTags, List.mem_cons, List.mem_append, List.not_mem_nil, or_false] at htag
  rcases htag with rfl | htag | htag | rfl
  · decide
  · exact hheader tag htag
  · exact hcontrols tag htag
  · decide

theorem outline_ne (v : View) {tag : Tag}
    (htag : tag ∈ beginTags (outline v.highlight true v.outline)) : tag ≠ sidebarTag := by
  rintro rfl
  rcases Html.name_of_mem_beginTags (tidy_outline v.highlight true v.outline) htag with h | h
  · exact absurd h (by decide)
  · exact h (by decide)

/-- **The tags of the tree** are those that were written for the outline. -/
theorem treeTags_report (title : String) (v : View) : treeTags (report title v).toList =
    beginTags (outline v.highlight true v.outline) := by
  rw [treeTags, readTags_viewPart, beginTags_body,
    List.dropWhile_append_of_pos fun tag htag => by simpa using (front_ne title v htag).1,
    List.dropWhile_cons_of_neg (by simp), List.tail_cons,
    List.takeWhile_append_of_pos fun tag htag => by simpa using outline_ne v htag,
    List.takeWhile_cons_of_neg (by simp), List.append_nil]

/-- **The tags of the sidebar** are those that were written for the panels. -/
theorem sidebarTags_report (title : String) (v : View) :
    sidebarTags (report title v).toList = beginTags (panels v) := by
  rw [sidebarTags, readTags_viewPart, beginTags_body,
    List.dropWhile_append_of_pos fun tag htag => by simpa using (front_ne title v htag).2,
    List.dropWhile_cons_of_pos (by decide),
    List.dropWhile_append_of_pos fun tag htag => by simpa using outline_ne v htag,
    List.dropWhile_cons_of_neg (by simp), List.tail_cons]

/-! ## The nodes of the tree -/

/-- How a node looks to a reader. -/
structure Sight where
  /-- Its list item has the class `filterHider`. -/
  hidden : Bool
  /-- Whether its caret has the class `caret-down`, if it has a caret. -/
  caret : Option Bool
  /-- Whether the list of its children has the class `active`, if it has such a list. -/
  active : Option Bool
  /-- The panels that it names. -/
  descriptions : List String
  styles : List String
deriving DecidableEq, Repr

/-- A node as the tag of its list item and the tags up to the next one tell. -/
def readNode (li : Tag) (own : List Tag) : Sight where
  hidden := li.hasClass "filterHider"
  caret := (own.find? (·.hasClass "caret")).map (·.hasClass "caret-down")
  active := (own.find? (·.name = "ul")).map (·.hasClass "active")
  descriptions := (li :: own).filterMap (·.value? "data-description")
  styles := (li :: own).filterMap (·.value? "style")

/-- The nodes that the tags of a tree tell of. -/
def readNodes : List Tag → List Sight
  | [] => []
  | tag :: tags =>
    if tag.name = "li" then
      readNode tag (tags.takeWhile (·.name ≠ "li")) :: readNodes tags
    else readNodes tags

/-- How a node of a view is to look. -/
def sight (h : Highlight) (n : NodeView) : Sight :=
  if n.isFolder then ⟨n.hidden, some n.expanded, some n.expanded, [], []⟩
  else ⟨n.hidden, none, none, [n.path], if n.highlighted then [highlightStyle h] else []⟩

/-- The tags go on with a list item, if at all. -/
def ItemFirst (tags : List Tag) : Prop :=
  ∀ tag ∈ tags.head?, tag.name = "li"

theorem itemFirst_nil : ItemFirst [] := fun _ htag => nomatch htag

theorem takeWhile_of_itemFirst {own tags : List Tag} (hown : ∀ tag ∈ own, tag.name ≠ "li")
    (h : ItemFirst tags) : (own ++ tags).takeWhile (·.name ≠ "li") = own := by
  rw [List.takeWhile_append_of_pos fun tag htag => by simpa using hown tag htag]
  cases tags with
  | nil => simp
  | cons tag tags =>
    have hli : tag.name = "li" := h tag rfl
    rw [List.takeWhile_cons_of_neg (by simpa using hli), List.append_nil]

theorem readNodes_append {own : List Tag} (hown : ∀ tag ∈ own, tag.name ≠ "li")
    (tags : List Tag) : readNodes (own ++ tags) = readNodes tags := by
  induction own with
  | nil => rfl
  | cons tag own ih =>
    rw [List.forall_mem_cons] at hown
    rw [List.cons_append, readNodes, if_neg hown.1, ih hown.2]

/-- A node begins with its list item and has further tags of its own. -/
theorem readNodes_item {li : Tag} {own tags : List Tag} (hli : li.name = "li")
    (hown : ∀ tag ∈ own, tag.name ≠ "li") (h : ItemFirst tags) :
    readNodes (li :: (own ++ tags)) = readNode li own :: readNodes tags := by
  rw [readNodes, if_pos hli, takeWhile_of_itemFirst hown h, readNodes_append hown]

/-- Each tag belongs to the node whose list item it follows. -/
theorem flatMap_descriptions (tags : List Tag) :
    (tags.takeWhile (·.name ≠ "li")).filterMap (·.value? "data-description") ++
      (readNodes tags).flatMap (·.descriptions) =
        tags.filterMap (·.value? "data-description") := by
  induction tags with
  | nil => rfl
  | cons tag tags ih =>
    rw [readNodes]
    by_cases hli : tag.name = "li"
    · rw [if_pos hli, List.takeWhile_cons_of_neg (by simpa using hli), List.flatMap_cons,
        readNode, List.filterMap_nil, List.nil_append]
      simp only [List.filterMap_cons]
      cases tag.value? "data-description" with
      | none => exact ih
      | some path => rw [List.cons_append, ih]
    · rw [if_neg hli, List.takeWhile_cons_of_pos (by simpa using hli)]
      simp only [List.filterMap_cons]
      cases tag.value? "data-description" with
      | none => exact ih
      | some path => rw [List.cons_append, ih]

/-! ### One node -/

/-- The classes of a folder and of what belongs to it. -/
theorem readNode_folder (isRoot : Bool) (h : Highlight) {n : NodeView} (hf : n.isFolder = true) :
    readNode ⟨"li", [("class", (if isRoot then "root" else "container") ++ hider n)]⟩
      [⟨"span", [("class", "caret" ++ whenever n.expanded " caret-down")]⟩,
        ⟨"ul", [("class", "nested" ++ whenever n.expanded " active")]⟩] = sight h n := by
  unfold sight hider whenever
  rw [if_pos hf]
  cases isRoot <;> cases n.hidden <;> cases n.expanded <;> decide

theorem readNode_item (h : Highlight) {n : NodeView} (hf : n.isFolder = false) :
    readNode ⟨"li", [("class", "leaf" ++ hider n)]⟩
      [⟨"span", [("class", "item" ++ whenever n.tags.hasWarning " haswarn" ++
            whenever n.tags.hasError " haserr"), ("data-description", n.path)] ++
          if n.highlighted then [("style", highlightStyle h)] else []⟩] = sight h n := by
  unfold sight hider whenever
  rw [hf, if_neg Bool.false_ne_true]
  cases n.hidden <;> cases n.tags.hasWarning <;> cases n.tags.hasError <;>
    cases n.highlighted <;> rfl

/-! ### All nodes -/

section

variable {t : Tree} {s : UiState} {options : RenderOptions} {hl : Highlight} {tags : List Tag}

theorem beginTags_folder (isRoot : Bool) {n : NodeView} (hf : n.isFolder = true)
    (os : List Outline) : beginTags (outline hl isRoot (.node n os)) ++ tags =
      ⟨"li", [("class", (if isRoot then "root" else "container") ++ hider n)]⟩ ::
        ([⟨"span", [("class", "caret" ++ whenever n.expanded " caret-down")]⟩,
          ⟨"ul", [("class", "nested" ++ whenever n.expanded " active")]⟩] ++
            (beginTags (outlines hl os) ++ tags)) := by
  simp [outline, folder, hf]

theorem beginTags_item (isRoot : Bool) {n : NodeView} (hf : n.isFolder = false)
    (os : List Outline) : beginTags (outline hl isRoot (.node n os)) ++ tags =
      ⟨"li", [("class", "leaf" ++ hider n)]⟩ ::
        ([⟨"span", [("class", "item" ++ whenever n.tags.hasWarning " haswarn" ++
              whenever n.tags.hasError " haserr"), ("data-description", n.path)] ++
            if n.highlighted then [("style", highlightStyle hl)] else []⟩] ++ tags) := by
  cases hh : n.highlighted <;> simp [outline, item, hf, hh, Attribute.pair?]

theorem itemFirst_outline (isRoot : Bool) (o : Outline) :
    ItemFirst (beginTags (outline hl isRoot o) ++ tags) := by
  obtain ⟨n, os⟩ := o
  cases hf : n.isFolder with
  | true =>
    rw [beginTags_folder isRoot hf]
    rintro _ ⟨⟩
    rfl
  | false =>
    rw [beginTags_item isRoot hf]
    rintro _ ⟨⟩
    rfl

theorem itemFirst_outlines (os : List Outline) (h : ItemFirst tags) :
    ItemFirst (beginTags (outlines hl os) ++ tags) := by
  cases os with
  | nil => exact h
  | cons o os =>
    rw [outlines, Html.beginTags_append, List.append_assoc]
    exact itemFirst_outline false o

mutual
/-- **The nodes of an outline are read** as they are to look. -/
theorem readNodes_outline {id : Nat} {tags : List Tag} (isRoot : Bool) (h : ItemFirst tags) :
    (o : Outline) →
    o.Shows (.render t s options) id →
    readNodes (beginTags (outline hl isRoot o) ++ tags) = o.nodes.map (sight hl) ++ readNodes tags
  | .node n os, ho => by
    obtain ⟨hn, hos⟩ := ho
    rw [Outline.nodes, List.map_cons, List.cons_append]
    cases hf : n.isFolder with
    | true =>
      rw [beginTags_folder isRoot hf, readNodes_item rfl (by simp) (itemFirst_outlines os h),
        readNode_folder isRoot hl hf, readNodes_outlines h os hos]
    | false =>
      -- an item has nothing below it
      rw [View.children_of_item hn hf] at hos
      have hnone := Outline.eq_nil_of_showsAll_nil hos
      rw [beginTags_item isRoot hf, readNodes_item rfl (by simp) h, readNode_item hl hf, hnone]
      rfl

theorem readNodes_outlines {ids : List Nat} {tags : List Tag} (h : ItemFirst tags) :
    (os : List Outline) →
    Outline.ShowsAll (.render t s options) ids os →
    readNodes (beginTags (outlines hl os) ++ tags) =
      (Outline.nodesAll os).map (sight hl) ++ readNodes tags
  | [], _ => rfl
  | o :: os, hos => by
    cases ids with
    | nil => exact hos.elim
    | cons id ids =>
      rw [outlines, Html.beginTags_append, List.append_assoc,
        readNodes_outline false (itemFirst_outlines os h) o hos.1, readNodes_outlines h os hos.2,
        Outline.nodesAll, List.map_append, List.append_assoc]
end

/-- **The nodes of the page** are those of the view in document order. -/
theorem readNodes_report (h : t.WellFormed) (title : String) :
    readNodes (treeTags (report title (.render t s options)).toList) =
      (View.render t s options).inOrder.map (sight options.highlight) := by
  have hread : readNodes (beginTags (outline options.highlight true
      (View.render t s options).outline) ++ []) =
        (View.render t s options).outline.nodes.map (sight options.highlight) ++ readNodes [] :=
    readNodes_outline true itemFirst_nil _ (View.shows_outline h)
  rw [List.append_nil, readNodes, List.append_nil, View.nodes_outline h] at hread
  rw [treeTags_report]
  exact hread

end

/-! ## The panels -/

/-- A description panel, if the tag begins one: its id, and whether it is displayed. -/
def readPanel? (tag : Tag) : Option PanelView :=
  if tag.name = "div" ∧ tag.hasClass "description" = true then
    (tag.value? "id").map fun id => ⟨id, tag.value? "style" ≠ some "display: none;"⟩
  else none

/-- The description panels in the sidebar. -/
def readPanels (page : List Char) : List PanelView :=
  (sidebarTags page).filterMap readPanel?

/-- There is no panel where there is no `div`. -/
theorem readPanels_of_tidy {barred : List String} {hs : List Html} (h : tidy barred hs = true)
    (hdiv : "div" ∈ barred) : (beginTags hs).filterMap readPanel? = [] := by
  rw [List.filterMap_eq_nil_iff]
  intro tag htag
  refine if_neg fun hpanel => ?_
  rcases Html.name_of_mem_beginTags h htag with hname | hname
  · rw [hname] at hpanel
    exact absurd hpanel.1 (by decide)
  · exact hname (hpanel.1 ▸ hdiv)

theorem readPanels_block? (className : String) (text : Option String)
    (h : (Tag.mk "div" [("class", className)]).hasClass "description" = false) :
    (beginTags (block? className text)).filterMap readPanel? = [] := by
  cases text with
  | none => rfl
  | some text => simp [block?, readPanel?, h]

/-- The tag of a panel. -/
theorem readPanel?_panel (id : String) (visible : Bool) :
    readPanel? ⟨"div", ([Attribute.value "class" "description", Attribute.value "id" id] ++
      if visible then [] else [Attribute.value "style" "display: none;"]).filterMap
        Attribute.pair?⟩ = some ⟨id, visible⟩ := by
  cases visible <;> rfl

/-- **A panel is read** with its id, whatever stands in it. -/
theorem readPanels_panel (p : Panel) (visible : Bool) :
    (beginTags (panel p visible)).filterMap readPanel? = [⟨p.id, visible⟩] := by
  have herror := readPanels_block? "err" p.error (by decide)
  have hwarning := readPanels_block? "warn" p.parseWarning (by decide)
  have htable (heading : String) (rows : List Row) :=
    readPanels_of_tidy (tidy_table heading rows) (by simp)
  have hterm? (name : String) (description : Option String) :=
    readPanels_of_tidy (tidy_term? name description) (by simp)
  have hresult := readPanels_of_tidy (tidy_testResult p.testResult) (by simp)
  have hother {name : String} (attributes : List (String × String)) (hname : name ≠ "div") :
      readPanel? ⟨name, attributes⟩ = none := if_neg fun h => hname h.1
  rw [panel, Html.beginTags_element, List.filterMap_cons_some (readPanel?_panel p.id visible)]
  cases Text.allBlank p.description <;>
    simp [term, hother, herror, hwarning, htable, hterm?, hresult]

/-- **The panels of the page** are those of the view. -/
theorem readPanels_report {t : Tree} {s : UiState} {options : RenderOptions} (h : t.Settled)
    (title : String) : readPanels (report title (.render t s options)).toList =
      (View.render t s options).panels := by
  have hviews : (View.render t s options).panels =
      t.panels.toList.map fun p => ⟨p.id, s.selection.any (·.panelId == p.id)⟩ := rfl
  rw [readPanels, sidebarTags_report, panels, Html.beginTags_flatMap, List.filterMap_flatMap,
    hviews, List.flatMap_map]
  refine (List.flatMap_congr fun p hp => ?_).trans List.map_eq_flatMap.symm
  have hp' : (View.render t s options).tree.panel? p.id = some p :=
    h.panel?_eq_some_iff.mpr ⟨hp, rfl⟩
  simp only [hp', readPanels_panel]

/-! ## Items and panels -/

/-- The panels that are named in the tree. -/
def namedPanels (page : List Char) : List String :=
  (treeTags page).filterMap (·.value? "data-description")

/-- The ids of the panels. -/
def readPanelIds (page : List Char) : List String :=
  (readPanels page).map (·.id)

section

variable {t : Tree} {s : UiState} {options : RenderOptions}

/-- An item names the panel of its path. -/
theorem descriptions_sight (h : Highlight) {id : Nat} {n : NodeView}
    (hn : (View.render t s options).node? id = some n) :
    (sight h n).descriptions = (t.itemPath? id).toList := by
  obtain ⟨m, hm, rfl⟩ := View.node?_render_eq_some_iff.mp hn
  unfold sight Tree.itemPath?
  rw [hm]
  cases hf : m.isFolder <;> simp [View.nodeView, Node.isItem, Option.filter_some, hf]

theorem flatMap_descriptions_sight (h : Highlight) (ids : List Nat) :
    (ids.filterMap (View.render t s options).node?).flatMap (fun n => (sight h n).descriptions) =
      ids.filterMap t.itemPath? := by
  induction ids with
  | nil => rfl
  | cons id ids ih =>
    cases hn : (View.render t s options).node? id with
    | none =>
      have hnode : t.node? id = none := by simpa [View.render_node?] using hn
      have hpath : t.itemPath? id = none := by rw [Tree.itemPath?, hnode]; rfl
      rw [List.filterMap_cons_none hn, ih, List.filterMap_cons_none hpath]
    | some n =>
      rw [List.filterMap_cons_some hn, List.flatMap_cons, descriptions_sight _ hn, ih]
      cases hpath : t.itemPath? id <;> simp [hpath]

/-- **The panels that are named** are the paths of the items in document order. -/
theorem namedPanels_report (h : t.WellFormed) (title : String) :
    namedPanels (report title (.render t s options)).toList =
      t.documentOrder.filterMap t.itemPath? := by
  have hfirst : ItemFirst (treeTags (report title (.render t s options)).toList) := by
    rw [treeTags_report, ← List.append_nil (beginTags _)]
    exact itemFirst_outline true _
  -- no tag stands in front of the first list item
  have hnone : (treeTags (report title (.render t s options)).toList).takeWhile
      (·.name ≠ "li") = [] := by
    have hown := takeWhile_of_itemFirst (List.forall_mem_nil _) hfirst
    rwa [List.nil_append] at hown
  rw [namedPanels, ← flatMap_descriptions, hnone, readNodes_report h, List.flatMap_map]
  exact flatMap_descriptions_sight options.highlight t.documentOrder

/-- **The selected item has a style**, and no other node. -/
theorem styles_sight (h : t.WellFormed) (hl : Highlight) {id : Nat} {n : NodeView}
    (hn : (View.render t s options).node? id = some n) :
    (sight hl n).styles ≠ [] ↔ ∃ path, (sight hl n).descriptions = [path] ∧
      (s.selection.bind fun x => t.itemPath? x.item) = some path := by
  rw [descriptions_sight hl hn]
  obtain ⟨m, hm, rfl⟩ := View.node?_render_eq_some_iff.mp hn
  cases hf : m.isFolder with
  | true =>
    have hpath : t.itemPath? id = none := by
      simp [Tree.itemPath?, hm, Option.filter_some, Node.isItem, hf]
    simp [sight, View.nodeView, hf, hpath]
  | false =>
    have hpath : t.itemPath? id = some m.path := by
      simp [Tree.itemPath?, hm, Option.filter_some, Node.isItem, hf]
    have hselected (x : Selection) : t.itemPath? x.item = some m.path ↔ x.item = id :=
      ⟨fun hx => h.itemPath?_inj hx hpath, fun hx => hx ▸ hpath⟩
    cases hs : s.selection with
    | none => simp [sight, View.nodeView, hf, hpath, hs]
    | some x => simp [sight, View.nodeView, hf, hpath, hs, hselected]

end

/-- What a reader of the page finds in it. -/
structure Matched (t : Tree) (s : UiState) (options : RenderOptions) (page : List Char) :
    Prop where
  /-- The nodes of the tree look as the view says, in document order. -/
  nodes : readNodes (treeTags page) =
    (View.render t s options).inOrder.map (sight options.highlight)
  /-- The panels that are named are the paths of the items in document order. -/
  named : namedPanels page = t.documentOrder.filterMap t.itemPath?
  /-- The ids of the panels are the paths of the items in the order in which they were made. -/
  ids : readPanelIds page = t.itemPaths
  nodup_named : (namedPanels page).Nodup
  nodup_ids : (readPanelIds page).Nodup
  /-- The same panels are named and there. -/
  perm : (namedPanels page).Perm (readPanelIds page)
  /-- A panel that is named is there once. -/
  one_panel : ∀ path ∈ namedPanels page, (readPanelIds page).count path = 1
  /-- The panels that are displayed are the visible panels of the view. -/
  displayed : (readPanels page).filter (·.visible) = (View.render t s options).visiblePanels
  /-- A node has a style if it is the selected item. -/
  styled : ∀ look ∈ readNodes (treeTags page), look.styles ≠ [] ↔
    ∃ path, look.descriptions = [path] ∧
      (s.selection.bind fun x => t.itemPath? x.item) = some path

/-- **Items and panels match** on the page of a reachable tree. -/
theorem matched_of_reachable {t : Tree} (ht : t.Reachable) (s : UiState) (options : RenderOptions)
    (title : String) : Matched t s options (report title (.render t s options)).toList := by
  have h := ht.settled
  have hnamed : namedPanels (report title (.render t s options)).toList =
      t.documentOrder.filterMap t.itemPath? := namedPanels_report h.wellFormed title
  have hids : readPanelIds (report title (.render t s options)).toList = t.itemPaths := by
    rw [readPanelIds, readPanels_report h, ← ht.panelIds_eq]
    simp [View.render]
  have hnodup : t.itemPaths.Nodup := ht.panelIds_eq ▸ h.nodup_panelIds
  have hperm : (t.documentOrder.filterMap t.itemPath?).Perm t.itemPaths :=
    (Tree.perm_documentOrder h.wellFormed).filterMap _
  constructor
  case nodes => exact readNodes_report h.wellFormed title
  case named => exact hnamed
  case ids => exact hids
  case nodup_named => rw [hnamed]; exact hperm.nodup_iff.mpr hnodup
  case nodup_ids => rw [hids]; exact hnodup
  case perm => rw [hnamed, hids]; exact hperm
  case one_panel =>
    intro path hpath
    rw [hnamed] at hpath
    rw [hids]
    exact List.count_eq_one_of_mem hnodup (hperm.subset hpath)
  case displayed => rw [readPanels_report h]; rfl
  case styled =>
    intro look hlook
    rw [readNodes_report h.wellFormed] at hlook
    obtain ⟨n, hn, rfl⟩ := List.mem_map.mp hlook
    obtain ⟨id, -, hn⟩ := List.mem_filterMap.mp hn
    exact styles_sight h.wellFormed options.highlight hn

/-- Names with a quote and an entity, in a folder that is filled at last. -/
theorem matched_past_entities :
    let t := ((((Tree.new "r").add { name := "x/&quot;" }).1.add { name := "y/\"" }).1.add
      { name := "x/<" }).1
    let page := (report "t" (.render t { selection := some ⟨"/x/<", 5⟩ } {})).toList
    t.Reachable ∧ namedPanels page = ["/x/&quot;", "/x/<", "/y/\""] ∧
      readPanelIds page = ["/x/&quot;", "/y/\"", "/x/<"] ∧
      (readPanels page).filter (·.visible) = [⟨"/x/<", true⟩] := by
  have hr := (((Tree.reachable_new "r").step (.add _ { name := "x/&quot;" })).step
    (.add _ { name := "y/\"" })).step (.add _ { name := "x/<" })
  have hmatched := matched_of_reachable hr { selection := some ⟨"/x/<", 5⟩ } {} "t"
  refine ⟨hr, hmatched.named.trans ?_, hmatched.ids.trans ?_, hmatched.displayed.trans ?_⟩ <;>
    decide +kernel

end Page

end EntryReport
