import EntryReport.Proofs.Report.Words
import EntryReport.Proofs.Tree.Panels
import EntryReport.Proofs.Tree.Preorder

/-!
# The page of a tree

The tags of a page are those that the tree asks for, whatever the words in it are: a list item for
each node, nested as the nodes are (`itemDepths_body`), and a description panel for each item
(`perm_panelIds_body`). `faithful_of_reachable` says this of all reachable trees.
-/

namespace EntryReport

namespace Page

open Html (bareTags tokensAll panelIds tidy)
open Markup (Balanced Token itemDepths tags)

variable {t : Tree} {s : UiState} {options : RenderOptions} {hl : Highlight} {isRoot : Bool}
  {n : NodeView} {id limit : Nat}

/-! ## List items -/

theorem itemDepths_folder (children : List Html) (depth : Nat) (tags : List (List Char)) :
    itemDepths depth (bareTags [folder isRoot n children] ++ tags) =
      depth :: itemDepths (depth + 1)
        (bareTags children ++ "/ul".toList :: "/li".toList :: tags) := by
  simp [folder, itemDepths, Markup.name]

theorem itemDepths_item (depth : Nat) (tags : List (List Char)) :
    itemDepths depth (bareTags [item hl n] ++ tags) = depth :: itemDepths depth tags := by
  cases hh : n.highlighted <;> simp [item, hh, itemDepths, Markup.name, Attribute.bare]

/-- A node takes one list item, which holds those of its children if it is a folder. -/
theorem itemDepths_node (children : List Outline) (depth : Nat) (tags : List (List Char)) :
    itemDepths depth (bareTags (outline hl isRoot (.node n children)) ++ tags) =
      depth :: if n.isFolder then itemDepths (depth + 1)
          (bareTags (outlines hl children) ++ "/ul".toList :: "/li".toList :: tags)
        else itemDepths depth tags := by
  have hone (h : Html) : bareTags [h, .text "\n"] = bareTags [h] := by
    rw [← List.singleton_append, Html.bareTags_append]
    exact List.append_nil _
  rw [outline, hone]
  by_cases hf : n.isFolder = true
  · rw [if_pos hf, if_pos hf, itemDepths_folder]
  · rw [if_neg hf, if_neg hf, itemDepths_item]

/-- The end of a folder. -/
theorem itemDepths_end (depth : Nat) (tags : List (List Char)) :
    itemDepths (depth + 1) ("/ul".toList :: "/li".toList :: tags) = itemDepths depth tags := by
  simp [itemDepths, Markup.name]

/-- **One list item a node**, nested as the nodes are. -/
theorem itemDepths_outline (h : t.WellFormed) (hn : (View.render t s options).node? id = some n)
    (tags : List (List Char)) :
    itemDepths (t.depth id)
        (bareTags (outline hl isRoot ((View.render t s options).outlineFrom limit n)) ++ tags) =
      (t.preorder limit id).map t.depth ++ itemDepths (t.depth id) tags := by
  -- on the levels below the node, for whatever tags follow it
  induction limit generalizing id n isRoot tags with
  | zero =>
    rw [View.outlineFrom, itemDepths_node]
    by_cases hf : n.isFolder = true
    · rw [if_pos hf, outlines, Html.bareTags_nil, List.nil_append, itemDepths_end]
      rfl
    · rw [if_neg hf]
      rfl
  | succ limit ih =>
    obtain ⟨m, hm, rfl⟩ := Option.map_eq_some_iff.mp (View.render_node?.symm.trans hn)
    have hkids (cs : List Nat) (hcs : ∀ c ∈ cs, c ∈ t.childrenOf id) (tags : List (List Char)) :
        itemDepths (t.depth id + 1) (bareTags (outlines hl
            ((cs.filterMap (View.render t s options).node?).map
              ((View.render t s options).outlineFrom limit))) ++ tags) =
          (cs.flatMap (t.preorder limit)).map t.depth ++ itemDepths (t.depth id + 1) tags := by
      induction cs with
      | nil => rfl
      | cons c cs ihcs =>
        rw [List.forall_mem_cons] at hcs
        obtain ⟨k, hk⟩ := Tree.node?_eq_some_iff.mpr (h.lt_size_of_mem_children hcs.1)
        have hc : (View.render t s options).node? c = some _ :=
          View.render_node?.trans (congrArg (Option.map _) hk)
        have hdepth := h.depth_child hcs.1
        rw [List.filterMap_cons_some hc, List.map_cons, outlines, Html.bareTags_append,
          List.append_assoc, ← hdepth, ih hc, hdepth, ihcs hcs.2, List.flatMap_cons,
          List.map_append, List.append_assoc]
    have hchildren : (View.nodeView s (t.hidden s.criteria options.emptyFolders) id m).children =
        t.childrenOf id := (Tree.childrenOf_of_node? hm).symm
    rw [View.outlineFrom, itemDepths_node, View.childrenOf, hchildren, Tree.preorder, List.map_cons,
      List.cons_append]
    by_cases hf : m.isFolder = true
    · rw [if_pos (show (View.nodeView _ _ _ m).isFolder = true from hf),
        hkids _ (fun c hc => hc), itemDepths_end]
    · have hnone : t.childrenOf id = [] := by
        rw [Tree.childrenOf_of_node? hm]
        exact Node.children_of_not_isFolder hf
      rw [if_neg (show ¬ (View.nodeView _ _ _ m).isFolder = true from hf), hnone]
      rfl

/-- The list items of the page are the nodes, each before its children. -/
theorem itemDepths_body (h : t.WellFormed) (title : String) :
    itemDepths 0 (bareTags [body title (.render t s options)]) =
      (t.preorder t.size Tree.root).map t.depth := by
  have hskip {hs : List Html} (htidy : tidy ["script", "li"] hs = true) (depth : Nat)
      (tags : List (List Char)) : itemDepths depth (bareTags hs ++ tags) = itemDepths depth tags :=
    Token.itemDepths_tokens htidy (by simp) depth tags
  have hheader := hskip
    (Html.tidy_mono (by simp) (tidy_header title (View.render t s options).summary))
  have hcontrols := hskip (tidy_controls (View.render t s options).criteria)
  have hpanels := hskip (tidy_panels (.render t s options))
  have hroot : (View.render t s options).node? Tree.root = some _ := View.node?_root _
  have houtline (tags : List (List Char)) : itemDepths (t.depth Tree.root)
      (bareTags (outline options.highlight true ((View.render t s options).outlineFrom t.size
        (View.render t s options).root)) ++ tags) =
      (t.preorder t.size Tree.root).map t.depth ++ itemDepths (t.depth Tree.root) tags :=
    itemDepths_outline h hroot tags
  have hcolours : (View.render t s options).highlight = options.highlight := rfl
  rw [h.depth_root] at houtline
  rw [bareTags_body_eq, View.outline, View.size_render, hcolours]
  simp [itemDepths, Markup.name, hheader, hcontrols, houtline, hpanels]

/-! ## Panels -/

theorem panelIds_block? (className : String) (text : Option String) :
    panelIds (block? className text) = [] := by
  cases text with
  | none => rfl
  | some text => simp [block?, Html.classed]

theorem panelId?_opening (p : Panel) (as : List Attribute) :
    (Token.opening "div" (.value "class" "description" :: .value "id" p.id :: as)).panelId? =
      some (Html.escapeChars p.id.toList) := by
  have hclass : Html.escapeChars "description".toList = "description".toList := by decide
  have hwritten : (Attribute.value "class" "description" :: .value "id" p.id :: as).filterMap
      Attribute.written? = Html.escapeChars "description".toList ::
        Html.escapeChars p.id.toList :: as.filterMap Attribute.written? := rfl
  rw [Token.panelId?, hwritten]
  exact if_pos ⟨rfl, hclass⟩

/-- A panel has one id. -/
theorem panelIds_panel (p : Panel) (visible : Bool) :
    panelIds (panel p visible) = [Html.escapeChars p.id.toList] := by
  have htable (heading : String) (rows : List Row) :=
    Html.panelIds_of_tidy (tidy_table heading rows) (by simp)
  have hterm? (name : String) (description : Option String) :=
    Html.panelIds_of_tidy (tidy_term? name description) (by simp)
  have hresult := Html.panelIds_of_tidy (tidy_testResult p.testResult) (by simp)
  rw [panel, Html.panelIds_element, List.cons_append, List.cons_append, panelId?_opening]
  cases Text.allBlank p.description <;>
    simp [term, htable, hterm?, hresult, panelIds_block?, Html.classed]

theorem panelIds_controls (c : Criteria) : panelIds [controls c] = [] := by
  simp [controls, checkbox, Html.classed]

/-- The panels of the page are those of the tree. -/
theorem panelIds_panels (h : t.Settled) : panelIds (panels (.render t s options)) =
    t.panels.toList.map fun p => Html.escapeChars p.id.toList := by
  have hviews : (View.render t s options).panels =
      t.panels.toList.map fun p => ⟨p.id, s.selection.any (·.panelId == p.id)⟩ := rfl
  rw [panels, hviews, Html.panelIds_flatMap, List.flatMap_map]
  refine (List.flatMap_congr fun p hp => ?_).trans List.map_eq_flatMap.symm
  have hp' : (View.render t s options).tree.panel? p.id = some p :=
    h.panel?_eq_some_iff.mpr ⟨hp, rfl⟩
  simp only [hp', panelIds_panel]

theorem panelIds_body (h : t.Settled) (title : String) :
    panelIds [body title (.render t s options)] =
      t.panels.toList.map fun p => Html.escapeChars p.id.toList := by
  have houtline := Html.panelIds_of_tidy (tidy_outline (View.render t s options).highlight true
    (View.render t s options).outline) (by simp)
  rw [panelIds_body_eq, panelIds_controls, houtline, panelIds_panels h]
  rfl

/-- **One description panel an item**: the ids are the paths of the items. -/
theorem perm_panelIds_body (h : t.Settled) (title : String) :
    (panelIds [body title (.render t s options)]).Perm
      (t.items.filterMap fun id => (t.node? id).map fun n => Html.escapeChars n.path.toList) := by
  have hperm := h.perm_panels.filterMap (Option.map fun d => Html.escapeChars d.id.toList)
  have hpanels : (t.panels.toList.map some).filterMap
      (Option.map fun d => Html.escapeChars d.id.toList) =
      t.panels.toList.map fun d => Html.escapeChars d.id.toList := by
    rw [List.filterMap_map, ← List.filterMap_eq_map]
    rfl
  have hitems : (t.items.map t.panelOf?).filterMap
      (Option.map fun d => Html.escapeChars d.id.toList) =
      t.items.filterMap fun id => (t.node? id).map fun n => Html.escapeChars n.path.toList := by
    rw [List.filterMap_map]
    refine List.filterMap_congr fun id hid => ?_
    have hi := (Tree.mem_items h.wellFormed).mp hid
    obtain ⟨n, hn⟩ := Tree.node?_eq_some_iff.mpr (Tree.lt_size_of_isItem hi)
    obtain ⟨d, hd, -, hpath⟩ := h.panelOf?_of_isItem hn (by rwa [Tree.isItem_of_node? hn] at hi)
    rw [Function.comp_apply, hd, hn, Option.map_some, Option.map_some, hpath]
  rw [panelIds_body h, ← hpanels, ← hitems]
  exact hperm.symm

/-! ## The whole page -/

/-- In the part that depends on the view, the tags of the page are those that the tree asks for. -/
structure Faithful (t : Tree) (v : View) (title : String) : Prop where
  /-- Every element ends, and inside the one it was begun in. -/
  balanced : Balanced (tags (viewPart (report title v).toList))
  /-- The list items are as deep as the nodes of the tree, a node before its children. -/
  listItems : itemDepths 0 (tags (viewPart (report title v).toList)) =
    (t.preorder t.size Tree.root).map t.depth
  /-- These are all nodes, each once. -/
  nodes : (t.preorder t.size Tree.root).Perm (List.range t.size)
  /-- The description panels have the paths of the items for ids. -/
  panels : (Markup.panelIds (viewPart (report title v).toList)).Perm
    (t.items.filterMap fun id => (t.node? id).map fun n => Html.escapeChars n.path.toList)
  /-- Words have no part in the tags. -/
  words : ∀ {w : View} (title' : String), v.SameForm w →
    tags (viewPart (report title v).toList) = tags (viewPart (report title' w).toList)

/-- **No text adds markup to a page**, neither a name nor a title nor what stands in a panel. -/
theorem faithful_of_reachable (hr : Tree.Reachable t) (s : UiState) (options : RenderOptions)
    (title : String) : Faithful t (.render t s options) title where
  balanced := balanced_viewPart title _
  listItems := by
    rw [tags_viewPart]
    exact itemDepths_body hr.settled.wellFormed title
  nodes := hr.settled.wellFormed.perm_preorder
  panels := by
    rw [panelIds_viewPart]
    exact perm_panelIds_body hr.settled title
  words title' h := by
    rw [tags_viewPart, tags_viewPart]
    exact bareTags_body h title title'

/-- Names and a title full of markup make no other tags than plain ones. -/
theorem faithful_to_hostile :
    Tree.Reachable ((Tree.new "<li>").add { name := "<b>/\"><script>" }).1 ∧
    Faithful ((Tree.new "<li>").add { name := "<b>/\"><script>" }).1
      (.render ((Tree.new "<li>").add { name := "<b>/\"><script>" }).1 .new {}) "<body>" ∧
    tags (viewPart (report "<body>"
      (.render ((Tree.new "<li>").add { name := "<b>/\"><script>" }).1 .new {})).toList) =
      tags (viewPart (report ""
        (.render ((Tree.new "r").add { name := "a/b" }).1 .new {})).toList) := by
  have hr := (Tree.reachable_new "<li>").step (.add _ { name := "<b>/\"><script>" })
  have hfaithful := faithful_of_reachable hr .new {} "<body>"
  have hform : View.SameForm
      (.render ((Tree.new "<li>").add { name := "<b>/\"><script>" }).1 .new {})
      (.render ((Tree.new "r").add { name := "a/b" }).1 .new {}) := by decide +kernel
  exact ⟨hr, hfaithful, hfaithful.words "" hform⟩

end Page

end EntryReport
