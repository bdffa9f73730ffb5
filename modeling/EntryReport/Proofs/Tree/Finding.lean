import EntryReport.Proofs.Tree.Building

/-!
# Finding nodes and panels

A path is an address of a node: `find?` takes it apart into names, and the names are those on the
way down to one node only. The path that a node keeps is one of its addresses, and so is each
spelling of it with more slashes. The panel of an item is found under the path that the item keeps,
and under that spelling only.

* `addressed_of_reachable`: this holds of all reachable trees.
-/

namespace EntryReport

namespace Tree

variable {t t' : Tree} {e : Entry} {id : Nat} {n : Node} {path : String}

/-! ## Nodes -/

/-- The path that a node keeps leads to it. -/
theorem WellFormed.find?_path (h : t.WellFormed) (hn : t.node? id = some n) :
    t.find? n.path = some id := by
  have hid := lt_size_of_node? hn
  rw [h.find?_eq_some_iff, h.path_of_node? hn, segments_pathOf (h.isName_of_mem_trail hid)]
  exact ⟨hid, rfl⟩

/-- Paths with the same names lead to the same node. -/
theorem find?_congr {a b : String} (h : segments a = segments b) : t.find? a = t.find? b := by
  rw [find?_eq_follow, find?_eq_follow, h]

/-- The name of an entry leads to the item that it has become. -/
theorem Added.find? (h : Added t t' e id) : t'.find? e.name = some id :=
  h.wellFormed.find?_eq_some_iff.mpr ⟨lt_size_of_isItem h.isItem, h.trail⟩

/-! ## Panels -/

/-- An item has a panel, which has the path of the item. -/
theorem Settled.panelOf?_of_isItem (h : t.Settled) (hn : t.node? id = some n)
    (hi : n.isItem = true) :
    ∃ d, t.panelOf? id = some d ∧ d ∈ t.panels.toList ∧ d.id = n.path := by
  obtain ⟨name, path, parent, children | ⟨tags, i⟩⟩ := n
  · exact absurd hi (by simp [Node.isItem, Node.isFolder])
  · obtain ⟨d, hd, hid, -⟩ := h.described.panel (bare?_of_node? hn) (Node.kind_bare.mpr rfl)
    rw [Node.path_bare] at hid
    refine ⟨d, ?_, List.mem_of_getElem? (by rwa [Array.getElem?_toList]), hid⟩
    unfold panelOf?
    rw [hn]
    exact hd

/-- The panel with the path of an item is the panel of the item. -/
theorem Settled.panel?_path (h : t.Settled) (hn : t.node? id = some n) (hi : n.isItem = true) :
    t.panel? n.path = t.panelOf? id := by
  obtain ⟨d, hd, hmem, hid⟩ := h.panelOf?_of_isItem hn hi
  rw [hd, h.panel?_eq_some_iff]
  exact ⟨hmem, hid⟩

/-- There is a panel with a text for its id if the text is the path of an item. -/
theorem Settled.isSome_panel?_iff (h : t.Settled) {s : String} : (t.panel? s).isSome = true ↔
    ∃ id n, t.node? id = some n ∧ n.isItem = true ∧ n.path = s := by
  constructor
  · intro hsome
    obtain ⟨d, hd⟩ := Option.isSome_iff_exists.mp hsome
    obtain ⟨hmem, rfl⟩ := h.panel?_eq_some_iff.mp hd
    obtain ⟨i, hi⟩ := List.mem_iff_getElem?.mp hmem
    obtain ⟨id, m, tags, hm, hk, hpath⟩ := h.item_of_panel hi
    obtain ⟨n, hn, rfl⟩ := node?_of_bare? hm
    refine ⟨id, n, hn, ?_, by rw [hpath, h.wellFormed.path_of_node? hn]⟩
    rw [← Node.isItem_bare]
    simp [Node.isItem, Node.isFolder, hk]
  · rintro ⟨id, n, hn, hi, rfl⟩
    obtain ⟨d, hd, -, -⟩ := h.panelOf?_of_isItem hn hi
    rw [h.panel?_path hn hi, hd]
    rfl

/-- An entry of the tree is an item with the panel of the entry. -/
theorem Holds.exists_item_of_mem {r : String} {es : List Entry} (h : t.Holds r es) (he : e ∈ es) :
    ∃ id n, t.node? id = some n ∧ n.isItem = true ∧ n.path = pathOf (segments e.name) ∧
      t.panelOf? id = some e.panel := by
  obtain ⟨id, n, hn, hi, hpath⟩ := (h.mem_items _).mpr ⟨e, he, rfl⟩
  refine ⟨id, n, hn, hi, hpath, ?_⟩
  rw [← h.settled.panel?_path hn hi, h.settled.panel?_eq_some_iff, h.panels]
  exact ⟨List.mem_map_of_mem he, hpath.symm⟩

/-! ## What holds of all reachable trees -/

/-- Paths are addresses of nodes, and those of items are ids of panels. -/
structure Addressed (t : Tree) : Prop where
  /-- A path leads to the node with its names on the way down. -/
  find : ∀ path id, t.find? path = some id ↔ id < t.size ∧ segments path = t.trail id
  /-- A node is found under its own path. -/
  own_path : ∀ {id n}, t.node? id = some n → t.find? n.path = some id
  /-- A slash in front does not matter. -/
  leading : ∀ path, t.find? ("/" ++ path) = t.find? path
  /-- A slash at the end does not matter. -/
  trailing : ∀ path, t.find? (path ++ "/") = t.find? path
  /-- One more slash at a slash does not matter. -/
  doubled : ∀ a b, t.find? (a ++ "/" ++ "/" ++ b) = t.find? (a ++ "/" ++ b)
  /-- What has been added is found under the name that it was given. -/
  added : ∀ {e t' id}, t.add e = (t', .ok id) → t'.find? e.name = some id
  /-- A text is the id of a panel if it is the path of an item, to the letter. -/
  panel : ∀ s, (t.panel? s).isSome = true ↔
    ∃ id n, t.node? id = some n ∧ n.isItem = true ∧ n.path = s
  /-- It is then the panel of that item. -/
  own_panel : ∀ {id n}, t.node? id = some n → n.isItem = true → t.panel? n.path = t.panelOf? id

/-- **Finding undoes what paths are made of**, after any sequence of operations. -/
theorem addressed_of_reachable (hr : Reachable t) : t.Addressed := by
  have h := hr.settled
  constructor
  case find =>
    intro path id
    rw [h.wellFormed.find?_eq_some_iff, eq_comm (a := segments path)]
  case own_path => exact fun hn => h.wellFormed.find?_path hn
  case leading =>
    intro path
    refine find?_congr ?_
    have hsplit := segments_append_slash "" path
    rwa [String.empty_append, segments_empty, List.nil_append] at hsplit
  case trailing =>
    intro path
    refine find?_congr ?_
    have hsplit := segments_append_slash path ""
    rwa [String.append_empty, segments_empty, List.append_nil] at hsplit
  case doubled =>
    intro a b
    refine find?_congr ?_
    have hsplit := segments_append_slash a ""
    rw [String.append_empty, segments_empty, List.append_nil] at hsplit
    rw [segments_append_slash, hsplit, segments_append_slash]
  case added =>
    intro e t' id hadd
    rcases h.add_cases e with ⟨err, hfail⟩ | ⟨t₁, id₁, ha, hok⟩
    · rw [hadd] at hfail
      exact absurd (congrArg Prod.snd hfail) (by simp)
    · rw [hadd, Prod.mk.injEq, Except.ok.injEq] at hok
      obtain ⟨rfl, rfl⟩ := hok
      exact ha.find?
  case panel => exact fun s => h.isSome_panel?_iff
  case own_panel => exact fun hn hi => h.panel?_path hn hi

/-- An item in a folder that was there, under another spelling of its path. -/
theorem found_as_spelled :
    Reachable ((new "r").add { name := "a/b" }).1 ∧
    (((new "r").add { name := "a/b" }).1.add { name := "/a//c/" }).1.find? "/a//c/" = some 3 := by
  have hr := (reachable_new "r").step (.add _ { name := "a/b" })
  have hadd : (((new "r").add { name := "a/b" }).1.add { name := "/a//c/" }).2 = .ok 3 := rfl
  exact ⟨hr, (addressed_of_reachable hr).added (Prod.ext rfl hadd)⟩

end Tree

end EntryReport
