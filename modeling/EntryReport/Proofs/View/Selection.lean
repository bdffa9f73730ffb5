import EntryReport.Proofs.State.Session
import EntryReport.Proofs.Tree.Panels
import EntryReport.Proofs.View.Render

/-!
# What a view shows of the selection

A selection names a panel by its id and an item by its index, and the two need not belong together.
The item is highlighted (`highlighted_of_some`); the panel is visible if the tree has it
(`visiblePanels_of_some`), and no two panels have the same id.

`Session.shown_of_moves` says this of all sessions. What has been selected by its path shows its own
panel, and goes on showing it until another operation sets or clears the selection, because a node
keeps its index and its path while the tree grows (`Owns.afterAll`). An operation that fails does
neither, whatever it was to select (`Fits.selection_after`).
-/

namespace EntryReport

namespace View

variable {t : Tree} {s : UiState} {options : RenderOptions} {x : Selection} {n : Node}

/-! ## Highlighted nodes -/

/-- Whether a node is highlighted is decided by its index. -/
theorem highlighted_render : (render t s options).highlighted =
    ((List.range t.size).filter fun id => s.selection.any (·.item == id)).filterMap
      (render t s options).node? := by
  unfold highlighted
  rw [← filterMap_range, size_render, List.filter_filterMap, List.filterMap_filter]
  congr 1
  funext id
  rw [render_node?]
  cases t.node? id with
  | none => simp
  | some n => simp [Option.filter, nodeView]

/-- Without a selection no node is highlighted. -/
theorem highlighted_of_none (hs : s.selection = none) : (render t s options).highlighted = [] := by
  rw [highlighted_render, hs]
  simp

/-- **The selected item is highlighted**, and no other node. -/
theorem highlighted_of_some (hs : s.selection = some x) (hn : t.node? x.item = some n) :
    (render t s options).highlighted =
      [nodeView s (t.hidden s.criteria options.emptyFolders) x.item n] := by
  have hmem : x.item ∈ List.range t.size := List.mem_range.mpr (Tree.lt_size_of_node? hn)
  have hfilter : ((List.range t.size).filter fun id => s.selection.any (·.item == id)) =
      [x.item] := by
    simp only [hs, Option.any_some, Bool.beq_comm (a := x.item)]
    rw [List.filter_beq, List.count_eq_one_of_mem List.nodup_range hmem, List.replicate_one]
  rw [highlighted_render, hfilter, List.filterMap_cons, render_node?, hn]
  rfl

/-! ## Visible panels -/

/-- The panels that are visible. -/
def visiblePanels (v : View) : List PanelView := v.panels.filter (·.visible)

/-- Without a selection no panel is visible. -/
theorem visiblePanels_of_none (hs : s.selection = none) :
    (render t s options).visiblePanels = [] := by
  unfold visiblePanels render
  rw [hs]
  simp

/-- **The panel of the selection is visible** if the tree has it, and no other panel. -/
theorem visiblePanels_of_some (h : t.Settled) (hs : s.selection = some x) :
    (render t s options).visiblePanels =
      if x.panelId ∈ t.panels.toList.map (·.id) then [⟨x.panelId, true⟩] else [] := by
  have hids : (render t s options).visiblePanels =
      ((t.panels.toList.map (·.id)).filter (· == x.panelId)).map (⟨·, true⟩) := by
    unfold visiblePanels render
    rw [hs, List.filter_map, List.filter_map, List.map_map]
    simp only [Option.any_some, Function.comp_def, Bool.beq_comm (a := x.panelId)]
    refine List.map_congr_left fun p hp => ?_
    rw [(List.mem_filter.mp hp).2]
  rw [hids, List.filter_beq, h.nodup_panelIds.count]
  split <;> rfl

/-- There is no panel to be shown exactly if no panel is visible. -/
theorem visiblePanel?_eq_none_iff (h : t.Settled) : (render t s options).visiblePanel? = none ↔
    (render t s options).visiblePanels = [] := by
  rw [visiblePanel?_render]
  cases hs : s.selection with
  | none => exact iff_of_true rfl (visiblePanels_of_none hs)
  | some x =>
    rw [visiblePanels_of_some h hs, Option.bind_some, ← Option.not_isSome_iff_eq_none,
      h.isSome_panel?_iff, ← h.mem_panelIds_iff]
    split <;> simp [*]

end View

/-! ## Sessions -/

namespace UiCommand

/-- The command is one that sets the selection or clears it, if it succeeds. -/
def selects : UiCommand → Bool
  | select _ _ => true
  | unindexed (.selectPath _) => true
  | unindexed .clearSelection => true
  | _ => false

/-- Any other command keeps the selection. -/
theorem run_selection {t : Tree} {s : UiState} {c : UiCommand} (hc : c.selects = false) :
    (c.run t s).1.selection = s.selection := by
  cases c with
  | toggle folder =>
    simp only [run, UiState.toggle]
    split
    · rfl
    · split <;> rfl
  | reveal id =>
    simp only [run, UiState.reveal]
    split <;> rfl
  | select panelId item => exact absurd hc (by simp [selects])
  | unindexed o =>
    cases o with
    | expandPath path =>
      simp only [run, Operation.run, UiState.expandPath, UiState.reveal]
      split
      · rfl
      · split
        · next herr => split at herr <;> cases herr; rfl
        · next hok =>
          split at hok
          · cases hok
          · cases hok
            split <;> rfl
    | selectPath path => exact absurd hc (by simp [selects])
    | clearSelection => exact absurd hc (by simp [selects])
    | expandAll => rfl
    | collapseAll => rfl
    | setCriteria criteria => rfl

end UiCommand

namespace Session

variable {x : Session} {id : Nat} {path : String} {moves : List Move} {options : RenderOptions}

/-- What the reader sees. -/
def view (x : Session) (options : RenderOptions) : View := .render x.tree x.state options

/-- An operation leaves all nodes and panels of the tree where they are. -/
theorem Fits.extends_after (h : x.Fits) (move : Move) :
    Tree.Extends x.tree (x.after move).tree := by
  cases move with
  | add e => exact h.settled.extends_add e
  | sort => exact Tree.extends_sort
  | command c => exact Tree.Extends.refl _

/-- The operation sets the selection or clears it; one that fails does neither. -/
def SetsSelection (x : Session) : Move → Prop
  | .command c => c.selects = true ∧ (c.run x.tree x.state).2 = .ok ()
  | _ => False

/-- No operation of a run sets or clears the selection. -/
def LeavesSelection (x : Session) : List Move → Prop
  | [] => True
  | move :: moves => ¬ x.SetsSelection move ∧ (x.after move).LeavesSelection moves

/-- Any other operation keeps the selection: it is about something else, or it fails. -/
theorem Fits.selection_after (h : x.Fits) {move : Move} (hm : ¬ x.SetsSelection move) :
    (x.after move).state.selection = x.state.selection := by
  cases move with
  | add e => rfl
  | sort => rfl
  | command c =>
    show (c.run x.tree x.state).1.selection = x.state.selection
    cases hc : c.selects with
    | false => exact UiCommand.run_selection hc
    | true =>
      cases hrun : (c.run x.tree x.state).2 with
      | ok _ => exact absurd ⟨hc, hrun⟩ hm
      | error err => rw [UiCommand.unchanged_of_error h.settled.wellFormed _ _ hrun]

/-- An item is selected together with the panel of its path. -/
def Owns (x : Session) (id : Nat) : Prop :=
  ∃ n, x.tree.node? id = some n ∧ n.isItem = true ∧ x.state.selection = some ⟨n.path, id⟩

/-- A path that is selected selects the panel of its item. -/
theorem owns_selectPath (hok : (x.state.selectPath x.tree path).2 = .ok id) :
    (x.after (.command (.unindexed (.selectPath path)))).Owns id := by
  have hafter : x.after (.command (.unindexed (.selectPath path))) =
      { x with state := (x.state.selectPath x.tree path).1 } := rfl
  rw [hafter]
  cases hf : x.tree.find? path with
  | none =>
    rw [x.state.selectPath_of_none hf] at hok
    exact absurd hok (by simp)
  | some found =>
    cases hn : x.tree.node? found with
    | none =>
      unfold UiState.selectPath at hok
      simp only [hf, hn, Option.bind_some, Option.map_none] at hok
      exact absurd hok (by simp)
    | some n =>
      rw [x.state.selectPath_of_some hf hn] at hok ⊢
      by_cases hi : n.isItem = true
      · rw [if_pos hi] at hok ⊢
        cases hok
        exact ⟨n, hn, hi, rfl⟩
      · rw [if_neg hi] at hok
        exact absurd hok (by simp)

/-- **One operation** that does not set the selection leaves it with its own panel. -/
theorem Owns.after (ho : x.Owns id) (h : x.Fits) {move : Move} (hm : ¬ x.SetsSelection move) :
    (x.after move).Owns id := by
  obtain ⟨n, hn, hi, hs⟩ := ho
  obtain ⟨m, hm', hbare⟩ := Tree.node?_of_bare?
    ((h.extends_after move).bare?_eq (Tree.bare?_of_node? hn))
  have hpath : m.path = n.path := by rw [← Node.path_bare, hbare, Node.path_bare]
  have hitem : m.isItem = n.isItem := by rw [← Node.isItem_bare, hbare, Node.isItem_bare]
  exact ⟨m, hm', by rw [hitem, hi], by rw [hpath, h.selection_after hm, hs]⟩

/-- **A run of operations** that do not set the selection leaves it with its own panel. -/
theorem Owns.afterAll (ho : x.Owns id) (h : x.Fits) (hm : x.LeavesSelection moves) :
    (x.afterAll moves).Owns id := by
  induction moves generalizing x with
  | nil => exact ho
  | cons move moves ih => exact ih (ho.after h hm.1) (h.after move) hm.2

/-- The item is the one node that is highlighted, and its panel the one panel that is visible. -/
structure ShowsItem (x : Session) (options : RenderOptions) (id : Nat) : Prop where
  highlighted : (x.view options).highlighted.map (·.id) = [id]
  panel : ∃ d, x.tree.panelOf? id = some d ∧ (x.view options).visiblePanel? = some d ∧
    (x.view options).visiblePanels = [⟨d.id, true⟩]

/-- An item that is selected with its own panel is shown with it. -/
theorem Owns.showsItem (ho : x.Owns id) (h : x.Fits) : x.ShowsItem options id := by
  obtain ⟨n, hn, hi, hs⟩ := ho
  obtain ⟨d, hd, hmem, hid⟩ := h.settled.panelOf?_of_isItem hn hi
  constructor
  case highlighted =>
    unfold view
    rw [View.highlighted_of_some hs hn]
    rfl
  case panel =>
    refine ⟨d, hd, ?_, ?_⟩
    · unfold view
      rw [View.visiblePanel?_render, hs, Option.bind_some, h.settled.panel?_path hn hi, hd]
    · unfold view
      rw [View.visiblePanels_of_some h.settled hs, if_pos (List.mem_map.mpr ⟨d, hmem, hid⟩), hid]

/-- What is shown of the selection. -/
structure Shown (x : Session) (options : RenderOptions) : Prop where
  /-- If nothing is selected, no node is highlighted and no panel is visible. -/
  nothing : x.state.selection = none → (x.view options).highlighted = [] ∧
    (x.view options).visiblePanels = [] ∧ (x.view options).visiblePanel? = none
  /-- What is selected is the one node that is highlighted, and it is an item. -/
  item : ∀ {s}, x.state.selection = some s → ∃ n, (x.view options).highlighted = [n] ∧
    (x.view options).node? s.item = some n ∧ n.id = s.item ∧ n.isFolder = false
  /-- If the panel has the path of an item for its id, it is the one that is visible. -/
  panel : ∀ {s id n}, x.state.selection = some s → x.tree.node? id = some n → n.isItem = true →
    n.path = s.panelId → (x.view options).visiblePanels = [⟨s.panelId, true⟩] ∧
      ∃ d ∈ x.tree.panels.toList, (x.view options).visiblePanel? = some d ∧ d.id = s.panelId
  /-- Otherwise no panel is visible. -/
  no_panel : ∀ {s}, x.state.selection = some s →
    (¬ ∃ id n, x.tree.node? id = some n ∧ n.isItem = true ∧ n.path = s.panelId) →
      (x.view options).visiblePanels = [] ∧ (x.view options).visiblePanel? = none
  /-- An item that is selected by its path is shown with its own panel, after all that follows and
  does not set or clear the selection. -/
  own_panel : ∀ {path id later}, (x.state.selectPath x.tree path).2 = .ok id →
    (x.after (.command (.unindexed (.selectPath path)))).LeavesSelection later →
      ((x.after (.command (.unindexed (.selectPath path)))).afterAll later).ShowsItem options id

/-- **At most one panel and one highlight**, after any operations and with any options. -/
theorem shown_of_moves (rootName : String) (moves : List Move) (options : RenderOptions) :
    ((new rootName).afterAll moves).Shown options := by
  have h := (fits_new rootName).afterAll moves
  constructor
  case nothing =>
    intro hs
    refine ⟨View.highlighted_of_none hs, View.visiblePanels_of_none hs, ?_⟩
    unfold view
    rw [View.visiblePanel?_render, hs]
    rfl
  case item =>
    intro s hs
    have hi := h.selection hs
    obtain ⟨n, hn⟩ := Tree.node?_eq_some_iff.mpr (Tree.lt_size_of_isItem hi)
    refine ⟨_, View.highlighted_of_some hs hn, ?_, rfl, ?_⟩
    · unfold view
      rw [View.render_node?, hn]
      rfl
    · rw [Tree.isItem_of_node? hn] at hi
      have hfolder : n.isFolder = false := by simpa [Node.isItem] using hi
      exact hfolder
  case panel =>
    intro s id n hs hn hi hpath
    obtain ⟨d, hd, hmem, hid⟩ := h.settled.panelOf?_of_isItem hn hi
    have hown : d.id = s.panelId := hid.trans hpath
    constructor
    · unfold view
      rw [View.visiblePanels_of_some h.settled hs, if_pos (List.mem_map.mpr ⟨d, hmem, hown⟩)]
    · refine ⟨d, hmem, ?_, hown⟩
      unfold view
      rw [View.visiblePanel?_render, hs, Option.bind_some, ← hpath, h.settled.panel?_path hn hi, hd]
  case no_panel =>
    intro s hs hno
    constructor
    · unfold view
      rw [View.visiblePanels_of_some h.settled hs, if_neg (h.settled.mem_panelIds_iff.not.mpr hno)]
    · unfold view
      rw [View.visiblePanel?_render, hs, Option.bind_some, ← Option.not_isSome_iff_eq_none,
        h.settled.isSome_panel?_iff]
      exact hno
  case own_panel =>
    intro path id later hok hlater
    have hfits := h.after (.command (.unindexed (.selectPath path)))
    exact ((owns_selectPath hok).afterAll hfits hlater).showsItem (hfits.afterAll later)

end Session

end EntryReport
