import EntryReport.Proofs.State.Operations
import EntryReport.Proofs.Tree.Ancestors
import EntryReport.Proofs.Tree.Reachable
import EntryReport.Proofs.Tree.Traversal

/-!
# Sessions

In a `Session` the tree grows and is sorted, and the state refers to its nodes by their indices. A
`Move` is any operation on either of the two; a `UiCommand` is one on the state, which also may name
a node by an index that is not in the tree.

* `UiCommand.Refused`: when a command fails, and how;
* `UiCommand.run_cases`: a command is refused and leaves the state as it was, or it expands folders
  only and selects items only;
* `sound_of_moves`: so the state fits the tree at all times, and all of this holds of every command.
-/

namespace EntryReport

namespace UiState

variable {t : Tree} {id : Nat} {n : Node}

/-! ## One index -/

theorem get_of_not_lt (h : ¬ id < t.size) : t.get id = .error (.unknownNode id) := by
  unfold Tree.get
  cases hn : t.node? id with
  | none => rfl
  | some n => exact absurd (Tree.lt_size_of_node? hn) h

theorem toggle_of_not_lt (s : UiState) (h : ¬ id < t.size) :
    s.toggle t id = (s, .error (.unknownNode id)) := by
  unfold toggle
  rw [get_of_not_lt h]

/-- A folder changes between expanded and collapsed; an item does neither. -/
theorem toggle_of_node? (s : UiState) (hn : t.node? id = some n) :
    s.toggle t id =
      if n.isFolder then
        ({ s with
            expanded := if id ∈ s.expanded then s.expanded.erase id else s.expanded.insert id },
          .ok ())
      else (s, .error (.notAFolder id)) := by
  unfold toggle
  rw [Tree.get_of_node? hn]

theorem reveal_of_not_lt (s : UiState) (h : ¬ id < t.size) :
    s.reveal t id = (s, .error (.unknownNode id)) := by
  unfold reveal
  rw [get_of_not_lt h]

theorem select_of_not_lt (s : UiState) (panelId : String) (h : ¬ id < t.size) :
    s.select t panelId id = (s, .error (.unknownNode id)) := by
  unfold select
  rw [get_of_not_lt h]

/-- An item is selected with any panel; a folder cannot be. -/
theorem select_of_node? (s : UiState) (panelId : String) (hn : t.node? id = some n) :
    s.select t panelId id =
      if n.isItem then ({ s with selection := some ⟨panelId, id⟩ }, .ok ())
      else (s, .error (.notAnItem id)) := by
  unfold select
  rw [Tree.get_of_node? hn]

end UiState

/-! ## Commands -/

/-- An operation on the state: one that knows no index, or one that names a node by its index. -/
inductive UiCommand where
  | unindexed (o : Operation)
  | toggle (folder : Nat)
  | reveal (id : Nat)
  | select (panelId : String) (item : Nat)

namespace UiCommand

/-- The state after the command, and whether it failed. -/
def run (t : Tree) (s : UiState) : UiCommand → UiState × Except TreeError Unit
  | unindexed o => o.run t s
  | toggle folder => s.toggle t folder
  | reveal id => s.reveal t id
  | select panelId item => s.select t panelId item

/-- The command fails with the error. -/
inductive Refused (t : Tree) : UiCommand → TreeError → Prop
  | toggle_unknown {id : Nat} (h : ¬ id < t.size) : Refused t (toggle id) (.unknownNode id)
  | toggle_item {id : Nat} (h : t.isItem id = true) : Refused t (toggle id) (.notAFolder id)
  | reveal_unknown {id : Nat} (h : ¬ id < t.size) : Refused t (reveal id) (.unknownNode id)
  | select_unknown {panelId : String} {id : Nat} (h : ¬ id < t.size) :
    Refused t (select panelId id) (.unknownNode id)
  | select_folder {panelId : String} {id : Nat} (h : t.isFolder id = true) :
    Refused t (select panelId id) (.notAnItem id)
  | expandPath {path : String} (h : t.find? path = none) :
    Refused t (unindexed (.expandPath path)) (.noSuchItem path)
  | selectPath {path : String} (h : ¬ ∃ id, t.find? path = some id ∧ t.isItem id = true) :
    Refused t (unindexed (.selectPath path)) (.noSuchItem path)

variable {t : Tree} {s s' : UiState} {c : UiCommand} {err err' : TreeError} {id : Nat} {n : Node}

/-- A command fails in one way only. -/
theorem Refused.unique (h : Refused t c err) (h' : Refused t c err') : err = err' := by
  cases h with
  | toggle_unknown h =>
    cases h' with
    | toggle_unknown _ => rfl
    | toggle_item h' => exact absurd (Tree.lt_size_of_isItem h') h
  | toggle_item h =>
    cases h' with
    | toggle_unknown h' => exact absurd (Tree.lt_size_of_isItem h) h'
    | toggle_item _ => rfl
  | reveal_unknown _ => cases h'; rfl
  | select_unknown h =>
    cases h' with
    | select_unknown _ => rfl
    | select_folder h' => exact absurd (Tree.lt_size_of_isFolder h') h
  | select_folder h =>
    cases h' with
    | select_unknown h' => exact absurd (Tree.lt_size_of_isFolder h) h'
    | select_folder _ => rfl
  | expandPath _ => cases h'; rfl
  | selectPath _ => cases h'; rfl

/-! ## One command -/

/-- What the state refers to after a command it referred to before, or it is a folder where folders
are expanded and an item where one is selected. -/
structure Widened (t : Tree) (s s' : UiState) : Prop where
  expanded : ∀ {id}, id ∈ s'.expanded → id ∈ s.expanded ∨ t.isFolder id = true
  selection : ∀ {x}, s'.selection = some x → s.selection = some x ∨ t.isItem x.item = true

/-- What comes to be expanded is a folder. -/
theorem Widened.of_expanded {expanded : NodeSet}
    (h : ∀ {id}, id ∈ expanded → id ∈ s.expanded ∨ t.isFolder id = true) :
    Widened t s { s with expanded } where
  expanded := h
  selection := Or.inl

/-- What comes to be selected is an item. -/
theorem Widened.of_selection {selection : Option Selection}
    (h : ∀ {x}, selection = some x → t.isItem x.item = true) :
    Widened t s { s with selection } where
  expanded := Or.inl
  selection hx := Or.inr (h hx)

/-- Criteria refer to no node. -/
theorem Widened.of_criteria (criteria : Criteria) : Widened t s { s with criteria } where
  expanded := Or.inl
  selection := Or.inl

/-- The command is refused and changes nothing, or it succeeds on folders and items. -/
inductive Settles (t : Tree) (s : UiState) (c : UiCommand) : Prop
  | refused {err : TreeError} (why : Refused t c err) (run_eq : c.run t s = (s, .error err))
  | done {s' : UiState} (not_refused : ∀ err, ¬ Refused t c err) (widened : Widened t s s')
    (run_eq : c.run t s = (s', .ok ()))

theorem settles_toggle (t : Tree) (s : UiState) (id : Nat) : Settles t s (toggle id) := by
  by_cases hid : id < t.size
  · obtain ⟨n, hn⟩ := Tree.node?_eq_some_iff.mpr hid
    have hitem := Tree.isItem_eq_not_isFolder hid
    have hrun := s.toggle_of_node? hn
    rw [← Tree.isFolder_of_node? hn] at hrun
    cases hf : t.isFolder id with
    | false =>
      rw [hf, if_neg Bool.false_ne_true] at hrun
      exact .refused (.toggle_item (by rw [hitem, hf]; rfl)) hrun
    | true =>
      rw [hf, if_pos rfl] at hrun
      refine .done (fun err hr => ?_) (.of_expanded fun {k} hk => ?_) hrun
      · cases hr with
        | toggle_unknown h => exact h hid
        | toggle_item h => simp [hitem, hf] at h
      · split at hk
        · exact Or.inl (NodeSet.mem_erase.mp hk).1
        · rcases NodeSet.mem_insert.mp hk with rfl | hk
          · exact Or.inr hf
          · exact Or.inl hk
  · exact .refused (.toggle_unknown hid) (s.toggle_of_not_lt hid)

theorem settles_reveal (h : t.WellFormed) (s : UiState) (id : Nat) : Settles t s (reveal id) := by
  by_cases hid : id < t.size
  · refine .done (fun err hr => ?_) (.of_expanded fun {k} hk => ?_) (s.reveal_of_lt hid)
    · cases hr with
      | reveal_unknown h => exact h hid
    · exact (NodeSet.mem_insertAll.mp hk).imp_right (h.isFolder_of_mem_ancestors hid)
  · exact .refused (.reveal_unknown hid) (s.reveal_of_not_lt hid)

theorem settles_select (t : Tree) (s : UiState) (panelId : String) (id : Nat) :
    Settles t s (select panelId id) := by
  by_cases hid : id < t.size
  · obtain ⟨n, hn⟩ := Tree.node?_eq_some_iff.mpr hid
    have hfolder := Tree.isItem_eq_not_isFolder hid
    have hrun := s.select_of_node? panelId hn
    rw [← Tree.isItem_of_node? hn] at hrun
    cases hi : t.isItem id with
    | false =>
      rw [hi, if_neg Bool.false_ne_true] at hrun
      exact .refused (.select_folder (by simpa [hi] using hfolder)) hrun
    | true =>
      rw [hi, if_pos rfl] at hrun
      refine .done (fun err hr => ?_) (.of_selection fun {x} hx => ?_) hrun
      · cases hr with
        | select_unknown h => exact h hid
        | select_folder h => simp [hi, h] at hfolder
      · rw [← Option.some.inj hx, hi]
  · exact .refused (.select_unknown hid) (s.select_of_not_lt panelId hid)

/-- Nothing can fail after the node has been found. -/
theorem settles_expandPath (h : t.WellFormed) (s : UiState) (path : String) :
    Settles t s (unindexed (.expandPath path)) := by
  have hrun : (unindexed (.expandPath path)).run t s =
      ((s.expandPath t path).1, (s.expandPath t path).2.map fun _ => ()) := rfl
  cases hf : t.find? path with
  | none =>
    rw [s.expandPath_of_none hf] at hrun
    exact .refused (.expandPath hf) hrun
  | some id =>
    have hid := (h.find?_eq_some_iff.mp hf).1
    rw [s.expandPath_of_some hf hid] at hrun
    refine .done (fun err hr => ?_) (.of_expanded fun {k} hk => ?_) hrun
    · cases hr with
      | expandPath hnone =>
        rw [hf] at hnone
        exact absurd hnone (by simp)
    · have hway : k ∈ s.expanded.insertAll (t.ancestors id) →
          k ∈ s.expanded ∨ t.isFolder k = true := fun hk =>
        (NodeSet.mem_insertAll.mp hk).imp_right (h.isFolder_of_mem_ancestors hid)
      split at hk
      · next hfolder =>
        rcases NodeSet.mem_insert.mp hk with rfl | hk
        · exact Or.inr hfolder
        · exact hway hk
      · exact hway hk

theorem settles_selectPath (h : t.WellFormed) (s : UiState) (path : String) :
    Settles t s (unindexed (.selectPath path)) := by
  have hrun : (unindexed (.selectPath path)).run t s =
      ((s.selectPath t path).1, (s.selectPath t path).2.map fun _ => ()) := rfl
  cases hf : t.find? path with
  | none =>
    rw [s.selectPath_of_none hf] at hrun
    exact .refused (.selectPath (by simp [hf])) hrun
  | some id =>
    obtain ⟨n, hn⟩ := Tree.node?_eq_some_iff.mpr (h.find?_eq_some_iff.mp hf).1
    rw [s.selectPath_of_some hf hn, ← Tree.isItem_of_node? hn] at hrun
    cases hi : t.isItem id with
    | false =>
      rw [hi, if_neg Bool.false_ne_true] at hrun
      refine .refused (.selectPath ?_) hrun
      rintro ⟨id', hf', hi'⟩
      rw [hf, Option.some.injEq] at hf'
      rw [← hf', hi] at hi'
      exact absurd hi' Bool.false_ne_true
    | true =>
      rw [hi, if_pos rfl] at hrun
      refine .done (fun err hr => ?_) (.of_selection fun {x} hx => ?_) hrun
      · cases hr with
        | selectPath hno => exact hno ⟨id, hf, hi⟩
      · rw [← Option.some.inj hx, hi]

/-- **What a command can do.** -/
theorem run_cases (h : t.WellFormed) (s : UiState) (c : UiCommand) : Settles t s c := by
  cases c with
  | toggle folder => exact settles_toggle t s folder
  | reveal id => exact settles_reveal h s id
  | select panelId item => exact settles_select t s panelId item
  | unindexed o =>
    cases o with
    | expandPath path => exact settles_expandPath h s path
    | selectPath path => exact settles_selectPath h s path
    | expandAll =>
      refine .done (fun err hr => nomatch hr) (.of_expanded fun hk => ?_) rfl
      exact (NodeSet.mem_insertAll.mp hk).imp_right (Tree.mem_folders h).mp
    | collapseAll =>
      refine .done (fun err hr => nomatch hr) (.of_expanded fun hk => ?_) rfl
      exact absurd hk NodeSet.not_mem_empty
    | clearSelection =>
      exact .done (fun err hr => nomatch hr) (.of_selection fun hx => absurd hx (by simp)) rfl
    | setCriteria criteria =>
      exact .done (fun err hr => nomatch hr) (.of_criteria criteria) rfl

/-- **A command fails as it is refused**, and in no other case. -/
theorem error_iff_refused (h : t.WellFormed) (s : UiState) (c : UiCommand) :
    (c.run t s).2 = .error err ↔ Refused t c err := by
  rcases c.run_cases h s with ⟨hr, hrun⟩ | ⟨hno, -, hrun⟩
  · rw [hrun, Except.error.injEq]
    exact ⟨fun heq => heq ▸ hr, fun hr' => hr.unique hr'⟩
  · rw [hrun]
    exact iff_of_false (by simp) (hno err)

/-- A command that fails changes nothing. -/
theorem unchanged_of_error (h : t.WellFormed) (s : UiState) (c : UiCommand)
    (herr : (c.run t s).2 = .error err) : (c.run t s).1 = s := by
  rcases c.run_cases h s with ⟨-, hrun⟩ | ⟨-, -, hrun⟩
  · rw [hrun]
  · rw [hrun] at herr
    exact absurd herr (by simp)

end UiCommand

/-! ## Runs -/

/-- A tree and the state of the reader that looks at it. -/
structure Session where
  tree : Tree
  state : UiState

/-- An operation on the tree or on the state. -/
inductive Move where
  | add (e : Entry)
  | sort
  | command (c : UiCommand)

namespace Session

variable {x : Session} {t : Tree} {id : Nat}

/-- A new tree and a new state. -/
def new (rootName : String) : Session := ⟨.new rootName, .new⟩

/-- The session after an operation, whatever came of it. -/
def after (x : Session) : Move → Session
  | .add e => { x with tree := (x.tree.add e).1 }
  | .sort => { x with tree := x.tree.sort }
  | .command c => { x with state := (c.run x.tree x.state).1 }

/-- The session after all operations. -/
def afterAll (x : Session) (moves : List Move) : Session := moves.foldl after x

/-- The state fits the tree. -/
structure Fits (x : Session) : Prop where
  settled : x.tree.Settled
  expanded : ∀ {id}, id ∈ x.state.expanded → x.tree.isFolder id = true
  selection : ∀ {s}, x.state.selection = some s → x.tree.isItem s.item = true

theorem fits_new (rootName : String) : (new rootName).Fits where
  settled := Tree.settled_new rootName
  expanded hid := absurd hid NodeSet.not_mem_empty
  selection hs := nomatch hs

/-- A tree keeps its folders and items when it grows. -/
theorem Fits.of_extends (h : x.Fits) (ht : t.Settled) (hext : Tree.Extends x.tree t) :
    Fits { x with tree := t } where
  settled := ht
  expanded hid := by
    have hf := h.expanded hid
    rw [hext.isFolder_eq (Tree.lt_size_of_isFolder hf), hf]
  selection hs := by
    have hi := h.selection hs
    rw [hext.isItem_eq (Tree.lt_size_of_isItem hi), hi]

theorem Fits.of_widened {s : UiState} (h : x.Fits) (hw : UiCommand.Widened x.tree x.state s) :
    Fits { x with state := s } where
  settled := h.settled
  expanded hid := (hw.expanded hid).elim h.expanded id
  selection hs := (hw.selection hs).elim h.selection id

/-- **One operation** leaves a state that fits. -/
theorem Fits.after (h : x.Fits) (move : Move) : (x.after move).Fits := by
  cases move with
  | add e => exact h.of_extends (h.settled.add e) (h.settled.extends_add e)
  | sort => exact h.of_extends h.settled.sort Tree.extends_sort
  | command c =>
    have hafter : x.after (.command c) = { x with state := (c.run x.tree x.state).1 } := rfl
    rw [hafter]
    rcases c.run_cases h.settled.wellFormed x.state with ⟨-, hrun⟩ | ⟨-, hw, hrun⟩
    · rw [hrun]
      exact h
    · rw [hrun]
      exact h.of_widened hw

/-- **A run of operations** leaves a state that fits. -/
theorem Fits.afterAll (h : x.Fits) (moves : List Move) : (x.afterAll moves).Fits := by
  induction moves generalizing x with
  | nil => exact h
  | cons move moves ih => exact ih (h.after move)

/-- What holds between any two operations. -/
structure Sound (x : Session) : Prop where
  /-- What is expanded is a folder of the tree. -/
  expanded : ∀ {id}, id ∈ x.state.expanded → x.tree.isFolder id = true
  /-- What is selected is an item of the tree. -/
  selection : ∀ {s}, x.state.selection = some s → x.tree.isItem s.item = true
  /-- A command that fails leaves the state as it was. -/
  unchanged : ∀ {c : UiCommand} {err}, (c.run x.tree x.state).2 = .error err →
    (c.run x.tree x.state).1 = x.state
  /-- These are the commands that fail, each with its error. -/
  refused : ∀ {c : UiCommand} {err}, (c.run x.tree x.state).2 = .error err ↔ c.Refused x.tree err

/-- **The state fits the tree at all times**, and commands succeed or change nothing. -/
theorem sound_of_moves (rootName : String) (moves : List Move) :
    ((new rootName).afterAll moves).Sound := by
  have h := (fits_new rootName).afterAll moves
  have hwf := h.settled.wellFormed
  constructor
  case expanded => exact h.expanded
  case selection => exact h.selection
  case unchanged => exact fun herr => UiCommand.unchanged_of_error hwf _ _ herr
  case refused => exact UiCommand.error_iff_refused hwf _ _

end Session

end EntryReport
