import EntryReport.Proofs.State.Operations
import EntryReport.Proofs.Tree.Alike
import EntryReport.Proofs.Tree.Hiding

/-!
# States that differ in indices only

States of trees that are alike are `Alike` if the same folders are expanded, the same item is
selected, and the criteria are equal. The operations that do not know indices keep it, and they
fail on both sides or on neither (`Alike.run`, `Alike.runAll`). The criteria then hide the same
nodes (`mem_hidden_iff`).
-/

namespace EntryReport

open EntryReport.Tree (Same)

variable {t₁ t₂ : Tree} {s₁ s₂ : UiState} {a b : Nat}

/-- The selections are the same item with the same panel. -/
structure Selection.Alike (t₁ t₂ : Tree) (x y : Selection) : Prop where
  panelId : x.panelId = y.panelId
  item : Same t₁ t₂ x.item y.item

namespace UiState

/-- The states are the same but for the indices of nodes. -/
structure Alike (t₁ t₂ : Tree) (s₁ s₂ : UiState) : Prop where
  expanded : ∀ {a b}, Same t₁ t₂ a b → (a ∈ s₁.expanded ↔ b ∈ s₂.expanded)
  selection : Option.Rel (Selection.Alike t₁ t₂) s₁.selection s₂.selection
  criteria : s₁.criteria = s₂.criteria

theorem alike_new : Alike t₁ t₂ .new .new where
  expanded _ := iff_of_false NodeSet.not_mem_empty NodeSet.not_mem_empty
  selection := Option.Rel.none
  criteria := rfl

namespace Alike

/-- More folders are expanded, the same on both sides. -/
theorem expand (hs : Alike t₁ t₂ s₁ s₂) {e₁ e₂ : NodeSet}
    (he : ∀ {a b}, Same t₁ t₂ a b → (a ∈ e₁ ↔ b ∈ e₂)) :
    Alike t₁ t₂ { s₁ with expanded := e₁ } { s₂ with expanded := e₂ } where
  expanded := he
  selection := hs.selection
  criteria := hs.criteria

theorem mem_insertAll_iff (h : t₁.Alike t₂) (hs : Alike t₁ t₂ s₁ s₂) {l₁ l₂ : List Nat}
    (hl : List.Forall₂ (Same t₁ t₂) l₁ l₂) (hab : Same t₁ t₂ a b) :
    a ∈ s₁.expanded.insertAll l₁ ↔ b ∈ s₂.expanded.insertAll l₂ := by
  rw [NodeSet.mem_insertAll, NodeSet.mem_insertAll, hs.expanded hab, h.mem_iff hab hl]

theorem expandAll (h : t₁.Alike t₂) (hs : Alike t₁ t₂ s₁ s₂) :
    Alike t₁ t₂ (s₁.expandAll t₁) (s₂.expandAll t₂) :=
  hs.expand (mem_insertAll_iff h hs h.forall₂_folders)

theorem expandPath (h : t₁.Alike t₂) (hs : Alike t₁ t₂ s₁ s₂) (path : String) :
    Alike t₁ t₂ (s₁.expandPath t₁ path).1 (s₂.expandPath t₂ path).1 ∧
      Except.map (fun _ => ()) (s₁.expandPath t₁ path).2 =
        Except.map (fun _ => ()) (s₂.expandPath t₂ path).2 := by
  have hfound := h.find? path
  cases ha : t₁.find? path <;> cases hb : t₂.find? path <;> rw [ha, hb] at hfound <;> cases hfound
  case none.none =>
    rw [s₁.expandPath_of_none ha, s₂.expandPath_of_none hb]
    exact ⟨hs, rfl⟩
  case some.some hab =>
    rw [s₁.expandPath_of_some ha hab.left, s₂.expandPath_of_some hb hab.right,
      h.isFolder_eq hab]
    refine ⟨hs.expand fun {c d} hcd => ?_, rfl⟩
    have hup := mem_insertAll_iff h hs (h.forall₂_ancestors hab) hcd
    split
    · rw [NodeSet.mem_insert, NodeSet.mem_insert, h.eq_iff hcd hab, hup]
    · exact hup

theorem selectPath (h : t₁.Alike t₂) (hs : Alike t₁ t₂ s₁ s₂) (path : String) :
    Alike t₁ t₂ (s₁.selectPath t₁ path).1 (s₂.selectPath t₂ path).1 ∧
      Except.map (fun _ => ()) (s₁.selectPath t₁ path).2 =
        Except.map (fun _ => ()) (s₂.selectPath t₂ path).2 := by
  have hfound := h.find? path
  cases ha : t₁.find? path <;> cases hb : t₂.find? path <;> rw [ha, hb] at hfound <;> cases hfound
  case none.none =>
    rw [s₁.selectPath_of_none ha, s₂.selectPath_of_none hb]
    exact ⟨hs, rfl⟩
  case some.some hab =>
    obtain ⟨x, hx⟩ := Tree.node?_eq_some_iff.mpr hab.left
    obtain ⟨y, hy⟩ := Tree.node?_eq_some_iff.mpr hab.right
    obtain ⟨-, hpath, hfolder, -⟩ := h.node_eq hab hx hy
    have hitem : x.isItem = y.isItem := by rw [Node.isItem, Node.isItem, hfolder]
    rw [s₁.selectPath_of_some ha hx, s₂.selectPath_of_some hb hy, hitem]
    split
    · exact ⟨⟨hs.expanded, Option.Rel.some ⟨hpath, hab⟩, hs.criteria⟩, rfl⟩
    · exact ⟨hs, rfl⟩

/-- **An operation keeps step**: the states after it are alike, and it fails on both or neither. -/
theorem run (h : t₁.Alike t₂) (hs : Alike t₁ t₂ s₁ s₂) (o : Operation) :
    Alike t₁ t₂ (o.run t₁ s₁).1 (o.run t₂ s₂).1 ∧ (o.run t₁ s₁).2 = (o.run t₂ s₂).2 := by
  cases o with
  | expandPath path => exact hs.expandPath h path
  | expandAll => exact ⟨hs.expandAll h, rfl⟩
  | collapseAll =>
    exact ⟨hs.expand fun _ => iff_of_false NodeSet.not_mem_empty NodeSet.not_mem_empty, rfl⟩
  | selectPath path => exact hs.selectPath h path
  | clearSelection => exact ⟨⟨hs.expanded, Option.Rel.none, hs.criteria⟩, rfl⟩
  | setCriteria criteria => exact ⟨⟨hs.expanded, hs.selection, rfl⟩, rfl⟩

/-- **A run keeps step.** -/
theorem runAll (h : t₁.Alike t₂) (hs : Alike t₁ t₂ s₁ s₂) (os : List Operation) :
    Alike t₁ t₂ (Operation.runAll t₁ s₁ os).1 (Operation.runAll t₂ s₂ os).1 ∧
      (Operation.runAll t₁ s₁ os).2 = (Operation.runAll t₂ s₂ os).2 := by
  induction os generalizing s₁ s₂ with
  | nil => exact ⟨hs, rfl⟩
  | cons o os ih =>
    obtain ⟨hstep, hout⟩ := hs.run h o
    obtain ⟨hrest, houts⟩ := ih hstep
    refine ⟨hrest, ?_⟩
    unfold Operation.runAll
    rw [hout, houts]

end Alike

end UiState

/-! ## What is hidden -/

namespace Tree.Alike

variable {c : Criteria} {empty : EmptyFolders}

theorem matching_eq (h : t₁.Alike t₂) (hab : Same t₁ t₂ a b) :
    t₁.matching c a = t₂.matching c b := by
  obtain ⟨x, hx⟩ := node?_eq_some_iff.mpr hab.left
  obtain ⟨y, hy⟩ := node?_eq_some_iff.mpr hab.right
  obtain ⟨hname, -, hfolder, htags⟩ := h.node_eq hab hx hy
  unfold matching Node.isItem
  rw [hx, hy, Option.any_some, Option.any_some, hname, hfolder, htags]

theorem any_matching_eq (h : t₁.Alike t₂) {l₁ l₂ : List Nat}
    (hl : List.Forall₂ (Same t₁ t₂) l₁ l₂) : l₁.any (t₁.matching c) = l₂.any (t₂.matching c) := by
  induction hl with
  | nil => rfl
  | cons hab _ ih => rw [List.any_cons, List.any_cons, h.matching_eq hab, ih]

theorem showsFolder_eq (h : t₁.Alike t₂) (hab : Same t₁ t₂ a b) :
    t₁.showsFolder c empty a = t₂.showsFolder c empty b := by
  have hitems := h.forall₂_itemsUnder hab
  have hany := h.any_matching_eq (c := c) hitems
  unfold showsFolder
  generalize t₁.itemsUnder a = l₁ at hitems hany ⊢
  generalize t₂.itemsUnder b = l₂ at hitems hany ⊢
  cases hitems with
  | nil => rfl
  | cons _ _ => simp only [hany]

theorem mem_hidden_iff (h : t₁.Alike t₂) (hab : Same t₁ t₂ a b) :
    a ∈ t₁.hidden c empty ↔ b ∈ t₂.hidden c empty := by
  rw [h.left.mem_hidden, h.right.mem_hidden, h.isItem_eq hab, h.isFolder_eq hab,
    h.matching_eq hab, h.showsFolder_eq hab]

end Tree.Alike

end EntryReport
