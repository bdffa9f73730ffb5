import EntryReport.Proofs.Tree.Hiding
import EntryReport.Proofs.View.Counts

/-!
# Criteria narrow a view

An item is accepted if each condition on its own accepts it (`Criteria.accepts_new`). Criteria are
`Weaker` than others if these have every condition that they have, where a search text goes on from
theirs at either end. What they hide is then hidden by the others too
(`WellFormed.mem_hidden_mono`). Folders do not combine like items: a folder goes with the items
below it. But more conditions leave fewer of these to show it, and they are set if fewer are.

* `criteria_narrow`: both laws for reachable trees, and what they mean for the number of visible
  items.
-/

namespace EntryReport

/-! ## Criteria -/

namespace Criteria

variable {c c₁ c₂ : Criteria} {tags : Tags} {name : String}

theorem active_iff :
    c.active = true ↔ c.warnings = true ∨ c.errors = true ∨ c.search ≠ "" := by
  simp [active, or_assoc]

/-- **Conditions combine as a conjunction.** -/
theorem accepts_new (warnings errors : Bool) (search : String) (tags : Tags) (name : String) :
    (new warnings errors search).accepts tags name =
      ((new warnings false "").accepts tags name && (new false errors "").accepts tags name &&
        (new false false search).accepts tags name) := by
  have hnone : Text.lowercase (Text.trim "") = "" := rfl
  have hempty : "".isEmpty = true := rfl
  simp [accepts, finds, new, hnone, hempty, Bool.and_assoc]

/-- The second criteria have every condition that the first have. -/
structure Weaker (c₁ c₂ : Criteria) : Prop where
  warnings : c₁.warnings = true → c₂.warnings = true
  errors : c₁.errors = true → c₂.errors = true
  search : c₁.search.toList <:+: c₂.search.toList

namespace Weaker

theorem search_ne (h : Weaker c₁ c₂) (hs : c₁.search ≠ "") : c₂.search ≠ "" := by
  intro hnone
  have hsearch := h.search
  rw [hnone, String.toList_empty, List.infix_nil, String.toList_eq_nil_iff] at hsearch
  exact hs hsearch

theorem active (h : Weaker c₁ c₂) (ha : c₁.active = true) : c₂.active = true :=
  active_iff.mpr ((active_iff.mp ha).imp h.warnings (Or.imp h.errors h.search_ne))

/-- **An item that fails fewer conditions fails more.** -/
theorem rejects (h : Weaker c₁ c₂) (hno : c₁.accepts tags name = false) :
    c₂.accepts tags name = false := by
  rw [accepts_eq_false_iff] at hno ⊢
  rcases hno with ⟨hw, hno⟩ | ⟨he, hno⟩ | ⟨hs, hno⟩
  · exact Or.inl ⟨h.warnings hw, hno⟩
  · exact Or.inr (Or.inl ⟨h.errors he, hno⟩)
  · exact Or.inr (Or.inr ⟨h.search_ne hs, fun hin => hno (h.search.trans hin)⟩)

end Weaker

end Criteria

/-! ## Hidden nodes -/

namespace Tree

variable {t : Tree} {c₁ c₂ : Criteria} {empty : EmptyFolders} {k : Nat}

namespace WellFormed

theorem mem_hidden_item_mono (h : t.WellFormed) (hc : c₁.Weaker c₂) (hi : t.isItem k = true)
    (hk : k ∈ t.hidden c₁ empty) : k ∈ t.hidden c₂ empty := by
  obtain ⟨n, hn⟩ := node?_eq_some_iff.mpr (lt_size_of_isItem hi)
  rw [isItem_of_node? hn] at hi
  rw [h.mem_hidden_iff_rejected hn hi] at hk ⊢
  exact hc.rejects hk

/-- **Whatever is hidden by fewer conditions is hidden by more.** -/
theorem mem_hidden_mono (h : t.WellFormed) (hc : c₁.Weaker c₂) (hk : k ∈ t.hidden c₁ empty) :
    k ∈ t.hidden c₂ empty := by
  rcases h.mem_hidden.mp hk with ⟨hi, -⟩ | ⟨hf, -⟩
  · exact h.mem_hidden_item_mono hc hi hk
  · by_cases hsome : ∃ m, t.ItemBelow m k
    · rw [h.mem_hidden_of_items hf hsome] at hk ⊢
      exact ⟨hc.active hk.1, fun m hm => h.mem_hidden_item_mono hc hm.1 (hk.2 m hm)⟩
    · rw [h.mem_hidden_of_no_items hf hsome] at hk ⊢
      exact hk.imp_left hc.active

/-- **An item is hidden if one of the conditions on its own hides it.** -/
theorem mem_hidden_new (h : t.WellFormed) (hi : t.isItem k = true) (warnings errors : Bool)
    (search : String) : k ∈ t.hidden (.new warnings errors search) empty ↔
      k ∈ t.hidden (.new warnings false "") empty ∨ k ∈ t.hidden (.new false errors "") empty ∨
        k ∈ t.hidden (.new false false search) empty := by
  obtain ⟨n, hn⟩ := node?_eq_some_iff.mpr (lt_size_of_isItem hi)
  rw [isItem_of_node? hn] at hi
  simp only [h.mem_hidden_iff_rejected hn hi]
  rw [Criteria.accepts_new, Bool.and_eq_false_iff, Bool.and_eq_false_iff, or_assoc]

end WellFormed

end Tree

/-! ## Visible items -/

namespace View

variable {t : Tree} {s₁ s₂ : UiState} {options : RenderOptions}

/-- **More conditions leave at most as many items visible.** -/
theorem visibleItems_le (h : t.WellFormed) (hc : s₁.criteria.Weaker s₂.criteria) :
    (render t s₂ options).summary.visibleItems ≤ (render t s₁ options).summary.visibleItems := by
  rw [visibleItems_render, visibleItems_render]
  refine List.countP_mono_left fun id _ hshown => ?_
  rw [Bool.and_eq_true, decide_eq_true_eq] at hshown ⊢
  exact ⟨hshown.1, fun hhidden => hshown.2 (h.mem_hidden_mono hc hhidden)⟩

end View

namespace Tree

/-- **Conditions combine, and more of them narrow the view.** In a reachable tree an item is hidden
if one of the conditions hides it, whatever becomes of empty folders. What some criteria hide is
hidden by criteria with more conditions, and these leave at most as many items visible. -/
theorem criteria_narrow {t : Tree} (hr : Reachable t) :
    (∀ (empty : EmptyFolders) (warnings errors : Bool) (search : String) (id : Nat),
      t.isItem id = true → (id ∈ t.hidden (.new warnings errors search) empty ↔
        id ∈ t.hidden (.new warnings false "") empty ∨ id ∈ t.hidden (.new false errors "") empty ∨
          id ∈ t.hidden (.new false false search) empty)) ∧
    ∀ c₁ c₂ : Criteria, c₁.Weaker c₂ →
      (∀ empty id, id ∈ t.hidden c₁ empty → id ∈ t.hidden c₂ empty) ∧
      ∀ (s₁ s₂ : UiState) (options : RenderOptions), s₁.criteria = c₁ → s₂.criteria = c₂ →
        (View.render t s₂ options).summary.visibleItems ≤
          (View.render t s₁ options).summary.visibleItems := by
  have h := hr.settled.wellFormed
  refine ⟨fun _ warnings errors search _ hi => h.mem_hidden_new hi warnings errors search, ?_⟩
  intro c₁ c₂ hc
  refine ⟨fun _ _ hk => h.mem_hidden_mono hc hk, ?_⟩
  rintro s₁ s₂ options rfl rfl
  exact View.visibleItems_le h hc

/-- A folder whose only item is not found stays hidden when more is asked for. -/
theorem narrowed_by_longer_search :
    Reachable ((new "r").add { name := "a/b" }).1 ∧
    Criteria.Weaker ⟨false, false, "x"⟩ ⟨true, false, "xy"⟩ ∧
    1 ∈ ((new "r").add { name := "a/b" }).1.hidden ⟨true, false, "xy"⟩ .shown := by
  have hr := (reachable_new "r").step (.add _ { name := "a/b" })
  have hweaker : Criteria.Weaker ⟨false, false, "x"⟩ ⟨true, false, "xy"⟩ :=
    ⟨by simp, by simp, [], ['y'], rfl⟩
  have hhidden : 1 ∈ ((new "r").add { name := "a/b" }).1.hidden ⟨false, false, "x"⟩ .shown := by
    decide
  exact ⟨hr, hweaker, ((criteria_narrow hr).2 _ _ hweaker).1 .shown 1 hhidden⟩

end Tree

end EntryReport
