import EntryReport.Proofs.State.Session
import Mathlib.Algebra.Ring.Parity

/-!
# Toggling folders

To toggle a folder turns its being expanded into the opposite; to toggle anything else fails and
changes nothing (`mem_toggle`). It only counts how often each folder is toggled, and of that only
whether it is odd (`mem_toggleAll`, by induction on the calls), so that runs in which every folder
has the same parity end in the same state (`toggleAll_eq_of_even`).

* `toggles_count_parity`: what a run changes, in any order, run twice, and run back.
-/

namespace EntryReport

namespace UiState

variable {t : Tree} {s : UiState} {ids ids' : List Nat} {k f : Nat}

/-! ## One call -/

/-- Only what is expanded can change. -/
theorem toggle_rest (s : UiState) (t : Tree) (id : Nat) :
    (s.toggle t id).1.selection = s.selection ∧ (s.toggle t id).1.criteria = s.criteria := by
  by_cases hid : id < t.size
  · obtain ⟨n, hn⟩ := Tree.node?_eq_some_iff.mpr hid
    rw [s.toggle_of_node? hn]
    split <;> exact ⟨rfl, rfl⟩
  · rw [s.toggle_of_not_lt hid]
    exact ⟨rfl, rfl⟩

/-- **One call** changes the folder that it names, and no other node. -/
theorem mem_toggle (s : UiState) (t : Tree) (id : Nat) :
    (k ∈ (s.toggle t id).1.expanded ↔ k ∈ s.expanded) ↔ ¬ (t.isFolder k = true ∧ k = id) := by
  by_cases hid : id < t.size
  · obtain ⟨n, hn⟩ := Tree.node?_eq_some_iff.mpr hid
    rw [s.toggle_of_node? hn, ← Tree.isFolder_of_node? hn]
    cases hf : t.isFolder id with
    | false =>
      rw [if_neg Bool.false_ne_true]
      refine iff_of_true Iff.rfl ?_
      rintro ⟨hk, rfl⟩
      rw [hf] at hk
      exact Bool.false_ne_true hk
    | true =>
      rw [if_pos rfl]
      by_cases hk : k = id
      · subst hk
        by_cases hs : k ∈ s.expanded <;> simp [hs, hf]
      · by_cases hs : id ∈ s.expanded <;> simp [hs, hk]
  · rw [s.toggle_of_not_lt hid]
    refine iff_of_true Iff.rfl ?_
    rintro ⟨hk, rfl⟩
    exact hid (Tree.lt_size_of_isFolder hk)

/-! ## Many calls -/

/-- The state after toggling nodes one after the other, whatever came of each call. -/
def toggleAll (s : UiState) (t : Tree) (ids : List Nat) : UiState :=
  ids.foldl (fun s id => (s.toggle t id).1) s

theorem toggleAll_rest (s : UiState) (t : Tree) (ids : List Nat) :
    (s.toggleAll t ids).selection = s.selection ∧ (s.toggleAll t ids).criteria = s.criteria := by
  induction ids generalizing s with
  | nil => exact ⟨rfl, rfl⟩
  | cons id ids ih =>
    obtain ⟨hselection, hcriteria⟩ := ih (s.toggle t id).1
    exact ⟨hselection.trans (s.toggle_rest t id).1, hcriteria.trans (s.toggle_rest t id).2⟩

/-- **Many calls** leave a node as it was if it is no folder, or if they name it an even number of
times. -/
theorem mem_toggleAll (s : UiState) (t : Tree) (ids : List Nat) :
    (k ∈ (s.toggleAll t ids).expanded ↔ k ∈ s.expanded) ↔
      (t.isFolder k = true → Even (ids.count k)) := by
  induction ids generalizing s with
  | nil => simp [toggleAll]
  | cons id ids ih =>
    have hrest := ih (s.toggle t id).1
    have hfirst := s.mem_toggle (k := k) t id
    have hcons : s.toggleAll t (id :: ids) = (s.toggle t id).1.toggleAll t ids := rfl
    rw [hcons]
    by_cases hk : k = id
    · subst hk
      -- the first call is one more that counts, if there is a folder to count it for
      rw [List.count_cons_self, Nat.even_add_one]
      simp only [and_true] at hfirst
      tauto
    · rw [List.count_cons_of_ne (Ne.symm hk), ← hrest]
      rw [iff_true_right (fun h => hk h.2)] at hfirst
      rw [hfirst]

/-- Runs that name every folder equally often, up to an even number, end in the same state. -/
theorem toggleAll_eq_of_even (s : UiState)
    (h : ∀ f, t.isFolder f = true → (Even (ids.count f) ↔ Even (ids'.count f))) :
    s.toggleAll t ids = s.toggleAll t ids' := by
  refine eq_of_expanded (fun k => ?_) ?_ ?_
  · have hleft := s.mem_toggleAll (k := k) t ids
    have hright := s.mem_toggleAll (k := k) t ids'
    have hsame := forall_congr' (h k)
    tauto
  · rw [(s.toggleAll_rest t ids).1, (s.toggleAll_rest t ids').1]
  · rw [(s.toggleAll_rest t ids).2, (s.toggleAll_rest t ids').2]

/-- Runs that name every folder an even number of times change nothing. -/
theorem toggleAll_eq_self (s : UiState)
    (h : ∀ f, t.isFolder f = true → Even (ids.count f)) : s.toggleAll t ids = s := by
  have hnone : s.toggleAll t ids = s.toggleAll t [] :=
    s.toggleAll_eq_of_even fun f hf => iff_of_true (h f hf) (by simp)
  exact hnone

/-- What a run of calls to toggle nodes does to a state. -/
structure Toggled (t : Tree) (s : UiState) (ids : List Nat) (s' : UiState) : Prop where
  /-- A folder is expanded and was not, or was and is not, if it is named an odd number of times. -/
  folder : ∀ {f}, t.isFolder f = true →
    (¬ (f ∈ s'.expanded ↔ f ∈ s.expanded) ↔ Odd (ids.count f))
  /-- Nothing else changes, whether it is an item or not in the tree. -/
  other : ∀ {k}, t.isFolder k = false → (k ∈ s'.expanded ↔ k ∈ s.expanded)
  selection : s'.selection = s.selection
  criteria : s'.criteria = s.criteria

theorem toggled_toggleAll (t : Tree) (s : UiState) (ids : List Nat) :
    Toggled t s ids (s.toggleAll t ids) where
  folder hf := by rw [s.mem_toggleAll, ← Nat.not_even_iff_odd, forall_prop_of_true hf]
  other hk := (s.mem_toggleAll t ids).mpr fun hf => absurd (hk.symm.trans hf) (by simp)
  selection := (s.toggleAll_rest t ids).1
  criteria := (s.toggleAll_rest t ids).2

/-- **Toggling counts parity.** In any tree and from any state, a run of calls changes the folders
that it names an odd number of times, and nothing else. So the order of the calls does not matter,
and to run them twice, or forth and back, restores the state. -/
theorem toggles_count_parity (t : Tree) (s : UiState) (ids : List Nat) :
    Toggled t s ids (s.toggleAll t ids) ∧
      (∀ ids', ids'.Perm ids → s.toggleAll t ids' = s.toggleAll t ids) ∧
      (s.toggleAll t ids).toggleAll t ids = s ∧
      (s.toggleAll t ids).toggleAll t ids.reverse = s := by
  have heven (ids' : List Nat) (hcount : ∀ f, ids'.count f = ids.count f) :
      (s.toggleAll t ids).toggleAll t ids' = s := by
    have happend : (s.toggleAll t ids).toggleAll t ids' = s.toggleAll t (ids ++ ids') :=
      List.foldl_append.symm
    rw [happend]
    refine s.toggleAll_eq_self fun f _ => ?_
    rw [List.count_append, hcount]
    exact Even.add_self _
  exact ⟨toggled_toggleAll t s ids,
    fun ids' hperm => s.toggleAll_eq_of_even fun f _ => by rw [hperm.count_eq],
    heven ids fun _ => rfl, heven ids.reverse fun _ => List.count_reverse⟩

end UiState

end EntryReport
