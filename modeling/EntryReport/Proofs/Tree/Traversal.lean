import EntryReport.Proofs.Tree.WellFormed
import Mathlib.Data.Finset.Card
import Mathlib.Data.Finset.Range
import Mathlib.Data.List.Perm.Basic

/-!
# Walking down a tree

`descendants` works off a stack, one node a step, in as many steps as there are nodes. On a
well-formed tree this is enough: the nodes on the stack lie apart from each other, so that no node
is met twice (`nodup_visit`), and a walk that uses up all its steps has met all nodes
(`visit_complete`).

* `mem_descendants`: what is below a node, itself included, is what its trail leads to;
* `nodup_descendants`: each of them once;
* `perm_documentOrder`: in document order all nodes, each once;
* `mem_folders`, `mem_items`, `mem_itemsUnder`: the lists that are filtered from it.
-/

namespace EntryReport

namespace Tree

variable {t : Tree} {id m limit : Nat} {stack : List Nat}

/-! ## Children -/

namespace WellFormed

theorem trail_of_mem_children (h : t.WellFormed) (hc : m ∈ t.childrenOf id) :
    ∃ n, t.bare? m = some n ∧ t.trail m = t.trail id ++ [n.name] := by
  obtain ⟨n, hn, hp⟩ := h.mem_children_iff.mp hc
  exact ⟨n, hn, h.trail_child hn hp⟩

/-- A node is below another if it is that node or is below one of its children. -/
theorem prefix_trail_iff (h : t.WellFormed) (hid : id < t.size) (hm : m < t.size) :
    t.trail id <+: t.trail m ↔ m = id ∨ ∃ c ∈ t.childrenOf id, t.trail c <+: t.trail m := by
  constructor
  · refine h.induction_down ?_ ?_ hm
    · intro hpre
      rw [h.trail_root, List.prefix_nil, h.trail_eq_nil_iff hid] at hpre
      exact Or.inl hpre.symm
    · intro m n p hn hp hm _ htrail ih hpre
      rw [htrail, List.prefix_concat_iff, ← htrail] at hpre
      rcases hpre with heq | hpre
      · exact Or.inl (h.trail_inj hm hid heq.symm)
      · rcases ih hpre with rfl | ⟨c, hc, hcp⟩
        · exact Or.inr ⟨m, h.mem_children_iff.mpr ⟨n, hn, hp⟩, List.prefix_rfl⟩
        · exact Or.inr ⟨c, hc, hcp.trans (htrail ▸ List.prefix_append _ _)⟩
  · rintro (rfl | ⟨c, hc, hpre⟩)
    · exact List.prefix_rfl
    · obtain ⟨n, -, htrail⟩ := h.trail_of_mem_children hc
      exact (htrail ▸ List.prefix_append _ _ : t.trail id <+: t.trail c).trans hpre

/-- Two children of a node lie apart. -/
theorem apart_children (h : t.WellFormed) {a b : Nat} (ha : a ∈ t.childrenOf id)
    (hb : b ∈ t.childrenOf id) (hne : a ≠ b) : Apart (t.trail a) (t.trail b) := by
  obtain ⟨x, hx, hxt⟩ := h.trail_of_mem_children ha
  obtain ⟨y, hy, hyt⟩ := h.trail_of_mem_children hb
  have hlen : (t.trail a).length = (t.trail b).length := by rw [hxt, hyt]; simp
  have hdiff : t.trail a ≠ t.trail b := fun heq =>
    hne (h.trail_inj (lt_size_of_bare? hx) (lt_size_of_bare? hy) heq)
  exact ⟨fun hpre => hdiff (hpre.eq_of_length hlen),
    fun hpre => hdiff (hpre.eq_of_length hlen.symm).symm⟩

/-- A child lies apart from what its parent lies apart from. -/
theorem apart_child (h : t.WellFormed) {names : List String} (hc : m ∈ t.childrenOf id)
    (hap : Apart (t.trail id) names) : Apart (t.trail m) names := by
  obtain ⟨n, -, htrail⟩ := h.trail_of_mem_children hc
  have hbelow : t.trail id <+: t.trail m := htrail ▸ List.prefix_append _ _
  refine ⟨fun hpre => hap.1 (hbelow.trans hpre), fun hpre => ?_⟩
  rw [htrail, List.prefix_concat_iff, ← htrail] at hpre
  rcases hpre with rfl | hpre
  · exact hap.1 hbelow
  · exact hap.2 hpre

end WellFormed

/-! ## The stack -/

/-- The nodes on the stack are in the tree, and none is below another. -/
structure Stacked (t : Tree) (stack : List Nat) : Prop where
  lt_size : ∀ s ∈ stack, s < t.size
  apart : stack.Pairwise fun a b => Apart (t.trail a) (t.trail b)

theorem stacked_singleton (hid : id < t.size) : Stacked t [id] where
  lt_size := by simpa using hid
  apart := List.pairwise_singleton _ _

/-- A node on the stack gives way to its children. -/
theorem Stacked.children (hs : Stacked t (id :: stack)) (h : t.WellFormed) :
    Stacked t (t.childrenOf id ++ stack) where
  lt_size s hmem := (List.mem_append.mp hmem).elim h.lt_size_of_mem_children
    fun hmem => hs.lt_size s (List.mem_cons_of_mem _ hmem)
  apart := by
    obtain ⟨hhead, htail⟩ := List.pairwise_cons.mp hs.apart
    refine List.pairwise_append.mpr ⟨?_, htail, fun c hc s hmem => ?_⟩
    · exact (h.nodup_children id).imp_of_mem fun ha hb hne => h.apart_children ha hb hne
    · exact h.apart_child hc (hhead s hmem)

/-- What is met is below a node on the stack. -/
theorem of_mem_visit (h : t.WellFormed) (hs : Stacked t stack) (hm : m ∈ t.visit limit stack) :
    m < t.size ∧ ∃ s ∈ stack, t.trail s <+: t.trail m := by
  induction limit generalizing stack with
  | zero => exact absurd hm List.not_mem_nil
  | succ limit ih =>
    cases stack with
    | nil => exact absurd hm List.not_mem_nil
    | cons id stack =>
      have hid := hs.lt_size id List.mem_cons_self
      rcases List.mem_cons.mp hm with rfl | hm
      · exact ⟨hid, _, List.mem_cons_self, List.prefix_rfl⟩
      · obtain ⟨hlt, s, hmem, hpre⟩ := ih (hs.children h) hm
        refine ⟨hlt, ?_⟩
        rcases List.mem_append.mp hmem with hc | hmem
        · exact ⟨id, List.mem_cons_self, (h.prefix_trail_iff hid hlt).mpr (Or.inr ⟨s, hc, hpre⟩)⟩
        · exact ⟨s, List.mem_cons_of_mem _ hmem, hpre⟩

/-- **No node is met twice.** -/
theorem nodup_visit (h : t.WellFormed) (hs : Stacked t stack) : (t.visit limit stack).Nodup := by
  induction limit generalizing stack with
  | zero => exact List.nodup_nil
  | succ limit ih =>
    cases stack with
    | nil => exact List.nodup_nil
    | cons id stack =>
      refine List.nodup_cons.mpr ⟨fun hmem => ?_, ih (hs.children h)⟩
      obtain ⟨-, s, hs', hpre⟩ := of_mem_visit h (hs.children h) hmem
      rcases List.mem_append.mp hs' with hc | hs'
      · -- a child has a longer trail
        obtain ⟨n, -, htrail⟩ := h.trail_of_mem_children hc
        have hlen := hpre.length_le
        rw [htrail, List.length_append, List.length_singleton] at hlen
        omega
      · exact ((List.pairwise_cons.mp hs.apart).1 s hs').2 hpre

/-- The walk uses up its steps, or it has met all that is below the nodes on the stack. -/
theorem length_visit_or_mem (limit : Nat) (h : t.WellFormed) (hs : Stacked t stack) :
    (t.visit limit stack).length = limit ∨
      ∀ m, m < t.size → (∃ s ∈ stack, t.trail s <+: t.trail m) → m ∈ t.visit limit stack := by
  induction limit generalizing stack with
  | zero => exact Or.inl rfl
  | succ limit ih =>
    cases stack with
    | nil =>
      refine Or.inr ?_
      rintro m - ⟨s, hmem, -⟩
      exact absurd hmem List.not_mem_nil
    | cons id stack =>
      refine (ih (hs.children h)).imp (congrArg (· + 1)) fun hall m hm => ?_
      rintro ⟨s, hmem, hpre⟩
      rcases List.mem_cons.mp hmem with rfl | hmem
      · rcases (h.prefix_trail_iff (hs.lt_size s hmem) hm).mp hpre with rfl | ⟨c, hc, hcm⟩
        · exact List.mem_cons_self
        · exact List.mem_cons_of_mem _ (hall m hm ⟨c, List.mem_append_left _ hc, hcm⟩)
      · exact List.mem_cons_of_mem _ (hall m hm ⟨s, List.mem_append_right _ hmem, hpre⟩)

/-- **As many steps as there are nodes are enough.** -/
theorem visit_complete (h : t.WellFormed) (hs : Stacked t stack) (hm : m < t.size)
    (hbelow : ∃ s ∈ stack, t.trail s <+: t.trail m) : m ∈ t.visit t.size stack := by
  rcases length_visit_or_mem t.size h hs with hlen | hall
  · have hsub : (t.visit t.size stack).toFinset ⊆ Finset.range t.size := fun k hk =>
      Finset.mem_range.mpr (of_mem_visit h hs (List.mem_toFinset.mp hk)).1
    have hcard : (Finset.range t.size).card ≤ (t.visit t.size stack).toFinset.card := by
      rw [List.toFinset_card_of_nodup (nodup_visit h hs), hlen, Finset.card_range]
    have heq := Finset.eq_of_subset_of_card_le hsub hcard
    exact List.mem_toFinset.mp (heq ▸ Finset.mem_range.mpr hm)
  · exact hall m hm hbelow

/-! ## Descendants -/

/-- **What is below a node**, itself included. -/
theorem mem_descendants (h : t.WellFormed) (hid : id < t.size) :
    m ∈ t.descendants id ↔ m < t.size ∧ t.trail id <+: t.trail m := by
  have hs := stacked_singleton hid
  constructor
  · intro hmem
    obtain ⟨hlt, s, hsm, hpre⟩ := of_mem_visit h hs hmem
    rw [List.mem_singleton.mp hsm] at hpre
    exact ⟨hlt, hpre⟩
  · rintro ⟨hlt, hpre⟩
    exact visit_complete h hs hlt ⟨id, List.mem_singleton_self id, hpre⟩

theorem nodup_descendants (h : t.WellFormed) (hid : id < t.size) : (t.descendants id).Nodup :=
  nodup_visit h (stacked_singleton hid)

theorem mem_documentOrder (h : t.WellFormed) : m ∈ t.documentOrder ↔ m < t.size := by
  rw [documentOrder, mem_descendants h h.root_lt, h.trail_root]
  exact and_iff_left List.nil_prefix

/-- **Document order has all nodes**, each once. -/
theorem perm_documentOrder (h : t.WellFormed) : t.documentOrder.Perm (List.range t.size) := by
  have hnodup : t.documentOrder.Nodup := nodup_descendants h h.root_lt
  refine (List.perm_ext_iff_of_nodup hnodup List.nodup_range).mpr fun id => ?_
  rw [mem_documentOrder h, List.mem_range]

theorem mem_folders (h : t.WellFormed) : m ∈ t.folders ↔ t.isFolder m = true := by
  rw [folders, List.mem_filter, mem_documentOrder h]
  exact and_iff_right_of_imp lt_size_of_isFolder

theorem mem_itemsUnder (h : t.WellFormed) (hid : id < t.size) :
    m ∈ t.itemsUnder id ↔ t.isItem m = true ∧ t.trail id <+: t.trail m := by
  rw [itemsUnder, List.mem_filter, mem_descendants h hid]
  constructor
  · rintro ⟨⟨-, hpre⟩, hi⟩
    exact ⟨hi, hpre⟩
  · rintro ⟨hi, hpre⟩
    exact ⟨⟨lt_size_of_isItem hi, hpre⟩, hi⟩

theorem mem_items (h : t.WellFormed) : m ∈ t.items ↔ t.isItem m = true := by
  rw [items, mem_itemsUnder h h.root_lt, h.trail_root]
  exact and_iff_left List.nil_prefix

end Tree

end EntryReport
