import EntryReport.Proofs.Tree.WellFormed

/-!
# Walking up a tree

A parent has a smaller index than its children, so that `ancestors` comes to the root in fewer steps
than there are nodes.

* `mem_ancestors`: the ancestors of a node are the other nodes whose trails lead to it;
* `isFolder_of_mem_ancestors`: all of them are folders.
-/

namespace EntryReport

namespace Tree

variable {t : Tree} {id m a limit : Nat}

theorem climb_none (t : Tree) (limit : Nat) : t.climb limit none = [] := by
  cases limit <;> rfl

namespace WellFormed

/-- The node and its ancestors, if there are more steps than nodes before it. -/
theorem mem_climb (h : t.WellFormed) (hid : id < t.size) (hlimit : id < limit) :
    a ∈ t.climb limit (some id) ↔ a < t.size ∧ t.trail a <+: t.trail id := by
  induction limit generalizing id with
  | zero => omega
  | succ limit ih =>
    rw [climb, List.mem_cons]
    rcases h.root_or_child hid with rfl | ⟨n, p, hn, hp, hlt, -, htrail⟩
    · obtain ⟨_, hr⟩ := h.at_root
      rw [parent?_eq, hr, Option.bind_some, climb_none, h.trail_root, List.prefix_nil]
      simp only [List.not_mem_nil, or_false]
      constructor
      · rintro rfl
        exact ⟨h.root_lt, h.trail_root⟩
      · exact fun ⟨ha, hnil⟩ => (h.trail_eq_nil_iff ha).mp hnil
    · rw [parent?_eq, hn, Option.bind_some, hp, ih (hlt.trans hid) (by omega), htrail,
        List.prefix_concat_iff, ← htrail]
      constructor
      · rintro (rfl | ⟨ha, hpre⟩)
        · exact ⟨hid, Or.inl rfl⟩
        · exact ⟨ha, Or.inr hpre⟩
      · rintro ⟨ha, heq | hpre⟩
        · exact Or.inl (h.trail_inj ha hid heq)
        · exact Or.inr ⟨ha, hpre⟩

/-- **The ancestors of a node** are the other nodes on the way to it. -/
theorem mem_ancestors (h : t.WellFormed) (hm : m < t.size) :
    a ∈ t.ancestors m ↔ a < t.size ∧ t.trail a <+: t.trail m ∧ a ≠ m := by
  rw [ancestors]
  rcases h.root_or_child hm with rfl | ⟨n, p, hn, hp, hlt, -, htrail⟩
  · obtain ⟨_, hr⟩ := h.at_root
    rw [parent?_eq, hr, Option.bind_some, climb_none, h.trail_root, List.prefix_nil]
    refine iff_of_false List.not_mem_nil ?_
    rintro ⟨ha, hnil, hne⟩
    exact hne ((h.trail_eq_nil_iff ha).mp hnil)
  · rw [parent?_eq, hn, Option.bind_some, hp, h.mem_climb (hlt.trans hm) (hlt.trans hm), htrail,
      List.prefix_concat_iff, ← htrail]
    constructor
    · rintro ⟨ha, hpre⟩
      refine ⟨ha, Or.inr hpre, ?_⟩
      rintro rfl
      -- no trail leads from a node to its parent
      have hlen := hpre.length_le
      rw [htrail, List.length_append, List.length_singleton] at hlen
      omega
    · rintro ⟨ha, heq | hpre, hne⟩
      · exact absurd (h.trail_inj ha hm heq) hne
      · exact ⟨ha, hpre⟩

/-- Ancestors are folders. -/
theorem isFolder_of_mem_ancestors (h : t.WellFormed) (hm : m < t.size)
    (ha : a ∈ t.ancestors m) : t.isFolder a = true := by
  obtain ⟨hlt, hpre, hne⟩ := (h.mem_ancestors hm).mp ha
  exact h.isFolder_of_prefix hlt hm hpre hne

end WellFormed

end Tree

end EntryReport
