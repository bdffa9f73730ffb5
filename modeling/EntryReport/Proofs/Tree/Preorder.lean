import EntryReport.Proofs.Tree.Ancestors
import EntryReport.Proofs.Tree.Traversal

/-!
# Document order by recursion

`documentOrder` works off a stack. On a well-formed tree it is the `preorder` of the root: a node,
and then the preorder of each of its children (`documentOrder_eq`). Each child is one level deeper
than its parent (`depth_child`), because `depth` is the number of names on the way to a node.
-/

namespace EntryReport

namespace Tree

variable {t : Tree} {id m limit : Nat}

/-- A node and everything below it, down to `limit` levels, a node before its children. -/
def preorder (t : Tree) : (limit : Nat) → Nat → List Nat
  | 0, id => [id]
  | limit + 1, id => id :: (t.childrenOf id).flatMap (t.preorder limit)

namespace WellFormed

/-- A child was made after its parent. -/
theorem lt_of_mem_children (h : t.WellFormed) (hc : m ∈ t.childrenOf id) : id < m := by
  obtain ⟨n, hn, hp⟩ := h.mem_children_iff.mp hc
  exact (h.of_parent hn hp).1

/-! ## Down -/

theorem visit_nil (t : Tree) (limit : Nat) : t.visit limit [] = [] := by
  cases limit <;> rfl

/-- A walk meets the node on top of the stack with all that is below it, and goes on from there. The
limit is enough if it counts the nodes made since that node. -/
theorem visit_preorder (h : t.WellFormed) (hid : id < t.size) (hlimit : t.size ≤ limit + id)
    (steps : Nat) (stack : List Nat) :
    t.visit ((t.preorder limit id).length + steps) (id :: stack) =
      t.preorder limit id ++ t.visit steps stack := by
  induction limit generalizing id steps stack with
  | zero => omega
  | succ limit ih =>
    have hchildren (cs : List Nat) (hcs : ∀ c ∈ cs, c ∈ t.childrenOf id) :
        t.visit ((cs.flatMap (t.preorder limit)).length + steps) (cs ++ stack) =
          cs.flatMap (t.preorder limit) ++ t.visit steps stack := by
      induction cs with
      | nil => simp
      | cons c cs ihcs =>
        rw [List.forall_mem_cons] at hcs
        have hlt := h.lt_of_mem_children hcs.1
        rw [List.flatMap_cons, List.length_append, Nat.add_assoc, List.cons_append,
          ih (h.lt_size_of_mem_children hcs.1) (by omega), ihcs hcs.2, List.append_assoc]
    rw [preorder, List.length_cons, Nat.add_right_comm, visit, hchildren _ fun c hc => hc,
      List.cons_append]

/-- **Document order is the preorder of the root.** -/
theorem documentOrder_eq (h : t.WellFormed) : t.documentOrder = t.preorder t.size root := by
  have hwalk (steps : Nat) :
      t.visit ((t.preorder t.size root).length + steps) [root] = t.preorder t.size root := by
    rw [h.visit_preorder h.root_lt (Nat.le_add_right _ _), visit_nil, List.append_nil]
  -- no node is met twice, so that there are steps enough
  have hlength : (t.preorder t.size root).length ≤ t.size := by
    have hs := stacked_singleton h.root_lt
    have hsub : t.preorder t.size root ⊆ List.range t.size := by
      intro m hm
      rw [← hwalk 0] at hm
      exact List.mem_range.mpr (of_mem_visit h hs hm).1
    have hnodup : (t.preorder t.size root).Nodup := hwalk 0 ▸ nodup_visit h hs
    simpa using (List.subperm_of_subset hnodup hsub).length_le
  obtain ⟨steps, hsteps⟩ := Nat.exists_eq_add_of_le hlength
  rw [documentOrder, descendants]
  conv_lhs => rw [hsteps]
  exact hwalk steps

/-- All nodes are below the root, each once. -/
theorem perm_preorder (h : t.WellFormed) :
    (t.preorder t.size root).Perm (List.range t.size) := by
  rw [← h.documentOrder_eq]
  exact perm_documentOrder h

/-! ## Up -/

theorem length_climb (h : t.WellFormed) (hid : id < t.size) (hlimit : id < limit) :
    (t.climb limit (some id)).length = (t.trail id).length + 1 := by
  induction limit generalizing id with
  | zero => omega
  | succ limit ih =>
    rw [climb, List.length_cons]
    rcases h.root_or_child hid with rfl | ⟨n, p, hn, hp, hlt, -, htrail⟩
    · obtain ⟨_, hr⟩ := h.at_root
      rw [parent?_eq, hr, Option.bind_some, climb_none, h.trail_root]
      rfl
    · rw [parent?_eq, hn, Option.bind_some, hp, ih (hlt.trans hid) (by omega), htrail]
      simp

/-- The depth of a node is the number of names on the way to it. -/
theorem depth_eq (h : t.WellFormed) (hid : id < t.size) : t.depth id = (t.trail id).length := by
  unfold depth ancestors
  rcases h.root_or_child hid with rfl | ⟨n, p, hn, hp, hlt, -, htrail⟩
  · obtain ⟨_, hr⟩ := h.at_root
    rw [parent?_eq, hr, Option.bind_some, climb_none, h.trail_root]
    rfl
  · rw [parent?_eq, hn, Option.bind_some, hp, h.length_climb (hlt.trans hid) (hlt.trans hid),
      htrail]
    simp

theorem depth_root (h : t.WellFormed) : t.depth root = 0 := by
  rw [h.depth_eq h.root_lt, h.trail_root]
  rfl

/-- **A child is one level deeper than its parent.** -/
theorem depth_child (h : t.WellFormed) (hc : m ∈ t.childrenOf id) : t.depth m = t.depth id + 1 := by
  obtain ⟨n, -, htrail⟩ := h.trail_of_mem_children hc
  have hm := h.lt_size_of_mem_children hc
  have hid := (h.lt_of_mem_children hc).trans hm
  rw [h.depth_eq hm, h.depth_eq hid, htrail]
  simp

end WellFormed

end Tree

end EntryReport
