/-!
# Sets of nodes

A node of a tree is known by its index, a number. A `NodeSet` is an ascending list of indices
without repetitions, so that two sets with the same members are equal.

* `mem_insert`, `mem_erase`: what the operations do to the members;
* `ext`: sets with the same members are equal.
-/

namespace EntryReport

/-- A set of nodes, in ascending order. -/
structure NodeSet where
  ids : List Nat
  ascending : ids.Pairwise (· < ·) := by simp

namespace NodeSet

/-- No node. -/
def empty : NodeSet := ⟨[], List.Pairwise.nil⟩

instance : Membership Nat NodeSet := ⟨fun s n => n ∈ s.ids⟩

theorem mem_def {s : NodeSet} {n : Nat} : n ∈ s ↔ n ∈ s.ids := Iff.rfl

instance (n : Nat) (s : NodeSet) : Decidable (n ∈ s) := inferInstanceAs (Decidable (n ∈ s.ids))

/-- Puts `n` into an ascending list. -/
def insertId (n : Nat) : List Nat → List Nat
  | [] => [n]
  | m :: ms => if n < m then n :: m :: ms else if n = m then m :: ms else m :: insertId n ms

theorem mem_insertId {n k : Nat} {ms : List Nat} :
    k ∈ insertId n ms ↔ k = n ∨ k ∈ ms := by
  induction ms with
  | nil => simp [insertId]
  | cons m ms ih =>
    simp only [insertId]
    split
    · simp
    · split
      · next h => subst h; simp
      · simp only [List.mem_cons, ih]
        exact ⟨fun h => h.elim (fun h => .inr (.inl h)) (Or.imp_right .inr), fun h =>
          h.elim (fun h => .inr (.inl h)) (Or.imp_right .inr)⟩

theorem pairwise_insertId {n : Nat} {ms : List Nat} (h : ms.Pairwise (· < ·)) :
    (insertId n ms).Pairwise (· < ·) := by
  induction ms with
  | nil => simp [insertId]
  | cons m ms ih =>
    obtain ⟨hm, hs⟩ := List.pairwise_cons.mp h
    simp only [insertId]
    split
    · next hn =>
      refine List.pairwise_cons.mpr ⟨fun k hk => ?_, h⟩
      rcases List.mem_cons.mp hk with rfl | hk
      · exact hn
      · exact Nat.lt_trans hn (hm k hk)
    · split
      · exact h
      · refine List.pairwise_cons.mpr ⟨fun k hk => ?_, ih hs⟩
        rcases mem_insertId.mp hk with rfl | hk
        · omega
        · exact hm k hk

/-- The set with `n`. -/
def insert (s : NodeSet) (n : Nat) : NodeSet :=
  ⟨insertId n s.ids, pairwise_insertId s.ascending⟩

/-- The set without `n`. -/
def erase (s : NodeSet) (n : Nat) : NodeSet :=
  ⟨s.ids.filter (· ≠ n), s.ascending.filter _⟩

/-- The set with all of a list of nodes. -/
def insertAll (s : NodeSet) (ns : List Nat) : NodeSet :=
  ns.foldl insert s

/-- The nodes of a list. -/
def ofList (ns : List Nat) : NodeSet :=
  empty.insertAll ns

theorem not_mem_empty {k : Nat} : k ∉ empty := by
  simp [mem_def, empty]

@[simp] theorem mem_insert {s : NodeSet} {n k : Nat} : k ∈ s.insert n ↔ k = n ∨ k ∈ s :=
  mem_insertId

@[simp] theorem mem_erase {s : NodeSet} {n k : Nat} : k ∈ s.erase n ↔ k ∈ s ∧ k ≠ n := by
  simp [mem_def, erase]

@[simp] theorem mem_insertAll {s : NodeSet} {ns : List Nat} {k : Nat} :
    k ∈ s.insertAll ns ↔ k ∈ s ∨ k ∈ ns := by
  induction ns generalizing s with
  | nil => simp [insertAll]
  | cons n ns ih =>
    rw [insertAll, List.foldl_cons, ← insertAll, ih, mem_insert, List.mem_cons]
    exact ⟨fun h => by grind, fun h => by grind⟩

@[simp] theorem mem_ofList {ns : List Nat} {k : Nat} : k ∈ ofList ns ↔ k ∈ ns := by
  simp [ofList, not_mem_empty]

/-- Sets with the same members are equal. -/
theorem ext {s s' : NodeSet} (h : ∀ n, n ∈ s ↔ n ∈ s') : s = s' := by
  have hnodup (r : NodeSet) : r.ids.Nodup := r.ascending.imp Nat.ne_of_lt
  have hperm : s.ids.Perm s'.ids := (List.perm_ext_iff_of_nodup (hnodup s) (hnodup s')).mpr h
  have hids : s.ids = s'.ids := hperm.eq_of_pairwise
    (fun _ _ _ _ hlt hgt => absurd (Nat.lt_trans hlt hgt) (Nat.lt_irrefl _)) s.ascending s'.ascending
  cases s
  cases s'
  cases hids
  rfl

end NodeSet

end EntryReport
