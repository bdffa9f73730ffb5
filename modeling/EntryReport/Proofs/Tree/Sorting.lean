import EntryReport.Proofs.Tree.WellFormed
import Mathlib.Data.List.Nodup
import Mathlib.Data.String.Basic

/-!
# Sorted trees

Children are sorted by their `label`: whether they are folders, and their names. Siblings have
different names, and so the labels of a folder's children are in one order only
(`WellFormed.labels_eq`).
-/

namespace EntryReport

namespace Tree

variable {t t' : Tree} {id p a b : Nat} {n : Node}

/-! ## Labels -/

/-- What a node is sorted by among its siblings. -/
def label (t : Tree) (id : Nat) : Bool × String :=
  match t.bare? id with
  | some n => (n.isFolder, n.name)
  | none => (false, "")

/-- Folders come before items, and each by name. -/
def labelLe (a b : Bool × String) : Bool := if a.1 = b.1 then a.2 ≤ b.2 else a.1

theorem label_of_bare? (h : t.bare? id = some n) : t.label id = (n.isFolder, n.name) := by
  unfold label
  rw [h]

@[simp] theorem label_sort : t.sort.label id = t.label id := by
  unfold label
  rw [bare?_sort]

theorem labelLe_trans (a b c : Bool × String) (hab : labelLe a b) (hbc : labelLe b c) :
    labelLe a c := by
  obtain ⟨af, an⟩ := a
  obtain ⟨bf, bn⟩ := b
  obtain ⟨cf, cn⟩ := c
  have htrans := @le_trans _ _ an bn cn
  cases af <;> cases bf <;> cases cf <;> simp_all [labelLe]

theorem labelLe_total (a b : Bool × String) : labelLe a b || labelLe b a := by
  obtain ⟨af, an⟩ := a
  obtain ⟨bf, bn⟩ := b
  have htotal := le_total an bn
  cases af <;> cases bf <;> simp_all [labelLe]

theorem labelLe_antisymm (a b : Bool × String) (hab : labelLe a b) (hba : labelLe b a) :
    a = b := by
  obtain ⟨af, an⟩ := a
  obtain ⟨bf, bn⟩ := b
  have hanti := @le_antisymm _ _ an bn
  cases af <;> cases bf <;> simp_all [labelLe]

theorem mayPrecede_eq (ha : a < t.size) (hb : b < t.size) :
    t.mayPrecede a b = labelLe (t.label a) (t.label b) := by
  obtain ⟨x, hx⟩ := node?_eq_some_iff.mpr ha
  obtain ⟨y, hy⟩ := node?_eq_some_iff.mpr hb
  unfold mayPrecede labelLe
  rw [label_of_bare? (bare?_of_node? hx), label_of_bare? (bare?_of_node? hy), hx, hy]
  simp only [Node.isFolder_bare, Node.name_bare]

/-! ## Sorted children -/

/-- The children of every folder are in order. -/
def Sorted (t : Tree) : Prop := ∀ p, ((t.childrenOf p).map t.label).Pairwise (labelLe · ·)

theorem WellFormed.sorted_sort (h : t.WellFormed) : t.sort.Sorted := by
  intro p
  have hle : ∀ a ∈ t.childrenOf p, ∀ b ∈ t.childrenOf p,
      t.mayPrecede a b = labelLe (t.label a) (t.label b) := fun a ha b hb =>
    mayPrecede_eq (h.lt_size_of_mem_children ha) (h.lt_size_of_mem_children hb)
  have hlabel : t.sort.label = t.label := funext fun _ => label_sort
  rw [childrenOf_sort, hlabel, List.map_mergeSort hle]
  exact List.pairwise_mergeSort labelLe_trans labelLe_total _

/-- Siblings have different labels. -/
theorem WellFormed.nodup_labels (h : t.WellFormed) (p : Nat) :
    ((t.childrenOf p).map t.label).Nodup := by
  refine (h.nodup_children p).map_on fun a ha b hb hab => ?_
  obtain ⟨x, hx, hxp⟩ := h.mem_children_iff.mp ha
  obtain ⟨y, hy, hyp⟩ := h.mem_children_iff.mp hb
  rw [label_of_bare? hx, label_of_bare? hy, Prod.mk.injEq] at hab
  exact h.siblings hx hy (hxp.trans hyp.symm) hab.2

/-- **There is one order only.** -/
theorem WellFormed.labels_eq (h : t.WellFormed) (h' : t'.WellFormed) (hs : t.Sorted)
    (hs' : t'.Sorted)
    (hmem : ∀ x, x ∈ (t.childrenOf a).map t.label ↔ x ∈ (t'.childrenOf b).map t'.label) :
    (t.childrenOf a).map t.label = (t'.childrenOf b).map t'.label := by
  have hperm : ((t.childrenOf a).map t.label).Perm ((t'.childrenOf b).map t'.label) :=
    (List.perm_ext_iff_of_nodup (h.nodup_labels a) (h'.nodup_labels b)).mpr hmem
  exact hperm.eq_of_pairwise (fun x y _ _ => labelLe_antisymm x y) (hs a) (hs' b)

end Tree

end EntryReport
