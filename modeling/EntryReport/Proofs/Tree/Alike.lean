import EntryReport.Proofs.Tree.Building
import EntryReport.Proofs.Tree.Sorting
import Mathlib.Data.List.Forall2

/-!
# Trees that differ in their indices only

Two trees are `Alike` if they have nodes with the same trails, which are the same but for their
indices, with their children in order, and if they have the same panels. `Same` pairs a node of one
tree with the node of the other that has the same trail. All walks keep step with each other: the
nodes that they meet in the one tree and in the other are the same, in the same order.

* `alike_of_perm`: sorted trees of the same entries are alike, in whatever order the entries were
  added.
-/

namespace EntryReport

namespace Tree

variable {t₁ t₂ : Tree} {a b limit : Nat} {path : String}

/-- The nodes have the same place, each in its tree. -/
structure Same (t₁ t₂ : Tree) (a b : Nat) : Prop where
  left : a < t₁.size
  right : b < t₂.size
  trail : t₁.trail a = t₂.trail b

/-- The trees are the same but for the indices of their nodes. -/
structure Alike (t₁ t₂ : Tree) : Prop where
  left : t₁.WellFormed
  right : t₂.WellFormed
  sorted_left : t₁.Sorted
  sorted_right : t₂.Sorted
  has : ∀ names, t₁.Has names ↔ t₂.Has names
  node : ∀ {a b x y}, Same t₁ t₂ a b → t₁.bare? a = some x → t₂.bare? b = some y →
    x.name = y.name ∧ x.isFolder = y.isFolder ∧ x.tags = y.tags
  panel? : ∀ id, t₁.panel? id = t₂.panel? id

theorem Same.symm (h : Same t₁ t₂ a b) : Same t₂ t₁ b a := ⟨h.right, h.left, h.trail.symm⟩

namespace Alike

theorem symm (h : Alike t₁ t₂) : Alike t₂ t₁ where
  left := h.right
  right := h.left
  sorted_left := h.sorted_right
  sorted_right := h.sorted_left
  has names := (h.has names).symm
  node hab hx hy := by
    obtain ⟨hname, hfolder, htags⟩ := h.node hab.symm hy hx
    exact ⟨hname.symm, hfolder.symm, htags.symm⟩
  panel? id := (h.panel? id).symm

/-! ## Pairs of nodes -/

theorem exists_same (h : Alike t₁ t₂) (ha : a < t₁.size) : ∃ b, Same t₁ t₂ a b := by
  obtain ⟨b, hb, htrail⟩ := (h.has (t₁.trail a)).mp ⟨a, ha, rfl⟩
  exact ⟨b, ha, hb, htrail.symm⟩

theorem same_root (h : Alike t₁ t₂) : Same t₁ t₂ root root :=
  ⟨h.left.root_lt, h.right.root_lt, by rw [h.left.trail_root, h.right.trail_root]⟩

theorem eq_iff (h : Alike t₁ t₂) {a' b' : Nat} (hab : Same t₁ t₂ a b) (hab' : Same t₁ t₂ a' b') :
    a = a' ↔ b = b' := by
  constructor
  · intro heq
    exact h.right.trail_inj hab.right hab'.right (by rw [← hab.trail, heq, hab'.trail])
  · intro heq
    exact h.left.trail_inj hab.left hab'.left (by rw [hab.trail, heq, hab'.trail])

theorem biUnique (h : Alike t₁ t₂) : Relator.BiUnique (Same t₁ t₂) :=
  ⟨fun _ _ _ hab hab' => (h.eq_iff hab hab').mpr rfl,
    fun _ _ _ hab hab' => (h.eq_iff hab hab').mp rfl⟩

/-- Lists of the same nodes have the same members. -/
theorem mem_iff (h : Alike t₁ t₂) {l₁ l₂ : List Nat} (hab : Same t₁ t₂ a b)
    (hl : List.Forall₂ (Same t₁ t₂) l₁ l₂) : a ∈ l₁ ↔ b ∈ l₂ :=
  List.rel_mem h.biUnique hab hl

/-- **Nodes in the same place** show the same. -/
theorem node_eq (h : Alike t₁ t₂) {x y : Node} (hab : Same t₁ t₂ a b) (hx : t₁.node? a = some x)
    (hy : t₂.node? b = some y) :
    x.name = y.name ∧ x.path = y.path ∧ x.isFolder = y.isFolder ∧ x.tags = y.tags := by
  have hpath : x.bare.path = y.bare.path := by
    rw [h.left.path (bare?_of_node? hx), h.right.path (bare?_of_node? hy), hab.trail]
  obtain ⟨hname, hfolder, htags⟩ := h.node hab (bare?_of_node? hx) (bare?_of_node? hy)
  simp only [Node.name_bare, Node.path_bare, Node.isFolder_bare, Node.tags_bare] at *
  exact ⟨hname, hpath, hfolder, htags⟩

theorem isFolder_eq (h : Alike t₁ t₂) (hab : Same t₁ t₂ a b) : t₁.isFolder a = t₂.isFolder b := by
  obtain ⟨x, hx⟩ := exists_bare? hab.left
  obtain ⟨y, hy⟩ := exists_bare? hab.right
  rw [Tree.isFolder_eq, Tree.isFolder_eq, hx, hy]
  exact (h.node hab hx hy).2.1

theorem isItem_eq (h : Alike t₁ t₂) (hab : Same t₁ t₂ a b) : t₁.isItem a = t₂.isItem b := by
  rw [isItem_eq_not_isFolder hab.left, isItem_eq_not_isFolder hab.right, h.isFolder_eq hab]

/-- Trees that are alike have the same number of nodes. -/
theorem size_eq (h : Alike t₁ t₂) : t₁.size = t₂.size := by
  have hnodup : ∀ {t : Tree}, t.WellFormed → ((List.range t.size).map t.trail).Nodup := fun hwf =>
    List.nodup_range.map_on fun a ha b hb =>
      hwf.trail_inj (List.mem_range.mp ha) (List.mem_range.mp hb)
  have hmem : ∀ {t : Tree} {names}, names ∈ (List.range t.size).map t.trail ↔ t.Has names := by
    simp [Has]
  have hperm : ((List.range t₁.size).map t₁.trail).Perm ((List.range t₂.size).map t₂.trail) := by
    refine (List.perm_ext_iff_of_nodup (hnodup h.left) (hnodup h.right)).mpr fun names => ?_
    rw [hmem, hmem, h.has]
  simpa using hperm.length_eq

theorem label_eq (h : Alike t₁ t₂) (hab : Same t₁ t₂ a b) : t₁.label a = t₂.label b := by
  obtain ⟨x, hx⟩ := exists_bare? hab.left
  obtain ⟨y, hy⟩ := exists_bare? hab.right
  obtain ⟨hname, hfolder, -⟩ := h.node hab hx hy
  rw [label_of_bare? hx, label_of_bare? hy, hname, hfolder]

/-! ## Up and down -/

/-- The parents of nodes that are the same are the same. -/
theorem parent? (h : Alike t₁ t₂) (hab : Same t₁ t₂ a b) :
    Option.Rel (Same t₁ t₂) (t₁.parent? a) (t₂.parent? b) := by
  rw [parent?_eq, parent?_eq]
  have htrail := hab.trail
  rcases h.left.root_or_child hab.left with rfl | ⟨x, p, hx, hp, hpa, -, hat⟩
  · obtain rfl : b = root := (h.eq_iff hab h.same_root).mp rfl
    obtain ⟨_, hx⟩ := h.left.at_root
    obtain ⟨_, hy⟩ := h.right.at_root
    rw [hx, hy]
    exact Option.Rel.none
  · rcases h.right.root_or_child hab.right with rfl | ⟨y, q, hy, hq, hqb, -, hbt⟩
    · rw [hat, h.right.trail_root] at htrail
      exact absurd htrail (by simp)
    · rw [hat, hbt] at htrail
      rw [hx, hy, Option.bind_some, Option.bind_some, hp, hq]
      exact Option.Rel.some
        ⟨hpa.trans hab.left, hqb.trans hab.right, (List.append_inj' htrail rfl).1⟩

/-- The node that is the same as a child is a child. -/
theorem mem_children_iff (h : Alike t₁ t₂) {c d : Nat} (hab : Same t₁ t₂ a b)
    (hcd : Same t₁ t₂ c d) : c ∈ t₁.childrenOf a ↔ d ∈ t₂.childrenOf b := by
  have hparent := h.parent? hcd
  rw [h.left.mem_children, h.right.mem_children]
  cases hp : t₁.parent? c <;> cases hq : t₂.parent? d <;> rw [hp, hq] at hparent <;> cases hparent
  · simp
  · next hpq =>
    rw [Option.some.injEq, Option.some.injEq]
    exact h.eq_iff hpq hab

theorem label_mem (h : Alike t₁ t₂) (hab : Same t₁ t₂ a b) {x : Bool × String}
    (hx : x ∈ (t₁.childrenOf a).map t₁.label) : x ∈ (t₂.childrenOf b).map t₂.label := by
  obtain ⟨c, hc, rfl⟩ := List.mem_map.mp hx
  obtain ⟨d, hcd⟩ := h.exists_same (h.left.lt_size_of_mem_children hc)
  rw [h.label_eq hcd]
  exact List.mem_map_of_mem ((h.mem_children_iff hab hcd).mp hc)

/-- **Children come in the same order.** -/
theorem forall₂_children (h : Alike t₁ t₂) (hab : Same t₁ t₂ a b) :
    List.Forall₂ (Same t₁ t₂) (t₁.childrenOf a) (t₂.childrenOf b) := by
  have hlabels := h.left.labels_eq h.right h.sorted_left h.sorted_right fun x =>
    ⟨h.label_mem hab, h.symm.label_mem hab.symm⟩
  have hlabel : List.Forall₂ (fun c d => t₁.label c = t₂.label d) (t₁.childrenOf a)
      (t₂.childrenOf b) := by
    rw [← List.forall₂_eq_eq_eq, List.forall₂_map_left_iff, List.forall₂_map_right_iff] at hlabels
    exact hlabels
  rw [List.forall₂_iff_zip] at hlabel ⊢
  refine ⟨hlabel.1, fun {c d} hzip => ?_⟩
  have hcd := hlabel.2 hzip
  obtain ⟨hc, hd⟩ := List.of_mem_zip hzip
  obtain ⟨x, hx, hxt⟩ := h.left.trail_of_mem_children hc
  obtain ⟨y, hy, hyt⟩ := h.right.trail_of_mem_children hd
  rw [label_of_bare? hx, label_of_bare? hy, Prod.mk.injEq] at hcd
  exact ⟨lt_size_of_bare? hx, lt_size_of_bare? hy, by rw [hxt, hyt, hab.trail, hcd.2]⟩

/-! ## Walks -/

/-- **The walks down keep step**, from stacks of the same nodes. -/
theorem forall₂_visit (h : Alike t₁ t₂) {s₁ s₂ : List Nat}
    (hs : List.Forall₂ (Same t₁ t₂) s₁ s₂) :
    List.Forall₂ (Same t₁ t₂) (t₁.visit limit s₁) (t₂.visit limit s₂) := by
  induction limit generalizing s₁ s₂ with
  | zero => exact List.Forall₂.nil
  | succ limit ih =>
    cases hs with
    | nil => exact List.Forall₂.nil
    | cons hab hs => exact List.Forall₂.cons hab (ih (List.rel_append (h.forall₂_children hab) hs))

theorem forall₂_descendants (h : Alike t₁ t₂) (hab : Same t₁ t₂ a b) :
    List.Forall₂ (Same t₁ t₂) (t₁.descendants a) (t₂.descendants b) := by
  unfold descendants
  rw [h.size_eq]
  exact h.forall₂_visit (List.Forall₂.cons hab List.Forall₂.nil)

theorem forall₂_documentOrder (h : Alike t₁ t₂) :
    List.Forall₂ (Same t₁ t₂) t₁.documentOrder t₂.documentOrder :=
  h.forall₂_descendants h.same_root

/-- Lists of the same nodes are filtered in the same way. -/
theorem forall₂_filter {p q : Nat → Bool} {l₁ l₂ : List Nat}
    (hpq : ∀ {a b}, Same t₁ t₂ a b → p a = q b) (hl : List.Forall₂ (Same t₁ t₂) l₁ l₂) :
    List.Forall₂ (Same t₁ t₂) (l₁.filter p) (l₂.filter q) :=
  List.rel_filter (fun _ _ hab => Bool.eq_iff_iff.mp (hpq hab)) hl

theorem forall₂_folders (h : Alike t₁ t₂) :
    List.Forall₂ (Same t₁ t₂) t₁.folders t₂.folders :=
  forall₂_filter h.isFolder_eq h.forall₂_documentOrder

theorem forall₂_itemsUnder (h : Alike t₁ t₂) (hab : Same t₁ t₂ a b) :
    List.Forall₂ (Same t₁ t₂) (t₁.itemsUnder a) (t₂.itemsUnder b) :=
  forall₂_filter h.isItem_eq (h.forall₂_descendants hab)

/-- **The walks up keep step.** -/
theorem forall₂_climb (h : Alike t₁ t₂) {o₁ o₂ : Option Nat} (ho : Option.Rel (Same t₁ t₂) o₁ o₂) :
    List.Forall₂ (Same t₁ t₂) (t₁.climb limit o₁) (t₂.climb limit o₂) := by
  induction limit generalizing o₁ o₂ with
  | zero => exact List.Forall₂.nil
  | succ limit ih =>
    cases ho with
    | none => exact List.Forall₂.nil
    | some hab => exact List.Forall₂.cons hab (ih (h.parent? hab))

theorem forall₂_ancestors (h : Alike t₁ t₂) (hab : Same t₁ t₂ a b) :
    List.Forall₂ (Same t₁ t₂) (t₁.ancestors a) (t₂.ancestors b) := by
  unfold ancestors
  rw [h.size_eq]
  exact h.forall₂_climb (h.parent? hab)

/-- A path finds the same node in both trees. -/
theorem find? (h : Alike t₁ t₂) (path : String) :
    Option.Rel (Same t₁ t₂) (t₁.find? path) (t₂.find? path) := by
  cases ha : t₁.find? path with
  | none =>
    cases hb : t₂.find? path with
    | none => exact Option.Rel.none
    | some b =>
      obtain ⟨hlt, htrail⟩ := h.right.find?_eq_some_iff.mp hb
      obtain ⟨a, hab⟩ := h.symm.exists_same hlt
      have hfound := h.left.find?_eq_some_iff.mpr ⟨hab.right, hab.trail.symm.trans htrail⟩
      rw [ha] at hfound
      exact absurd hfound (by simp)
  | some a =>
    obtain ⟨hlt, htrail⟩ := h.left.find?_eq_some_iff.mp ha
    obtain ⟨b, hab⟩ := h.exists_same hlt
    rw [h.right.find?_eq_some_iff.mpr ⟨hab.right, hab.trail.symm.trans htrail⟩]
    exact Option.Rel.some hab

end Alike

/-! ## Trees of the same entries -/

variable {r : String} {es₁ es₂ : List Entry}

theorem Holds.isItem_of_perm (h₁ : t₁.Holds r es₁) (h₂ : t₂.Holds r es₂) (hp : es₁.Perm es₂)
    (hab : Same t₁ t₂ a b) : t₁.isItem a = t₂.isItem b := by
  rw [Bool.eq_iff_iff, h₁.isItem_iff hab.left, h₂.isItem_iff hab.right, hab.trail]
  simp only [hp.mem_iff]

theorem Holds.name_of_perm (h₁ : t₁.Holds r es₁) (h₂ : t₂.Holds r es₂) {x y : Node}
    (hab : Same t₁ t₂ a b) (hx : t₁.bare? a = some x) (hy : t₂.bare? b = some y) :
    x.name = y.name := by
  have hwf₁ := h₁.settled.wellFormed
  have hwf₂ := h₂.settled.wellFormed
  have htrail := hab.trail
  rcases hwf₁.root_or_child hab.left with rfl | ⟨x', p, hx', -, -, -, hat⟩
  · rw [hwf₁.trail_root, eq_comm, hwf₂.trail_eq_nil_iff hab.right] at htrail
    subst htrail
    rw [h₁.at_root] at hx
    rw [h₂.at_root] at hy
    cases hx
    cases hy
    rfl
  · rcases hwf₂.root_or_child hab.right with rfl | ⟨y', q, hy', -, -, -, hbt⟩
    · rw [hat, hwf₂.trail_root] at htrail
      exact absurd htrail (by simp)
    · cases hx.symm.trans hx'
      cases hy.symm.trans hy'
      rw [hat, hbt] at htrail
      exact List.singleton_inj.mp (List.append_inj' htrail rfl).2

/-- An item has the tags of its panel, and the panels are those of the entries. -/
theorem Holds.tags_of_perm (h₁ : t₁.Holds r es₁) (h₂ : t₂.Holds r es₂) (hp : es₁.Perm es₂)
    {x y : Node} (hab : Same t₁ t₂ a b) (hx : t₁.bare? a = some x) (hy : t₂.bare? b = some y) :
    x.tags = y.tags := by
  have hitem := h₁.isItem_of_perm h₂ hp hab
  cases hi : t₁.isItem a with
  | false =>
    rw [hi] at hitem
    rw [tags_eq_of_not_isItem hx hi, tags_eq_of_not_isItem hy hitem.symm]
  | true =>
    rw [hi] at hitem
    obtain ⟨d, hd, hid, htags⟩ := h₁.settled.panel_of_item hx hi
    obtain ⟨d', hd', hid', htags'⟩ := h₂.settled.panel_of_item hy hitem.symm
    have hd₂ : d ∈ t₂.panels.toList := by
      rw [h₁.panels] at hd
      rw [h₂.panels]
      exact (hp.map _).subset hd
    have hsame : d = d' := h₂.settled.panel_unique hd₂ hd' (by rw [hid, hid', hab.trail])
    rw [← htags, ← htags', hsame]

/-- The nodes in the same place are the same, because the entries are. -/
theorem Holds.node_of_perm (h₁ : t₁.Holds r es₁) (h₂ : t₂.Holds r es₂) (hp : es₁.Perm es₂)
    {x y : Node} (hab : Same t₁ t₂ a b) (hx : t₁.bare? a = some x) (hy : t₂.bare? b = some y) :
    x.name = y.name ∧ x.isFolder = y.isFolder ∧ x.tags = y.tags := by
  refine ⟨h₁.name_of_perm h₂ hab hx hy, ?_, h₁.tags_of_perm h₂ hp hab hx hy⟩
  have hitem := h₁.isItem_of_perm h₂ hp hab
  rw [isItem_eq_not_isFolder hab.left, isItem_eq_not_isFolder hab.right, isFolder_eq, isFolder_eq,
    hx, hy] at hitem
  simpa using hitem

/-- **The order of the entries shows in the indices only.** -/
theorem alike_of_perm (h₁ : t₁.Holds r es₁) (h₂ : t₂.Holds r es₂) (hp : es₁.Perm es₂)
    (hs₁ : t₁.Sorted) (hs₂ : t₂.Sorted) : Alike t₁ t₂ where
  left := h₁.settled.wellFormed
  right := h₂.settled.wellFormed
  sorted_left := hs₁
  sorted_right := hs₂
  has names := by
    rw [h₁.has_iff, h₂.has_iff]
    simp only [hp.mem_iff]
  node := h₁.node_of_perm h₂ hp
  panel? id := by
    refine Option.ext fun d => ?_
    rw [h₁.settled.panel?_eq_some_iff, h₂.settled.panel?_eq_some_iff, h₁.panels, h₂.panels,
      (hp.map _).mem_iff]

end Tree

end EntryReport
