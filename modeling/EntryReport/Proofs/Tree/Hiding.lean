import EntryReport.Tree.Filter
import EntryReport.Proofs.Tree.Ancestors
import EntryReport.Proofs.Tree.Building

/-!
# What the criteria hide

`hidden` goes through the folders and adds to one set, so that an item is judged once for each
folder that it is in. What one folder adds (`mem_hideUnder`) does not depend on the set so far; over
a whole run an item is hidden if it does not match, whatever folder it was met in, and a folder if
it is not shown (`WellFormed.mem_hidden`).

* `hides_of_reachable`: in a reachable tree items decide about the folders above them, and folders
  about the folder that they are in, because no folder but the root is without items.
-/

namespace EntryReport

/-! ## Criteria -/

namespace Criteria

variable {c : Criteria} {tags : Tags} {name : String}

/-- An item that the criteria do not accept fails one of the conditions that are set. -/
theorem accepts_eq_false_iff : c.accepts tags name = false ↔
    c.warnings = true ∧ tags.hasWarning = false ∨ c.errors = true ∧ tags.hasError = false ∨
      c.search ≠ "" ∧ ¬ c.search.toList <:+: (Text.lowercase name).toList := by
  have hempty : c.search.isEmpty = true ↔ c.search = "" := String.isEmpty_iff
  rw [← Bool.not_eq_true, accepts, finds]
  simp only [Bool.and_eq_true, Bool.or_eq_true, Text.occursIn_iff, hempty, Bool.not_eq_true',
    ← Bool.not_eq_true]
  tauto

/-- Criteria that are not active accept everything. -/
theorem active_of_accepts_eq_false (h : c.accepts tags name = false) : c.active = true := by
  rcases accepts_eq_false_iff.mp h with ⟨hw, -⟩ | ⟨he, -⟩ | ⟨hs, -⟩
  · simp [active, hw]
  · simp [active, he]
  · simp [active, hs]

end Criteria

namespace Tree

variable {t : Tree} {c : Criteria} {empty : EmptyFolders} {hidden : NodeSet} {id m k : Nat}
  {n : Node} {folders : List Nat}

/-! ## One folder, and all of them -/

/-- **What one folder adds.** -/
theorem mem_hideUnder : k ∈ t.hideUnder c empty hidden id ↔
    k ∈ hidden ∨ (k ∈ t.itemsUnder id ∧ t.matching c k = false) ∨
      (k = id ∧ t.showsFolder c empty id = false) := by
  unfold hideUnder
  cases hs : t.showsFolder c empty id with
  | true => simp
  | false =>
    simp only [Bool.false_eq_true, if_false, NodeSet.mem_insert, NodeSet.mem_insertAll,
      List.mem_filter, Bool.not_eq_true']
    tauto

/-- **What all folders add**, one after the other. -/
theorem mem_foldl_hideUnder : k ∈ folders.foldl (t.hideUnder c empty) hidden ↔
    k ∈ hidden ∨ ∃ f ∈ folders, (k ∈ t.itemsUnder f ∧ t.matching c k = false) ∨
      (k = f ∧ t.showsFolder c empty f = false) := by
  induction folders generalizing hidden with
  | nil => simp
  | cons f folders ih =>
    rw [List.foldl_cons, ih, mem_hideUnder, List.exists_mem_cons_iff, or_assoc]

/-- A node is hidden if it is an item that does not match, or a folder that is not shown. -/
theorem WellFormed.mem_hidden (h : t.WellFormed) : k ∈ t.hidden c empty ↔
    (t.isItem k = true ∧ t.matching c k = false) ∨
      (t.isFolder k = true ∧ t.showsFolder c empty k = false) := by
  rw [Tree.hidden, mem_foldl_hideUnder, or_iff_right NodeSet.not_mem_empty]
  constructor
  · rintro ⟨f, hf, ⟨hk, hno⟩ | ⟨rfl, hno⟩⟩
    · rw [mem_folders h] at hf
      exact Or.inl ⟨((mem_itemsUnder h (lt_size_of_isFolder hf)).mp hk).1, hno⟩
    · exact Or.inr ⟨(mem_folders h).mp hf, hno⟩
  · rintro (⟨hk, hno⟩ | ⟨hk, hno⟩)
    · -- every item is below the root
      exact ⟨root, (mem_folders h).mpr h.isFolder_root, Or.inl ⟨(mem_items h).mpr hk, hno⟩⟩
    · exact ⟨k, (mem_folders h).mpr hk, Or.inr ⟨rfl, hno⟩⟩

/-! ## Items and the folders above them -/

/-- The node is an item, and the folder is one of its ancestors. -/
def ItemBelow (t : Tree) (m id : Nat) : Prop := t.isItem m = true ∧ id ∈ t.ancestors m

namespace WellFormed

theorem mem_hidden_of_item (h : t.WellFormed) (hk : t.isItem k = true) :
    k ∈ t.hidden c empty ↔ t.matching c k = false := by
  simp [h.mem_hidden, hk, isFolder_eq_false hk]

/-- An item is hidden if its tags and its name are not accepted. -/
theorem mem_hidden_iff_rejected (h : t.WellFormed) (hn : t.node? k = some n)
    (hi : n.isItem = true) : k ∈ t.hidden c empty ↔ c.accepts n.tags n.name = false := by
  have hitem : t.isItem k = true := by rw [isItem_of_node? hn, hi]
  rw [h.mem_hidden_of_item hitem, matching, hn, Option.any_some, hi, Bool.true_and]

theorem mem_hidden_of_folder (h : t.WellFormed) (hk : t.isFolder k = true) :
    k ∈ t.hidden c empty ↔ t.showsFolder c empty k = false := by
  simp [h.mem_hidden, hk, isItem_eq_false hk]

/-- The items that are counted for a folder are those that it is an ancestor of. -/
theorem mem_itemsUnder_iff (h : t.WellFormed) (hf : t.isFolder id = true) :
    m ∈ t.itemsUnder id ↔ t.ItemBelow m id := by
  have hid := lt_size_of_isFolder hf
  rw [mem_itemsUnder h hid, ItemBelow]
  refine and_congr_right fun hm => ?_
  rw [h.mem_ancestors (lt_size_of_isItem hm)]
  refine ⟨fun hpre => ⟨hid, hpre, ?_⟩, fun hanc => hanc.2.1⟩
  rintro rfl
  rw [isItem_eq_false hf] at hm
  exact absurd hm (by simp)

/-- A hidden item shows that a condition is set. -/
theorem active_of_hidden_item (h : t.WellFormed) (hm : t.isItem m = true)
    (hid : m ∈ t.hidden c empty) : c.active = true := by
  obtain ⟨n, hn⟩ := node?_eq_some_iff.mpr (lt_size_of_isItem hm)
  rw [h.mem_hidden_of_item hm, matching, hn, Option.any_some, ← isItem_of_node? hn, hm,
    Bool.true_and] at hid
  exact Criteria.active_of_accepts_eq_false hid

/-- **A folder with items** goes with them. -/
theorem mem_hidden_of_items (h : t.WellFormed) (hf : t.isFolder id = true)
    (hsome : ∃ m, t.ItemBelow m id) :
    id ∈ t.hidden c empty ↔ c.active = true ∧ ∀ m, t.ItemBelow m id → m ∈ t.hidden c empty := by
  have hshows : t.showsFolder c empty id = (!c.active || (t.itemsUnder id).any (t.matching c)) := by
    unfold showsFolder
    cases hitems : t.itemsUnder id with
    | nil =>
      obtain ⟨m, hm⟩ := hsome
      rw [← h.mem_itemsUnder_iff hf, hitems] at hm
      exact absurd hm List.not_mem_nil
    | cons _ _ => rfl
  rw [h.mem_hidden_of_folder hf, hshows, Bool.or_eq_false_iff, Bool.not_eq_false',
    List.any_eq_false]
  refine and_congr_right fun _ => forall_congr' fun m => ?_
  rw [h.mem_itemsUnder_iff hf]
  exact forall_congr' fun hm => by rw [h.mem_hidden_of_item hm.1, Bool.not_eq_true]

/-- **A folder without items** goes with the criteria and the policy. -/
theorem mem_hidden_of_no_items (h : t.WellFormed) (hf : t.isFolder id = true)
    (hnone : ¬ ∃ m, t.ItemBelow m id) :
    id ∈ t.hidden c empty ↔ c.active = true ∨ empty = .hidden := by
  have hitems : t.itemsUnder id = [] := by
    refine List.eq_nil_iff_forall_not_mem.mpr fun m hm => ?_
    exact hnone ⟨m, (h.mem_itemsUnder_iff hf).mp hm⟩
  rw [h.mem_hidden_of_folder hf, showsFolder, hitems]
  cases c.active <;> cases empty <;> simp

end WellFormed

/-! ## Reachable trees -/

/-- Every folder but the root has an item below it. -/
theorem Settled.exists_itemBelow (h : t.Settled) (hf : t.isFolder id = true) (hr : id ≠ root) :
    ∃ m, t.ItemBelow m id := by
  obtain ⟨m, hm⟩ := List.exists_mem_of_ne_nil _ (h.itemsUnder_ne_nil hf hr)
  exact ⟨m, (h.wellFormed.mem_itemsUnder_iff hf).mp hm⟩

/-- What is below a child is below its parent. -/
theorem WellFormed.itemBelow_of_child (h : t.WellFormed) (hk : k ∈ t.childrenOf id)
    (hm : t.isItem m = true) (hpre : t.trail k <+: t.trail m) : t.ItemBelow m id := by
  obtain ⟨x, hx, hp⟩ := h.mem_children_iff.mp hk
  obtain ⟨y, -, htrail⟩ := h.trail_of_mem_children hk
  have hf := (h.of_parent hx hp).2
  have hbelow : t.trail id <+: t.trail m :=
    (htrail ▸ List.prefix_append _ _ : t.trail id <+: t.trail k).trans hpre
  rw [← h.mem_itemsUnder_iff hf, mem_itemsUnder h (lt_size_of_isFolder hf)]
  exact ⟨hm, hbelow⟩

/-- **A folder goes with its children.** -/
theorem Settled.mem_hidden_iff_children (h : t.Settled) (hne : t.childrenOf id ≠ []) :
    id ∈ t.hidden c empty ↔ ∀ k ∈ t.childrenOf id, k ∈ t.hidden c empty := by
  have hwf := h.wellFormed
  obtain ⟨k₀, hk₀⟩ := List.exists_mem_of_ne_nil _ hne
  have hf : t.isFolder id = true := by
    obtain ⟨x, hx, hp⟩ := hwf.mem_children_iff.mp hk₀
    exact (hwf.of_parent hx hp).2
  -- a child is an item, or a folder with items, as it is not the root
  have hchild : ∀ k ∈ t.childrenOf id, t.isItem k = true ∨
      (t.isFolder k = true ∧ ∃ m, t.ItemBelow m k) := by
    intro k hk
    obtain ⟨x, hx, hp⟩ := hwf.mem_children_iff.mp hk
    have hitem := isItem_eq_not_isFolder (lt_size_of_bare? hx)
    cases hfk : t.isFolder k with
    | false => exact Or.inl (by rw [hitem, hfk]; rfl)
    | true => exact Or.inr ⟨rfl, h.exists_itemBelow hfk (hwf.ne_root_of_parent hx hp)⟩
  have hbelow : ∀ k ∈ t.childrenOf id, ∀ m, t.ItemBelow m k → t.ItemBelow m id :=
    fun k hk m hm => hwf.itemBelow_of_child hk hm.1
      ((hwf.mem_ancestors (lt_size_of_isItem hm.1)).mp hm.2).2.1
  have hself : ∀ k ∈ t.childrenOf id, t.isItem k = true → t.ItemBelow k id :=
    fun k hk hi => hwf.itemBelow_of_child hk hi List.prefix_rfl
  have hsome : ∃ m, t.ItemBelow m id := by
    rcases hchild k₀ hk₀ with hi | ⟨-, m, hm⟩
    · exact ⟨k₀, hself k₀ hk₀ hi⟩
    · exact ⟨m, hbelow k₀ hk₀ m hm⟩
  rw [hwf.mem_hidden_of_items hf hsome]
  constructor
  · rintro ⟨hactive, hall⟩ k hk
    rcases hchild k hk with hi | ⟨hfk, hsk⟩
    · exact hall k (hself k hk hi)
    · exact (hwf.mem_hidden_of_items hfk hsk).mpr
        ⟨hactive, fun m hm => hall m (hbelow k hk m hm)⟩
  · intro hall
    constructor
    · rcases hchild k₀ hk₀ with hi | ⟨hfk, hsk⟩
      · exact hwf.active_of_hidden_item hi (hall k₀ hk₀)
      · exact ((hwf.mem_hidden_of_items hfk hsk).mp (hall k₀ hk₀)).1
    · intro m hm
      -- the item is the child on the way to it, or is below that child
      have hmlt := lt_size_of_isItem hm.1
      obtain ⟨hidlt, hpre, hne'⟩ := (hwf.mem_ancestors hmlt).mp hm.2
      obtain ⟨k, hk, hkm⟩ := ((hwf.prefix_trail_iff hidlt hmlt).mp hpre).resolve_left hne'.symm
      by_cases hmk : k = m
      · exact hmk ▸ hall k hk
      · have hklt := hwf.lt_size_of_mem_children hk
        have hfk := hwf.isFolder_of_prefix hklt hmlt hkm hmk
        have hmb : t.ItemBelow m k := ⟨hm.1, (hwf.mem_ancestors hmlt).mpr ⟨hklt, hkm, hmk⟩⟩
        exact ((hwf.mem_hidden_of_items hfk ⟨m, hmb⟩).mp (hall k hk)).2 m hmb

/-- In a tree with items nothing is hidden but by criteria. -/
theorem Settled.active_of_mem_hidden (h : t.Settled) (hpos : 0 < t.itemCount)
    (hk : k ∈ t.hidden c empty) : c.active = true := by
  have hwf := h.wellFormed
  rcases hwf.mem_hidden.mp hk with ⟨hi, -⟩ | ⟨hf, -⟩
  · exact hwf.active_of_hidden_item hi hk
  · have hsome : ∃ m, t.ItemBelow m k := by
      by_cases hr : k = root
      · obtain ⟨m, x, tags, hx, hxk⟩ := h.described.item hpos
        have hm : t.isItem m = true := isItem_iff.mpr ⟨x, tags, 0, hx, hxk⟩
        rw [hr]
        exact ⟨m, (hwf.mem_itemsUnder_iff hwf.isFolder_root).mp ((mem_items hwf).mpr hm)⟩
      · exact h.exists_itemBelow hf hr
    exact ((hwf.mem_hidden_of_items hf hsome).mp hk).1

/-- The policy is about folders without items; there is none but the root of a tree without any. -/
theorem Settled.mem_hidden_of_policy (h : t.Settled) (hpos : 0 < t.itemCount)
    (other : EmptyFolders) : k ∈ t.hidden c empty ↔ k ∈ t.hidden c other := by
  have hiff : ∀ p, k ∈ t.hidden c p ↔ (t.isItem k = true ∧ t.matching c k = false) ∨
      (t.isFolder k = true ∧ c.active = true ∧ t.showsFolder c p k = false) := by
    intro p
    rw [h.wellFormed.mem_hidden]
    refine or_congr_right (and_congr_right fun hf => (and_iff_right_of_imp fun hno => ?_).symm)
    exact h.active_of_mem_hidden hpos ((h.wellFormed.mem_hidden_of_folder hf).mpr hno)
  rw [hiff, hiff]
  refine or_congr_right (and_congr_right fun hf => and_congr_right fun hactive => ?_)
  unfold showsFolder
  rw [hactive]
  rfl

/-- What the criteria and the policy hide. -/
structure Hides (t : Tree) (c : Criteria) (empty : EmptyFolders) : Prop where
  /-- Only nodes of the tree are hidden. -/
  node : ∀ {id}, id ∈ t.hidden c empty → id < t.size
  /-- An item is hidden if it fails a condition that is set. -/
  item : ∀ {id n}, t.node? id = some n → n.isItem = true → (id ∈ t.hidden c empty ↔
    c.warnings = true ∧ n.tags.hasWarning = false ∨ c.errors = true ∧ n.tags.hasError = false ∨
      c.search ≠ "" ∧ ¬ c.search.toList <:+: (Text.lowercase n.name).toList)
  /-- A folder with items is hidden if the criteria are active and hide all of these. -/
  folder : ∀ {id}, t.isFolder id = true → (∃ m, t.ItemBelow m id) → (id ∈ t.hidden c empty ↔
    c.active = true ∧ ∀ m, t.ItemBelow m id → m ∈ t.hidden c empty)
  /-- A folder without items is hidden by any criteria, or by the policy. -/
  no_items : ∀ {id}, t.isFolder id = true → (¬ ∃ m, t.ItemBelow m id) → (id ∈ t.hidden c empty ↔
    c.active = true ∨ empty = .hidden)
  /-- What is above an item that is shown is shown. -/
  above : ∀ {m a}, t.isItem m = true → m ∉ t.hidden c empty → a ∈ t.ancestors m →
    a ∉ t.hidden c empty
  /-- A folder with children is hidden if all of these are. -/
  children : ∀ {id}, t.childrenOf id ≠ [] →
    (id ∈ t.hidden c empty ↔ ∀ k ∈ t.childrenOf id, k ∈ t.hidden c empty)
  /-- In a tree with items nothing is hidden as long as no condition is set. -/
  inactive : 0 < t.itemCount → c.active = false → ∀ id, id ∉ t.hidden c empty
  /-- The policy matters for a tree without items only. -/
  policy : 0 < t.itemCount → ∀ other id, id ∈ t.hidden c empty ↔ id ∈ t.hidden c other

/-- **What is hidden** in a reachable tree. -/
theorem hides_of_reachable (hr : Reachable t) (c : Criteria) (empty : EmptyFolders) :
    t.Hides c empty := by
  have h := hr.settled
  have hwf := h.wellFormed
  constructor
  case node =>
    intro id hid
    rcases hwf.mem_hidden.mp hid with ⟨hi, -⟩ | ⟨hf, -⟩
    · exact lt_size_of_isItem hi
    · exact lt_size_of_isFolder hf
  case item =>
    intro id n hn hi
    have hitem : t.isItem id = true := by rw [isItem_of_node? hn, hi]
    rw [hwf.mem_hidden_of_item hitem, matching, hn, Option.any_some, hi, Bool.true_and,
      Criteria.accepts_eq_false_iff]
  case folder => exact fun hf hsome => hwf.mem_hidden_of_items hf hsome
  case no_items => exact fun hf hnone => hwf.mem_hidden_of_no_items hf hnone
  case above =>
    intro m a hm hshown ha hhidden
    have hf := hwf.isFolder_of_mem_ancestors (lt_size_of_isItem hm) ha
    exact hshown (((hwf.mem_hidden_of_items hf ⟨m, hm, ha⟩).mp hhidden).2 m ⟨hm, ha⟩)
  case children => exact fun hne => h.mem_hidden_iff_children hne
  case inactive =>
    intro hpos hno id hid
    rw [h.active_of_mem_hidden hpos hid] at hno
    exact absurd hno (by simp)
  case policy => exact fun hpos other id => h.mem_hidden_of_policy hpos other

/-- A folder whose only item has no error. -/
theorem hides_without_errors :
    Reachable ((new "r").add { name := "a/b" }).1 ∧
      1 ∈ ((new "r").add { name := "a/b" }).1.hidden ⟨false, true, ""⟩ .shown := by
  have hr := (reachable_new "r").step (.add _ { name := "a/b" })
  have hides := hides_of_reachable hr ⟨false, true, ""⟩ .shown
  have hitem : 2 ∈ ((new "r").add { name := "a/b" }).1.hidden ⟨false, true, ""⟩ .shown :=
    (hides.item rfl rfl).mpr (Or.inr (Or.inl ⟨rfl, rfl⟩))
  have hchildren : ((new "r").add { name := "a/b" }).1.childrenOf 1 = [2] := rfl
  refine ⟨hr, (hides.children (by rw [hchildren]; simp)).mpr fun k hk => ?_⟩
  rw [hchildren, List.mem_singleton] at hk
  rwa [hk]

end Tree

end EntryReport
