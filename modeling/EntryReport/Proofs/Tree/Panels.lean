import EntryReport.Proofs.Tree.Finding
import Mathlib.Data.List.Nodup

/-!
# Items and panels, one for one

Every item has a panel and every panel has an item. So the ids of the panels are all different
(`nodup_panelIds`), and the panels of the items in document order are all panels, each once
(`perm_panels`). An item is made together with its panel, so that both are in the same order
(`Reachable.panelIds_eq`).
-/

namespace EntryReport

namespace Tree

variable {t t' : Tree} {id a b : Nat} {d : Panel} {s : String}

/-- **The ids of the panels are all different.** -/
theorem Settled.nodup_panelIds (h : t.Settled) : (t.panels.toList.map (·.id)).Nodup := by
  rw [List.nodup_iff_pairwise_ne, List.pairwise_map, List.pairwise_iff_getElem]
  intro i j hi hj hlt hid
  have hij := h.panel_index_inj (List.getElem?_eq_getElem hi) (List.getElem?_eq_getElem hj) hid
  omega

/-- A text is the id of a panel if it is the path of an item. -/
theorem Settled.mem_panelIds_iff (h : t.Settled) : s ∈ t.panels.toList.map (·.id) ↔
    ∃ id n, t.node? id = some n ∧ n.isItem = true ∧ n.path = s := by
  rw [← h.isSome_panel?_iff, Option.isSome_iff_exists, List.mem_map]
  exact exists_congr fun d => h.panel?_eq_some_iff.symm

/-- Items with the same panel are the same. -/
theorem Settled.panelOf?_inj (h : t.Settled) (ha : t.isItem a = true) (hb : t.isItem b = true)
    (hab : t.panelOf? a = t.panelOf? b) : a = b := by
  obtain ⟨x, hx⟩ := node?_eq_some_iff.mpr (lt_size_of_isItem ha)
  obtain ⟨y, hy⟩ := node?_eq_some_iff.mpr (lt_size_of_isItem hb)
  rw [isItem_of_node? hx] at ha
  rw [isItem_of_node? hy] at hb
  obtain ⟨d, hd, -, hdx⟩ := h.panelOf?_of_isItem hx ha
  obtain ⟨d', hd', -, hdy⟩ := h.panelOf?_of_isItem hy hb
  rw [hd, hd', Option.some.injEq] at hab
  refine h.wellFormed.path_inj (bare?_of_node? hx) (bare?_of_node? hy) ?_
  rw [Node.path_bare, Node.path_bare, ← hdx, ← hdy, hab]

/-- A panel of the tree is the panel of an item. -/
theorem Settled.mem_panels_iff (h : t.Settled) :
    d ∈ t.panels.toList ↔ ∃ id, t.isItem id = true ∧ t.panelOf? id = some d := by
  constructor
  · intro hd
    have hid : d.id ∈ t.panels.toList.map (·.id) := List.mem_map_of_mem hd
    obtain ⟨id, n, hn, hi, hpath⟩ := h.mem_panelIds_iff.mp hid
    refine ⟨id, by rwa [isItem_of_node? hn], ?_⟩
    rw [← h.panel?_path hn hi, h.panel?_eq_some_iff]
    exact ⟨hd, hpath.symm⟩
  · rintro ⟨id, hi, hd⟩
    obtain ⟨n, hn⟩ := node?_eq_some_iff.mpr (lt_size_of_isItem hi)
    rw [isItem_of_node? hn] at hi
    obtain ⟨d', hd', hmem, -⟩ := h.panelOf?_of_isItem hn hi
    rw [hd, Option.some.injEq] at hd'
    rwa [hd']

/-- **The panels of the items are all panels**, each once. -/
theorem Settled.perm_panels (h : t.Settled) :
    (t.items.map t.panelOf?).Perm (t.panels.toList.map some) := by
  have hitems : t.items.Nodup := (nodup_descendants h.wellFormed h.wellFormed.root_lt).filter _
  have hpanels : t.panels.toList.Nodup := h.nodup_panelIds.of_map
  have hsome : (t.panels.toList.map some).Nodup := hpanels.map fun _ _ => Option.some.inj
  refine (List.perm_ext_iff_of_nodup (hitems.map_on ?_) hsome).mpr ?_
  · intro a ha b hb hab
    exact h.panelOf?_inj ((mem_items h.wellFormed).mp ha) ((mem_items h.wellFormed).mp hb) hab
  · intro d?
    simp only [List.mem_map, mem_items h.wellFormed, h.mem_panels_iff]
    constructor
    · rintro ⟨id, hi, rfl⟩
      obtain ⟨n, hn⟩ := node?_eq_some_iff.mpr (lt_size_of_isItem hi)
      have hi' := hi
      rw [isItem_of_node? hn] at hi'
      obtain ⟨d, hd, -⟩ := h.panelOf?_of_isItem hn hi'
      exact ⟨d, ⟨id, hi, hd⟩, hd.symm⟩
    · rintro ⟨d, ⟨id, hi, hd⟩, rfl⟩
      exact ⟨id, hi, hd⟩

/-- The path of an item. -/
def itemPath? (t : Tree) (id : Nat) : Option String :=
  ((t.node? id).filter (·.isItem)).map (·.path)

/-- The paths of the items in the order in which they were made. -/
def itemPaths (t : Tree) : List String :=
  (List.range t.size).filterMap t.itemPath?

theorem itemPath?_eq : t.itemPath? id = ((t.bare? id).filter (·.isItem)).map (·.path) := by
  rw [itemPath?, bare?]
  cases t.node? id with
  | none => rfl
  | some n => cases hi : n.isItem <;> simp [Option.filter_some, hi]

theorem itemPath?_eq_some_iff :
    t.itemPath? id = some s ↔ ∃ n, t.node? id = some n ∧ n.isItem = true ∧ n.path = s := by
  simp only [itemPath?, Option.map_eq_some_iff, Option.filter_eq_some_iff, and_assoc]

/-- Items have different paths. -/
theorem WellFormed.itemPath?_inj (h : t.WellFormed) (ha : t.itemPath? a = some s)
    (hb : t.itemPath? b = some s) : a = b := by
  obtain ⟨x, hx, -, hxs⟩ := itemPath?_eq_some_iff.mp ha
  obtain ⟨y, hy, -, hys⟩ := itemPath?_eq_some_iff.mp hb
  refine h.path_inj (bare?_of_node? hx) (bare?_of_node? hy) ?_
  rw [Node.path_bare, Node.path_bare, hxs, hys]

theorem mem_itemPaths :
    s ∈ t.itemPaths ↔ ∃ id n, t.node? id = some n ∧ n.isItem = true ∧ n.path = s := by
  simp only [itemPaths, List.mem_filterMap, List.mem_range, itemPath?_eq_some_iff]
  constructor
  · rintro ⟨id, -, h⟩
    exact ⟨id, h⟩
  · rintro ⟨id, n, hn, h⟩
    exact ⟨id, lt_size_of_node? hn, n, hn, h⟩

/-- The paths of the items are the ids of the panels, each once. -/
theorem Settled.perm_itemPaths (h : t.Settled) :
    t.itemPaths.Perm (t.panels.toList.map (·.id)) := by
  have hnodup : t.itemPaths.Nodup := List.nodup_range.filterMap fun a b s ha hb =>
    h.wellFormed.itemPath?_inj ha hb
  refine (List.perm_ext_iff_of_nodup hnodup h.nodup_panelIds).mpr fun s => ?_
  rw [mem_itemPaths, h.mem_panelIds_iff]

theorem itemPaths_sort : t.sort.itemPaths = t.itemPaths := by
  have hpath : t.sort.itemPath? = t.itemPath? := by
    funext id
    rw [itemPath?_eq, bare?_sort, ← itemPath?_eq]
  rw [itemPaths, hpath, size_sort, itemPaths]

/-- While a tree grows, new items come after those that it had. -/
theorem Extends.exists_itemPaths (h : Extends t t') : ∃ more, t'.itemPaths = t.itemPaths ++ more := by
  have hold : (List.range t.size).filterMap t'.itemPath? = t.itemPaths := by
    refine List.filterMap_congr fun id hid => ?_
    rw [itemPath?_eq, h.bare id (List.mem_range.mp hid), ← itemPath?_eq]
  have hrange : List.range t'.size = List.range t.size ++
      (List.range (t'.size - t.size)).map (t.size + ·) := by
    rw [← List.range_add, Nat.add_sub_cancel' h.size_le]
  exact ⟨_, by rw [itemPaths, hrange, List.filterMap_append, hold]⟩

/-- **One operation** keeps items and panels in the same order. -/
theorem Settled.panelIds_step (h : t.Settled) (hs : Step t t')
    (heq : t.panels.toList.map (·.id) = t.itemPaths) :
    t'.panels.toList.map (·.id) = t'.itemPaths := by
  cases hs with
  | sort => rw [panels_sort, heq, itemPaths_sort]
  | add e =>
    rcases h.add_cases e with ⟨err, hr⟩ | ⟨t', id, ha, hr⟩
    · rw [hr]
      exact heq
    · rw [hr]
      have hids : t'.panels.toList.map (·.id) = t.itemPaths ++ [e.panel.id] := by
        rw [ha.panels, Array.toList_push, List.map_append, heq, List.map_singleton]
      -- there is one panel more, so that there is one item more, at the end
      obtain ⟨more, hmore⟩ := ha.keeps.exists_itemPaths
      have hperm := (h.of_added ha).perm_itemPaths
      rw [hids, hmore, List.perm_append_left_iff, List.perm_singleton] at hperm
      rw [hids, hmore, hperm]

/-- **The panels are in the order of the items.** -/
theorem Reachable.panelIds_eq (hr : t.Reachable) :
    t.panels.toList.map (·.id) = t.itemPaths := by
  obtain ⟨rootName, hrun⟩ := hr
  suffices h : t.Settled ∧ t.panels.toList.map (·.id) = t.itemPaths from h.2
  induction hrun with
  | refl => exact ⟨settled_new rootName, rfl⟩
  | tail _ hs ih => exact ⟨ih.1.step hs, ih.1.panelIds_step hs ih.2⟩

end Tree

end EntryReport
