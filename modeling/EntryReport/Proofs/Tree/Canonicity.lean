import EntryReport.Proofs.Text.ByteOrder
import EntryReport.Proofs.Tree.Sorting
import EntryReport.Proofs.Tree.Walks

/-!
# Sorting is canonical

A sorted tree has the children of every folder in the one order of their labels. So to sort it
again changes nothing (`sort_of_sorted`), and the order does not depend on how the tree was made:
the labels of a folder's children can be read off the paths and kinds of the nodes
(`mem_labels_iff`), and from the root down these give the names on the way to each node in document
order (`map_trail_descendants`). The indices do not matter, and neither does the name of the root.

* `sorted_of_reachable`: what sorting does to a reachable tree, and that trees of the same paths and
  kinds list their paths in the same order afterwards.
-/

namespace EntryReport

namespace Tree

variable {t t' : Tree} {a b c id : Nat} {n : Node}

/-! ## Folders first, and then items -/

/-- A list in which nothing with the property comes after something without it. -/
theorem eq_filter_append_filter {α : Type} {l : List α} {p : α → Bool}
    (h : l.Pairwise fun x y => p y = true → p x = true) :
    l = l.filter p ++ l.filter (!p ·) := by
  induction l with
  | nil => rfl
  | cons x l ih =>
    obtain ⟨hx, hl⟩ := List.pairwise_cons.mp h
    by_cases hp : p x = true
    · rw [List.filter_cons_of_pos hp, List.filter_cons_of_neg (by simp [hp]), List.cons_append,
        ← ih hl]
    · have hnone : l.filter p = [] := List.filter_eq_nil_iff.mpr fun y hy hpy => hp (hx y hy hpy)
      have hall : l.filter (!p ·) = l := by
        have hself := ih hl
        rwa [hnone, List.nil_append, eq_comm] at hself
      rw [List.filter_cons_of_neg hp, List.filter_cons_of_pos (by simp [hp]), hnone, hall,
        List.nil_append]

/-- The name of one node comes before that of the other, byte by byte. -/
def NamedBefore (t : Tree) (a b : Nat) : Prop :=
  ∃ x y, t.node? a = some x ∧ t.node? b = some y ∧ Text.bytes x.name < Text.bytes y.name

theorem label_of_node? (hn : t.node? id = some n) : t.label id = (n.isFolder, n.name) := by
  rw [label_of_bare? (bare?_of_node? hn), Node.isFolder_bare, Node.name_bare]

theorem isFolder_eq_label (hid : id < t.size) : t.isFolder id = (t.label id).1 := by
  obtain ⟨n, hn⟩ := node?_eq_some_iff.mpr hid
  rw [label_of_node? hn, isFolder_of_node? hn]

/-- Of two nodes of one kind with different labels, that with the lesser name comes first. -/
theorem namedBefore_of_label (ha : a < t.size) (hb : b < t.size)
    (hle : labelLe (t.label a) (t.label b) = true) (hne : t.label a ≠ t.label b)
    (hkind : t.isFolder a = t.isFolder b) : t.NamedBefore a b := by
  obtain ⟨x, hx⟩ := node?_eq_some_iff.mpr ha
  obtain ⟨y, hy⟩ := node?_eq_some_iff.mpr hb
  rw [isFolder_of_node? hx, isFolder_of_node? hy] at hkind
  rw [label_of_node? hx, label_of_node? hy, hkind] at hle hne
  rw [labelLe, if_pos rfl, decide_eq_true_eq] at hle
  have hname : x.name ≠ y.name := fun heq => hne (by rw [heq])
  exact ⟨x, y, hx, hy, Text.bytes_lt_iff.mpr (lt_of_le_of_ne hle hname)⟩

/-- **In a sorted tree** the folders among the children come first, and folders and items go by
their names. -/
theorem WellFormed.children_of_sorted (h : t.WellFormed) (hs : t.Sorted) (id : Nat) :
    t.childrenOf id = (t.childrenOf id).filter t.isFolder ++ (t.childrenOf id).filter t.isItem ∧
      ((t.childrenOf id).filter t.isFolder).Pairwise t.NamedBefore ∧
      ((t.childrenOf id).filter t.isItem).Pairwise t.NamedBefore := by
  have hle : (t.childrenOf id).Pairwise fun a b => labelLe (t.label a) (t.label b) = true :=
    List.pairwise_map.mp (hs id)
  have hne : (t.childrenOf id).Pairwise fun a b => t.label a ≠ t.label b :=
    List.pairwise_map.mp (h.nodup_labels id)
  have hlt : ∀ c ∈ t.childrenOf id, c < t.size := fun c => h.lt_size_of_mem_children
  have hitem : (t.childrenOf id).filter t.isItem = (t.childrenOf id).filter (!t.isFolder ·) :=
    List.filter_congr fun c hc => isItem_eq_not_isFolder (hlt c hc)
  have hbefore : (t.childrenOf id).Pairwise fun a b =>
      t.isFolder a = t.isFolder b → t.NamedBefore a b := by
    refine (hle.and hne).imp_of_mem fun ha hb hab hkind => ?_
    exact namedBefore_of_label (hlt _ ha) (hlt _ hb) hab.1 hab.2 hkind
  have hof (k : Bool) : ((t.childrenOf id).filter fun c => t.isFolder c == k).Pairwise
      t.NamedBefore := by
    refine (hbefore.filter _).imp_of_mem fun ha hb hab => ?_
    have hka := eq_of_beq (List.mem_filter.mp ha).2
    have hkb := eq_of_beq (List.mem_filter.mp hb).2
    exact hab (hka.trans hkb.symm)
  refine ⟨?_, by simpa using hof true, ?_⟩
  · rw [hitem]
    refine eq_filter_append_filter (hle.imp_of_mem fun ha hb hab hfolder => ?_)
    rw [isFolder_eq_label (hlt _ hb)] at hfolder
    rw [isFolder_eq_label (hlt _ ha)]
    unfold labelLe at hab
    split at hab
    · next heq => rw [heq, hfolder]
    · exact hab
  · rw [hitem]
    simpa using hof false

/-! ## Sorting again -/

theorem mapChildren_eq_self {f : List Nat → List Nat} (hf : f n.children = n.children) :
    n.mapChildren f = n := by
  obtain ⟨name, path, parent, children | ⟨tags, i⟩⟩ := n
  · have hc : f children = children := hf
    rw [Node.mapChildren]
    simp only [hc]
  · rfl

/-- **A sorted tree stays as it is.** -/
theorem WellFormed.sort_of_sorted (h : t.WellFormed) (hs : t.Sorted) : t.sort = t := by
  have hnodes : t.nodes.map (Node.mapChildren (·.mergeSort t.mayPrecede)) = t.nodes := by
    refine (Array.map_congr_left fun n hn => ?_).trans (Array.map_id _)
    obtain ⟨id, hid⟩ := Array.mem_iff_getElem?.mp hn
    refine mapChildren_eq_self (List.mergeSort_of_pairwise ?_)
    rw [← childrenOf_of_node? (show t.node? id = some n from hid)]
    refine (List.pairwise_map.mp (hs id)).imp_of_mem fun ha hb hab => ?_
    rwa [mayPrecede_eq (h.lt_size_of_mem_children ha) (h.lt_size_of_mem_children hb)]
  obtain ⟨nodes, panels, hpos⟩ := t
  exact (Tree.mk.injEq ..).mpr ⟨hnodes, rfl⟩

theorem node?_sort_of_node? (hn : t.node? id = some n) :
    t.sort.node? id = some (n.mapChildren fun _ => t.sort.childrenOf id) := by
  rw [node?_sort, hn, Option.map_some, childrenOf_sort, childrenOf_of_node? hn]
  obtain ⟨name, path, parent, children | ⟨tags, i⟩⟩ := n <;> rfl

/-! ## Paths and kinds -/

/-- The path of each node, and whether it is a folder. -/
def kinds (t : Tree) : List (String × Bool) := t.nodes.toList.map fun n => (n.path, n.isFolder)

/-- The paths of the nodes in document order. -/
def orderedPaths (t : Tree) : List String := (t.documentOrder.filterMap t.node?).map (·.path)

/-- The tree has a node with these names on the way to it, of a kind. -/
def HasKind (t : Tree) (names : List String) (folder : Bool) : Prop :=
  ∃ id, id < t.size ∧ t.trail id = names ∧ t.isFolder id = folder

theorem hasKind_sort {names : List String} {folder : Bool} :
    t.sort.HasKind names folder ↔ t.HasKind names folder := by
  simp only [HasKind, size_sort, trail_sort, isFolder_sort]

/-- Paths and kinds say where there are nodes, and of what kind. -/
theorem WellFormed.mem_kinds_iff (h : t.WellFormed) {path : String} {folder : Bool} :
    (path, folder) ∈ t.kinds ↔ ∃ names, pathOf names = path ∧ t.HasKind names folder := by
  have hnode : (path, folder) ∈ t.kinds ↔
      ∃ id n, t.node? id = some n ∧ n.path = path ∧ n.isFolder = folder := by
    simp only [kinds, List.mem_map, Array.mem_toList_iff, Array.mem_iff_getElem?, Prod.mk.injEq]
    constructor
    · rintro ⟨n, ⟨id, hid⟩, hn⟩
      exact ⟨id, n, hid, hn⟩
    · rintro ⟨id, n, hid, hn⟩
      exact ⟨n, ⟨id, hid⟩, hn⟩
  rw [hnode]
  constructor
  · rintro ⟨id, n, hn, rfl, rfl⟩
    exact ⟨t.trail id, (h.path_of_node? hn).symm, id, lt_size_of_node? hn, rfl,
      isFolder_of_node? hn⟩
  · rintro ⟨_, rfl, id, hid, rfl, rfl⟩
    obtain ⟨n, hn⟩ := node?_eq_some_iff.mpr hid
    exact ⟨id, n, hn, h.path_of_node? hn, (isFolder_of_node? hn).symm⟩

theorem WellFormed.hasKind_of_kinds (h : t.WellFormed) (h' : t'.WellFormed)
    (hsub : t.kinds ⊆ t'.kinds) {names : List String} {folder : Bool}
    (hk : t.HasKind names folder) : t'.HasKind names folder := by
  obtain ⟨names', hpath, hk'⟩ := h'.mem_kinds_iff.mp (hsub (h.mem_kinds_iff.mpr ⟨names, rfl, hk⟩))
  have hnames : ∀ {t : Tree} {names : List String}, t.WellFormed → t.HasKind names folder →
      ∀ s ∈ names, IsName s := by
    rintro t _ hwf ⟨id, hid, rfl, -⟩
    exact hwf.isName_of_mem_trail hid
  rwa [← pathOf_inj (hnames h' hk') (hnames h hk) hpath]

/-! ## The order of a sorted tree -/

/-- The labels of a folder's children, by names and kinds. -/
theorem WellFormed.mem_labels_iff (h : t.WellFormed) (ha : a < t.size) {x : Bool × String} :
    x ∈ (t.childrenOf a).map t.label ↔ t.HasKind (t.trail a ++ [x.2]) x.1 := by
  constructor
  · intro hx
    obtain ⟨c, hc, rfl⟩ := List.mem_map.mp hx
    obtain ⟨n, hn, htrail⟩ := h.trail_of_mem_children hc
    have hlt := lt_size_of_bare? hn
    exact ⟨c, hlt, by rw [htrail, label_of_bare? hn], isFolder_eq_label hlt⟩
  · rintro ⟨c, hlt, htrail, hkind⟩
    rcases h.root_or_child hlt with rfl | ⟨n, p, hn, hp, hpc, -, hway⟩
    · rw [h.trail_root] at htrail
      exact absurd htrail (by simp)
    · rw [htrail] at hway
      obtain ⟨hap, hname⟩ := List.append_inj' hway rfl
      obtain rfl : a = p := h.trail_inj ha (hpc.trans hlt) hap
      rw [isFolder_eq_label hlt] at hkind
      refine List.mem_map.mpr ⟨c, h.mem_children_iff.mpr ⟨n, hn, hp⟩, Prod.ext hkind ?_⟩
      rw [label_of_bare? hn]
      exact (List.singleton_inj.mp hname).symm

/-- A child is one name further than its folder. -/
theorem WellFormed.map_trail_children (h : t.WellFormed) (a : Nat) :
    (t.childrenOf a).map t.trail =
      ((t.childrenOf a).map t.label).map fun x => t.trail a ++ [x.2] := by
  rw [List.map_map]
  refine List.map_congr_left fun c hc => ?_
  obtain ⟨n, hn, htrail⟩ := h.trail_of_mem_children hc
  rw [htrail, Function.comp_apply, label_of_bare? hn]

/-- Lists that are the same under two maps are put together to the same. -/
theorem flatMap_eq_of_map_eq {α β : Type} {l l' : List Nat} {f f' : Nat → α} {g g' : Nat → List β}
    (hmap : l.map f = l'.map f') (hg : ∀ x ∈ l, ∀ y ∈ l', f x = f' y → g x = g' y) :
    l.flatMap g = l'.flatMap g' := by
  induction l generalizing l' with
  | nil =>
    rw [List.map_nil, eq_comm, List.map_eq_nil_iff] at hmap
    rw [hmap]
    rfl
  | cons x l ih =>
    cases l' with
    | nil => exact absurd hmap (by simp)
    | cons y l' =>
      rw [List.map_cons, List.map_cons, List.cons.injEq] at hmap
      rw [List.flatMap_cons, List.flatMap_cons,
        hg x List.mem_cons_self y List.mem_cons_self hmap.1,
        ih hmap.2 fun x hx y hy => hg x (List.mem_cons_of_mem _ hx) y (List.mem_cons_of_mem _ hy)]

/-- **What is below nodes with the same names** comes in the same order in sorted trees. The
induction is on the number of nodes made after the first of the two, as children are made after
their folder. -/
theorem map_trail_descendants (h : t.WellFormed) (h' : t'.WellFormed) (hs : t.Sorted)
    (hs' : t'.Sorted) (hsame : ∀ names folder, t.HasKind names folder ↔ t'.HasKind names folder)
    (ha : a < t.size) (hb : b < t'.size) (hab : t.trail a = t'.trail b) :
    (t.descendants a).map t.trail = (t'.descendants b).map t'.trail := by
  induction hk : t.size - a using Nat.strongRecOn generalizing a b with
  | ind k ih =>
    have hlabels : (t.childrenOf a).map t.label = (t'.childrenOf b).map t'.label :=
      h.labels_eq h' hs hs' fun x => by
        rw [h.mem_labels_iff ha, h'.mem_labels_iff hb, hab, hsame]
    have hchildren : (t.childrenOf a).map t.trail = (t'.childrenOf b).map t'.trail := by
      rw [h.map_trail_children, h'.map_trail_children, hlabels, hab]
    rw [h.descendants_eq ha, h'.descendants_eq hb, List.map_cons, List.map_cons, hab,
      List.map_flatMap, List.map_flatMap]
    congr 1
    refine flatMap_eq_of_map_eq hchildren fun c hc d hd hcd => ?_
    -- the second node needs no bound of its own: it follows the first down
    have hlt := h.lt_size_of_mem_children hc
    have hmade := h.lt_of_mem_children hc
    exact ih (t.size - c) (by omega) hlt (h'.lt_size_of_mem_children hd) hcd rfl

theorem WellFormed.orderedPaths_eq (h : t.WellFormed) :
    t.orderedPaths = (t.documentOrder.map t.trail).map pathOf := by
  unfold orderedPaths
  rw [List.map_map, List.map_filterMap, ← List.filterMap_eq_map]
  refine List.filterMap_congr fun id hid => ?_
  obtain ⟨n, hn⟩ := node?_eq_some_iff.mpr ((mem_documentOrder h).mp hid)
  rw [hn, Option.map_some, h.path_of_node? hn]
  rfl

/-- **Trees with the same paths and kinds** list their paths in the same order once they are
sorted. -/
theorem WellFormed.orderedPaths_sort_eq (h : t.WellFormed) (h' : t'.WellFormed)
    (hsame : ∀ x, x ∈ t.kinds ↔ x ∈ t'.kinds) : t.sort.orderedPaths = t'.sort.orderedPaths := by
  have hkinds : ∀ names folder, t.sort.HasKind names folder ↔ t'.sort.HasKind names folder := by
    intro names folder
    rw [hasKind_sort, hasKind_sort]
    exact ⟨h.hasKind_of_kinds h' fun x => (hsame x).mp,
      h'.hasKind_of_kinds h fun x => (hsame x).mpr⟩
  rw [h.sort.orderedPaths_eq, h'.sort.orderedPaths_eq]
  congr 1
  refine map_trail_descendants h.sort h'.sort h.sorted_sort h'.sorted_sort hkinds h.sort.root_lt
    h'.sort.root_lt ?_
  rw [h.sort.trail_root, h'.sort.trail_root]

/-! ## What holds of all reachable trees -/

/-- What comes of a tree when it is sorted. -/
structure SortedInto (t t' : Tree) : Prop where
  /-- Every folder has the children that it had. -/
  children : ∀ id, (t'.childrenOf id).Perm (t.childrenOf id)
  /-- Folders come first, in strictly ascending order of their names, and then items in theirs. -/
  order : ∀ id, ∃ folders items, t'.childrenOf id = folders ++ items ∧
    (∀ f ∈ folders, t'.isFolder f = true) ∧ (∀ i ∈ items, t'.isItem i = true) ∧
    folders.Pairwise t'.NamedBefore ∧ items.Pairwise t'.NamedBefore
  /-- Nothing else is changed in a node. -/
  node : ∀ {id n}, t.node? id = some n →
    t'.node? id = some (n.mapChildren fun _ => t'.childrenOf id)
  /-- There are no other nodes. -/
  size : t'.size = t.size
  /-- The panels are not changed. -/
  panels : t'.panels = t.panels
  /-- To sort again changes nothing. -/
  again : t'.sort = t'

theorem WellFormed.sortedInto (h : t.WellFormed) : t.SortedInto t.sort where
  children id := by
    rw [childrenOf_sort]
    exact List.mergeSort_perm _ _
  order id := by
    obtain ⟨heq, hfolders, hitems⟩ := h.sort.children_of_sorted h.sorted_sort id
    exact ⟨_, _, heq, fun f hf => (List.mem_filter.mp hf).2, fun i hi => (List.mem_filter.mp hi).2,
      hfolders, hitems⟩
  node := node?_sort_of_node?
  size := size_sort
  panels := panels_sort
  again := h.sort.sort_of_sorted h.sorted_sort

/-- **There is one sorted form.** Sorting puts the children of every folder in order and changes
nothing else, and after it any two reachable trees with the same paths and kinds list their paths in
the same order, however they were made. -/
theorem sorted_of_reachable (hr : Reachable t) : t.SortedInto t.sort ∧
    ∀ {t'}, Reachable t' → (∀ x, x ∈ t.kinds ↔ x ∈ t'.kinds) →
      t.sort.orderedPaths = t'.sort.orderedPaths :=
  ⟨hr.settled.wellFormed.sortedInto, fun hr' hsame =>
    hr.settled.wellFormed.orderedPaths_sort_eq hr'.settled.wellFormed hsame⟩

/-- The entries in another order, with one that is rejected, sorted in between and under another
root. -/
theorem sorted_after_detours :
    Reachable (((new "r").add { name := "b/d" }).1.add { name := "a" }).1 ∧
    Reachable ((((new "s").add { name := "a" }).1.add { name := "a/d" }).1.sort.add
      { name := "/b/d" }).1 ∧
    (((new "r").add { name := "b/d" }).1.add { name := "a" }).1.sort.orderedPaths =
      ((((new "s").add { name := "a" }).1.add { name := "a/d" }).1.sort.add
        { name := "/b/d" }).1.sort.orderedPaths := by
  have hr := ((reachable_new "r").step (.add _ { name := "b/d" })).step (.add _ { name := "a" })
  have hr' := ((((reachable_new "s").step (.add _ { name := "a" })).step
    (.add _ { name := "a/d" })).step (.sort _)).step (.add _ { name := "/b/d" })
  have hperm : (((new "r").add { name := "b/d" }).1.add { name := "a" }).1.kinds.Perm
      ((((new "s").add { name := "a" }).1.add { name := "a/d" }).1.sort.add
        { name := "/b/d" }).1.kinds := by decide +kernel
  exact ⟨hr, hr', (sorted_of_reachable hr).2 hr' fun _ => hperm.mem_iff⟩

end Tree

end EntryReport
