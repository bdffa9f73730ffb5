import EntryReport.Tree.Build
import EntryReport.Proofs.Tree.Reachable
import EntryReport.Proofs.Tree.Traversal

/-!
# Which entries a tree takes

A tree `Holds` entries if it is settled and its panels are theirs. Its nodes are then known: they
are the root and what is on the way to an entry (`Holds.has_iff`), and the entries themselves are
the items (`Holds.exists_item_iff`). So it is known what `add` does to it: it takes an entry that
`Fits` and no other (`Holds.add_cases`).

* `build_takes_fitting`: `build` takes an entry if it fits with those taken before it, accounts for
  all others, and its tree is made of the entries taken.
* `ofEntries_cases`: `ofEntries` succeeds if no entry is on the way to another.
-/

namespace EntryReport

namespace Tree

variable {t t' : Tree} {r : String} {es : List Entry} {e : Entry} {id : Nat} {n : Node} {d : Panel}
  {names : List String}

/-! ## Items and their panels -/

theorem tags_eq_of_not_isItem (hn : t.bare? id = some n) (hi : t.isItem id = false) :
    n.tags = {} := by
  obtain ⟨name, path, parent, children | ⟨tags, i⟩⟩ := n
  · rfl
  · rw [isItem_eq, hn] at hi
    exact absurd hi (by simp [Node.isItem, Node.isFolder])

/-- An item has a panel with its path and its tags. -/
theorem Settled.panel_of_item (h : t.Settled) (hn : t.bare? id = some n)
    (hi : t.isItem id = true) :
    ∃ d ∈ t.panels.toList, d.id = pathOf (t.trail id) ∧ d.tags = n.tags := by
  obtain ⟨m, tags, i, hm, hk⟩ := isItem_iff.mp hi
  rw [hn, Option.some.injEq] at hm
  subst hm
  obtain ⟨d, hd, hid, -, htags⟩ := h.described.panel hn hk
  refine ⟨d, List.mem_of_getElem? (by rwa [Array.getElem?_toList]), ?_, ?_⟩
  · rw [hid, h.wellFormed.path hn]
  · unfold Node.tags
    rw [htags, hk]

/-- A panel belongs to an item. -/
theorem Settled.item_of_panel (h : t.Settled) {i : Nat} (hd : t.panels.toList[i]? = some d) :
    ∃ id n tags, t.bare? id = some n ∧ n.kind = .item tags i ∧ d.id = pathOf (t.trail id) := by
  rw [Array.getElem?_toList] at hd
  obtain ⟨id, n, tags, hn, hk⟩ := h.described.item (Array.getElem?_eq_some_iff.mp hd).1
  obtain ⟨d', hd', hid, -⟩ := h.described.panel hn hk
  rw [hd, Option.some.injEq] at hd'
  exact ⟨id, n, tags, hn, hk, by rw [hd', hid, h.wellFormed.path hn]⟩

/-- Panels with the same id are at the same place. -/
theorem Settled.panel_index_inj (h : t.Settled) {i j : Nat} {d' : Panel}
    (hi : t.panels.toList[i]? = some d) (hj : t.panels.toList[j]? = some d') (hid : d.id = d'.id) :
    i = j := by
  obtain ⟨a, x, u, hx, hxk, ha⟩ := h.item_of_panel hi
  obtain ⟨b, y, v, hy, hyk, hb⟩ := h.item_of_panel hj
  have hab : a = b := h.wellFormed.path_inj hx hy
    (by rw [h.wellFormed.path hx, h.wellFormed.path hy, ← ha, ← hb, hid])
  rw [← hab, hx, Option.some.injEq] at hy
  rw [← hy, hxk, NodeKind.item.injEq] at hyk
  exact hyk.2

/-- No two panels have the same id. -/
theorem Settled.panel_unique (h : t.Settled) {d' : Panel} (hd : d ∈ t.panels.toList)
    (hd' : d' ∈ t.panels.toList) (hid : d.id = d'.id) : d = d' := by
  obtain ⟨i, hi⟩ := List.mem_iff_getElem?.mp hd
  obtain ⟨j, hj⟩ := List.mem_iff_getElem?.mp hd'
  rw [h.panel_index_inj hi hj hid, hj, Option.some.injEq] at hi
  exact hi.symm

theorem Settled.panel?_eq_some_iff (h : t.Settled) {s : String} :
    t.panel? s = some d ↔ d ∈ t.panels.toList ∧ d.id = s := by
  unfold panel?
  rw [← Array.find?_toList]
  constructor
  · intro hfound
    exact ⟨List.mem_of_find?_eq_some hfound, by simpa using List.find?_some hfound⟩
  · rintro ⟨hd, hid⟩
    cases hfound : t.panels.toList.find? fun p => p.id = s with
    | none => exact absurd (List.find?_eq_none.mp hfound d hd) (by simpa using hid)
    | some d' =>
      have hid' : d'.id = s := by simpa using List.find?_some hfound
      rw [h.panel_unique hd (List.mem_of_find?_eq_some hfound) (hid.trans hid'.symm)]

/-! ## Trees and their entries -/

/-- The tree has the entries for items, in the order in which they were added. -/
structure Holds (t : Tree) (rootName : String) (es : List Entry) : Prop where
  settled : t.Settled
  at_root : t.bare? root = some ⟨rootName, "/", none, .folder []⟩
  panels : t.panels.toList = es.map Entry.panel

theorem holds_new (rootName : String) : (new rootName).Holds rootName [] :=
  ⟨settled_new rootName, bare?_new, rfl⟩

theorem Holds.sort (h : t.Holds r es) : t.sort.Holds r es where
  settled := h.settled.sort
  at_root := by rw [bare?_sort, h.at_root]
  panels := by rw [panels_sort, h.panels]

theorem Holds.of_added (h : t.Holds r es) (ha : Added t t' e id) : t'.Holds r (es ++ [e]) where
  settled := h.settled.of_added ha
  at_root := ha.keeps.bare?_eq h.at_root
  panels := by rw [ha.panels, Array.toList_push, h.panels, List.map_append, List.map_singleton]

/-- **The items are the entries.** -/
theorem Holds.exists_item_iff (h : t.Holds r es) :
    (∃ id, t.isItem id = true ∧ t.trail id = names) ↔ ∃ a ∈ es, segments a.name = names := by
  have hnames : ∀ {id} {a : Entry}, t.isItem id = true →
      pathOf (segments a.name) = pathOf (t.trail id) → segments a.name = t.trail id :=
    fun hi => pathOf_inj (fun _ => isName_of_mem_segments)
      (h.settled.wellFormed.isName_of_mem_trail (lt_size_of_isItem hi))
  constructor
  · rintro ⟨id, hi, rfl⟩
    obtain ⟨n, hn⟩ := exists_bare? (lt_size_of_isItem hi)
    obtain ⟨d, hd, hid, -⟩ := h.settled.panel_of_item hn hi
    rw [h.panels] at hd
    obtain ⟨a, ha, rfl⟩ := List.mem_map.mp hd
    exact ⟨a, ha, hnames hi hid⟩
  · rintro ⟨a, ha, rfl⟩
    have hd : a.panel ∈ t.panels.toList := by
      rw [h.panels]
      exact List.mem_map_of_mem ha
    obtain ⟨i, hi⟩ := List.mem_iff_getElem?.mp hd
    obtain ⟨id, n, tags, hn, hk, hid⟩ := h.settled.item_of_panel hi
    have hitem : t.isItem id = true := isItem_iff.mpr ⟨n, tags, i, hn, hk⟩
    exact ⟨id, hitem, (hnames hitem hid).symm⟩

theorem Holds.isItem_iff (h : t.Holds r es) (hid : id < t.size) :
    t.isItem id = true ↔ ∃ a ∈ es, segments a.name = t.trail id := by
  rw [← h.exists_item_iff]
  constructor
  · exact fun hi => ⟨id, hi, rfl⟩
  · rintro ⟨m, hm, htrail⟩
    rwa [h.settled.wellFormed.trail_inj hid (lt_size_of_isItem hm) htrail.symm]

/-- **The nodes are the root and what is on the way to an entry.** -/
theorem Holds.has_iff (h : t.Holds r es) :
    t.Has names ↔ names = [] ∨ ∃ a ∈ es, names <+: segments a.name := by
  have hwf := h.settled.wellFormed
  constructor
  · intro hhas
    refine or_iff_not_imp_left.mpr fun hne => ?_
    obtain ⟨m, hm, hpre⟩ := h.settled.occupied hhas hne
    obtain ⟨a, ha, htrail⟩ := h.exists_item_iff.mp ⟨m, hm, rfl⟩
    exact ⟨a, ha, by rwa [htrail]⟩
  · rintro (rfl | ⟨a, ha, hpre⟩)
    · exact ⟨root, hwf.root_lt, hwf.trail_root⟩
    · obtain ⟨m, hm, htrail⟩ := h.exists_item_iff.mpr ⟨a, ha, rfl⟩
      exact hwf.has_of_prefix ⟨m, lt_size_of_isItem hm, htrail⟩ hpre

/-- The entry has a name, and none of the entries is on the way to it or the other way round. -/
def Fits (es : List Entry) (e : Entry) : Prop :=
  segments e.name ≠ [] ∧ ∀ a ∈ es, Apart (segments a.name) (segments e.name)

/-- **An entry that fits is added**, and any other is rejected. -/
theorem Holds.add_cases (h : t.Holds r es) (e : Entry) :
    (¬ Fits es e ∧ ∃ err, t.add e = (t, .error err)) ∨
      (Fits es e ∧ ∃ t' id, t'.Holds r (es ++ [e]) ∧ t.add e = (t', .ok id)) := by
  rcases Tree.add_cases h.settled.wellFormed h.settled.described e with
    ⟨hnil, hr⟩ | ⟨id, n, hn, hi, hpre, -, hr⟩ | ⟨id, n, hn, htrail, hne, hr⟩ |
      ⟨t', id, ha, hne, hfree, hpast, hr⟩
  · exact Or.inl ⟨fun hf => hf.1 hnil, _, hr⟩
  · refine Or.inl ⟨fun hf => ?_, _, hr⟩
    have hitem : t.isItem id = true := by rw [isItem_of_node? hn, hi]
    obtain ⟨a, ha, hat⟩ := h.exists_item_iff.mp ⟨id, hitem, rfl⟩
    exact (hf.2 a ha).1 (by rwa [hat])
  · refine Or.inl ⟨fun hf => ?_, _, hr⟩
    obtain ⟨a, ha, hpre⟩ := (h.has_iff.mp ⟨id, lt_size_of_node? hn, htrail⟩).resolve_left hne
    exact (hf.2 a ha).2 hpre
  · refine Or.inr ⟨⟨hne, fun a ha' => ⟨fun hpre => ?_, fun hpre => ?_⟩⟩, t', id, h.of_added ha, hr⟩
    · obtain ⟨m, hm, htrail⟩ := h.exists_item_iff.mpr ⟨a, ha', rfl⟩
      exact hpast m hm (by rwa [htrail])
    · exact hfree (h.has_iff.mpr (Or.inr ⟨a, ha', hpre⟩))

/-! ## Adding what fits -/

/-- What comes of each entry if all are added one after the other. -/
def outcomes (t : Tree) : List Entry → List (Entry × Except TreeError Nat)
  | [] => []
  | e :: es => (e, (t.add e).2) :: (t.add e).1.outcomes es

/-- The entry, if it was added. -/
def taken? : Entry × Except TreeError Nat → Option Entry
  | (e, .ok _) => some e
  | (_, .error _) => none

/-- The note about the entry, if it was rejected. -/
def skipped? : Entry × Except TreeError Nat → Option Skipped
  | (_, .ok _) => none
  | (e, .error err) => some ⟨e.name, err.message⟩

/-- The entries that are added. -/
def taken (t : Tree) (es : List Entry) : List Entry := (t.outcomes es).filterMap taken?

/-- The notes about all others. -/
def skipped (t : Tree) (es : List Entry) : List Skipped := (t.outcomes es).filterMap skipped?

theorem taken_of_ok (h : t.add e = (t', .ok id)) : t.taken (e :: es) = e :: t'.taken es := by
  rw [taken, outcomes, h]
  rfl

theorem taken_of_error {err : TreeError} (h : t.add e = (t', .error err)) :
    t.taken (e :: es) = t'.taken es := by
  rw [taken, outcomes, h]
  rfl

theorem skipped_of_ok (h : t.add e = (t', .ok id)) : t.skipped (e :: es) = t'.skipped es := by
  rw [skipped, outcomes, h]
  rfl

theorem skipped_of_error {err : TreeError} (h : t.add e = (t', .error err)) :
    t.skipped (e :: es) = ⟨e.name, err.message⟩ :: t'.skipped es := by
  rw [skipped, outcomes, h]
  rfl

/-- Each entry is added or noted. -/
theorem length_taken_add_skipped (t : Tree) (es : List Entry) :
    (t.taken es).length + (t.skipped es).length = es.length := by
  induction es generalizing t with
  | nil => rfl
  | cons e es ih =>
    rcases hr : t.add e with ⟨t', err | id⟩
    · rw [taken_of_error hr, skipped_of_error hr, List.length_cons, List.length_cons, ← ih t']
      omega
    · rw [taken_of_ok hr, skipped_of_ok hr, List.length_cons, List.length_cons, ← ih t']
      omega

theorem addFitting_snd (t : Tree) (es : List Entry) : (t.addFitting es).2 = t.skipped es := by
  induction es generalizing t with
  | nil => rfl
  | cons e es ih =>
    rw [addFitting]
    rcases hr : t.add e with ⟨t', err | id⟩
    · rw [skipped_of_error hr, ← ih t']
    · rw [skipped_of_ok hr, ← ih t']

/-- **What a run over all entries leaves.** -/
theorem Holds.addFitting (h : t.Holds r es) (more : List Entry) :
    (t.addFitting more).1.Holds r (es ++ t.taken more) := by
  induction more generalizing t es with
  | nil =>
    rw [taken, outcomes, List.filterMap_nil, List.append_nil, Tree.addFitting]
    exact h
  | cons e more ih =>
    rw [Tree.addFitting]
    rcases h.add_cases e with ⟨-, err, hr⟩ | ⟨-, t', id, h', hr⟩
    · rw [taken_of_error hr, hr]
      exact ih h
    · rw [taken_of_ok hr, hr, List.append_cons]
      exact ih h'

/-! ## What the tree is made of -/

/-- The paths of the nodes, by their indices. -/
def paths (t : Tree) : List String := t.nodes.toList.map Node.path

theorem paths_getElem? (id : Nat) : t.paths[id]? = (t.node? id).map Node.path := by
  unfold paths
  rw [List.getElem?_map, Array.getElem?_toList]
  rfl

theorem WellFormed.nodup_paths (h : t.WellFormed) : t.paths.Nodup := by
  rw [List.nodup_iff_getElem?_ne_getElem?]
  intro i j hij hj heq
  unfold paths at hj
  rw [List.length_map, Array.length_toList] at hj
  obtain ⟨x, hx⟩ := node?_eq_some_iff.mpr (hij.trans hj)
  obtain ⟨y, hy⟩ := node?_eq_some_iff.mpr hj
  rw [paths_getElem?, paths_getElem?, hx, hy, Option.map_some, Option.map_some,
    Option.some.injEq] at heq
  exact hij.ne (h.path_inj (bare?_of_node? hx) (bare?_of_node? hy) (by simpa using heq))

theorem WellFormed.mem_paths_iff (h : t.WellFormed) {path : String} :
    path ∈ t.paths ↔ ∃ names, t.Has names ∧ path = pathOf names := by
  rw [List.mem_iff_getElem?]
  constructor
  · rintro ⟨id, hid⟩
    rw [paths_getElem?, Option.map_eq_some_iff] at hid
    obtain ⟨n, hn, rfl⟩ := hid
    exact ⟨t.trail id, ⟨id, lt_size_of_node? hn, rfl⟩, h.path_of_node? hn⟩
  · rintro ⟨_, ⟨id, hid, rfl⟩, rfl⟩
    obtain ⟨n, hn⟩ := node?_eq_some_iff.mpr hid
    exact ⟨id, by rw [paths_getElem?, hn, Option.map_some, h.path_of_node? hn]⟩

/-- What the tree of the entries is made of. -/
structure MadeOf (t : Tree) (es : List Entry) : Prop where
  /-- No path occurs twice. -/
  nodup_paths : t.paths.Nodup
  /-- The paths are that of the root and those on the way to an entry. -/
  mem_paths : ∀ path, path ∈ t.paths ↔
    path = "/" ∨ ∃ a ∈ es, ∃ names, names ≠ [] ∧ names <+: segments a.name ∧ path = pathOf names
  /-- The items are the entries. -/
  mem_items : ∀ path, (∃ id n, t.node? id = some n ∧ n.isItem = true ∧ n.path = path) ↔
    ∃ a ∈ es, path = pathOf (segments a.name)
  /-- The panels are those of the entries, in the order in which these were added. -/
  panels : t.panels.toList = es.map Entry.panel
  /-- Folders other than the root have items below them. -/
  itemsUnder : ∀ id, t.isFolder id = true → id ≠ root → t.itemsUnder id ≠ []

theorem Holds.mem_paths (h : t.Holds r es) (path : String) : path ∈ t.paths ↔
    path = "/" ∨
      ∃ a ∈ es, ∃ names, names ≠ [] ∧ names <+: segments a.name ∧ path = pathOf names := by
  rw [h.settled.wellFormed.mem_paths_iff]
  constructor
  · rintro ⟨names, hhas, rfl⟩
    by_cases hnil : names = []
    · rw [hnil]
      exact Or.inl rfl
    · obtain ⟨a, ha, hpre⟩ := (h.has_iff.mp hhas).resolve_left hnil
      exact Or.inr ⟨a, ha, names, hnil, hpre, rfl⟩
  · rintro (rfl | ⟨a, ha, names, -, hpre, rfl⟩)
    · exact ⟨[], h.has_iff.mpr (Or.inl rfl), rfl⟩
    · exact ⟨names, h.has_iff.mpr (Or.inr ⟨a, ha, hpre⟩), rfl⟩

theorem Holds.mem_items (h : t.Holds r es) (path : String) :
    (∃ id n, t.node? id = some n ∧ n.isItem = true ∧ n.path = path) ↔
      ∃ a ∈ es, path = pathOf (segments a.name) := by
  have hwf := h.settled.wellFormed
  constructor
  · rintro ⟨id, n, hn, hi, rfl⟩
    have hitem : t.isItem id = true := by rw [isItem_of_node? hn, hi]
    obtain ⟨a, ha, htrail⟩ := h.exists_item_iff.mp ⟨id, hitem, rfl⟩
    exact ⟨a, ha, by rw [hwf.path_of_node? hn, htrail]⟩
  · rintro ⟨a, ha, rfl⟩
    obtain ⟨id, hi, htrail⟩ := h.exists_item_iff.mpr ⟨a, ha, rfl⟩
    obtain ⟨n, hn⟩ := node?_eq_some_iff.mpr (lt_size_of_isItem hi)
    rw [isItem_of_node? hn] at hi
    exact ⟨id, n, hn, hi, by rw [hwf.path_of_node? hn, htrail]⟩

/-- No folder is left without items, because none is made but for an item. -/
theorem Settled.itemsUnder_ne_nil (h : t.Settled) (hf : t.isFolder id = true) (hr : id ≠ root) :
    t.itemsUnder id ≠ [] := by
  intro hnil
  have hlt := lt_size_of_isFolder hf
  have htrail : t.trail id ≠ [] := (h.wellFormed.trail_eq_nil_iff hlt).not.mpr hr
  obtain ⟨m, hm, hpre⟩ := h.occupied ⟨id, hlt, rfl⟩ htrail
  have hmem := (mem_itemsUnder h.wellFormed hlt).mpr ⟨hm, hpre⟩
  rw [hnil] at hmem
  exact absurd hmem List.not_mem_nil

theorem Holds.madeOf (h : t.Holds r es) : t.MadeOf es where
  nodup_paths := h.settled.wellFormed.nodup_paths
  mem_paths := h.mem_paths
  mem_items := h.mem_items
  panels := h.panels
  itemsUnder _ := h.settled.itemsUnder_ne_nil

/-- What `build` leaves. -/
theorem holds_build (rootName : String) (es : List Entry) :
    (build rootName es).1.Holds rootName ((new rootName).taken es) :=
  ((holds_new rootName).addFitting es).sort

/-- **`build` takes what fits.** An entry `e` that comes after `before` is added if and only if it
fits with those that were added of `before`; each of the others is noted, in order; and the tree is
made of those that were added. -/
theorem build_takes_fitting (rootName : String) (es : List Entry) :
    (∀ before e, (∃ id, (((new rootName).addFitting before).1.add e).2 = .ok id) ↔
      Fits ((new rootName).taken before) e) ∧
    (build rootName es).2 = (new rootName).skipped es ∧
    (build rootName es).1.itemCount + (build rootName es).2.length = es.length ∧
    (build rootName es).1.MadeOf ((new rootName).taken es) := by
  have hrun : ∀ es', ((new rootName).addFitting es').1.Holds rootName ((new rootName).taken es') :=
    (holds_new rootName).addFitting
  have hbuild := holds_build rootName es
  have hskipped : (build rootName es).2 = (new rootName).skipped es :=
    addFitting_snd (new rootName) es
  refine ⟨?_, hskipped, ?_, hbuild.madeOf⟩
  · intro before e
    rcases (hrun before).add_cases e with ⟨hnot, err, hr⟩ | ⟨hfits, t', id, -, hr⟩
    · rw [hr]
      exact iff_of_false (by simp) hnot
    · rw [hr]
      exact iff_of_true ⟨id, rfl⟩ hfits
  · rw [hskipped, ← length_taken_add_skipped (new rootName) es, itemCount, ← Array.length_toList,
      hbuild.panels, List.length_map]

/-! ## Adding everything -/

/-- The entries have names, and none is on the way to another. -/
def Compatible (es : List Entry) : Prop :=
  (∀ e ∈ es, segments e.name ≠ []) ∧
    es.Pairwise fun a b => Apart (segments a.name) (segments b.name)

theorem compatible_nil : Compatible [] :=
  ⟨fun _ he => absurd he List.not_mem_nil, List.Pairwise.nil⟩

theorem compatible_concat : Compatible (es ++ [e]) ↔ Compatible es ∧ Fits es e := by
  unfold Compatible Fits
  simp only [List.forall_mem_append, List.forall_mem_singleton, List.pairwise_append,
    List.pairwise_singleton, true_and]
  exact and_and_and_comm

theorem Compatible.of_append {more : List Entry} (h : Compatible (es ++ more)) : Compatible es :=
  ⟨fun e he => h.1 e (List.mem_append_left _ he), (List.pairwise_append.mp h.2).1⟩

/-- The order of the entries does not matter. -/
theorem compatible_perm {es' : List Entry} (h : es.Perm es') : Compatible es ↔ Compatible es' := by
  unfold Compatible
  rw [h.pairwise_iff fun hap => hap.symm]
  simp only [h.mem_iff]

/-- All entries are added if they are compatible. -/
theorem Holds.addAll_cases (h : t.Holds r es) (hc : Compatible es) (more : List Entry) :
    (¬ Compatible (es ++ more) ∧ ∃ err, t.addAll more = .error err) ∨
      (Compatible (es ++ more) ∧ ∃ t', t'.Holds r (es ++ more) ∧ t.addAll more = .ok t') := by
  induction more generalizing t es with
  | nil =>
    rw [List.append_nil, addAll]
    exact Or.inr ⟨hc, t, h, rfl⟩
  | cons e more ih =>
    rw [List.append_cons, addAll]
    rcases h.add_cases e with ⟨hnot, err, hr⟩ | ⟨hfits, t', id, h', hr⟩
    · rw [hr]
      exact Or.inl ⟨fun hall => hnot (compatible_concat.mp hall.of_append).2, err, rfl⟩
    · rw [hr]
      exact ih h' (compatible_concat.mpr ⟨hc, hfits⟩)

/-- **`ofEntries` succeeds** if and only if the entries are compatible. -/
theorem ofEntries_cases (rootName : String) (es : List Entry) :
    (¬ Compatible es ∧ ∃ err, ofEntries rootName es = .error err) ∨
      (Compatible es ∧ ∃ t : Tree, t.Holds rootName es ∧ ofEntries rootName es = .ok t.sort) := by
  unfold ofEntries
  rcases (holds_new rootName).addAll_cases compatible_nil es with
    ⟨hnot, err, hr⟩ | ⟨hc, t, h, hr⟩
  · rw [hr]
    exact Or.inl ⟨hnot, err, rfl⟩
  · rw [hr]
    exact Or.inr ⟨hc, t, h, rfl⟩

end Tree

end EntryReport
