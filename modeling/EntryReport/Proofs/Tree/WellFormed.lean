import EntryReport.Proofs.Segments
import EntryReport.Proofs.Tree.Frame

/-!
# Well-formed trees

`WellFormed` is what holds of the nodes of a tree at all times, also while folders are being made
for an entry: parents and children agree, a parent comes before its children and is a folder,
siblings have different names, and a path is put together from the names on its trail. `push`
keeps it if the name is free in the folder (`WellFormed.push`), and so does `sort`.

What holds of the root, and of a child if it holds of its parent, holds of all nodes
(`WellFormed.induction_down`). So trails are as good as indices (`trail_inj`). `Has` says that a
tree has a node with a trail; the trails of a tree are closed under prefixes (`has_of_prefix`).

`Described` is the agreement between items and panels.
-/

namespace EntryReport

namespace Tree

variable {t : Tree} {id p : Nat} {n : Node} {name path : String} {kind : NodeKind}

/-- Parents and children agree, siblings have different names, and paths follow the names. -/
structure WellFormed (t : Tree) : Prop where
  at_root : ∃ name, t.bare? root = some ⟨name, "/", none, .folder []⟩
  parent : ∀ {id n}, t.bare? id = some n → id ≠ root →
    ∃ p, p < id ∧ n.parent = some p ∧ t.isFolder p = true
  siblings : ∀ {a b x y}, t.bare? a = some x → t.bare? b = some y → x.parent = y.parent →
    x.name = y.name → a = b
  isName : ∀ {id n}, t.bare? id = some n → id ≠ root → IsName n.name
  path : ∀ {id n}, t.bare? id = some n → n.path = pathOf (t.trail id)
  mem_children : ∀ {p id}, id ∈ t.childrenOf p ↔ t.parent? id = some p
  nodup_children : ∀ p, (t.childrenOf p).Nodup

/-! ## New and sorted trees -/

theorem bare?_new {rootName : String} : (new rootName).bare? id =
    if id = root then some ⟨rootName, "/", none, .folder []⟩ else none := by
  cases id with
  | zero => rfl
  | succ id => rfl

theorem wellFormed_new (rootName : String) : (new rootName).WellFormed where
  at_root := ⟨rootName, bare?_new⟩
  parent hn hid := by
    rw [bare?_new, if_neg hid] at hn
    exact absurd hn (by simp)
  siblings ha hb _ _ := by
    rw [bare?_new] at ha hb
    split at ha <;> split at hb <;> simp_all
  isName hn hid := by
    rw [bare?_new, if_neg hid] at hn
    exact absurd hn (by simp)
  path {id n} hn := by
    have hn' := hn
    rw [bare?_new] at hn'
    split at hn'
    · cases hn'
      rw [trail_of_no_parent hn rfl]
      rfl
    · exact absurd hn' (by simp)
  mem_children {p id} := by
    rw [parent?_eq, bare?_new]
    have hc : (new rootName).childrenOf p = [] := by
      cases p with
      | zero => rfl
      | succ p => rfl
    rw [hc]
    split <;> simp
  nodup_children p := by
    cases p with
    | zero => exact List.nodup_nil
    | succ p => exact List.nodup_nil

theorem WellFormed.sort (h : t.WellFormed) : t.sort.WellFormed where
  at_root := by simpa only [bare?_sort] using h.at_root
  parent hn hr := by
    rw [bare?_sort] at hn
    simpa only [isFolder_sort] using h.parent hn hr
  siblings ha hb hpar hname := by
    rw [bare?_sort] at ha hb
    exact h.siblings ha hb hpar hname
  isName hn hr := by
    rw [bare?_sort] at hn
    exact h.isName hn hr
  path hn := by
    rw [bare?_sort] at hn
    rw [trail_sort, h.path hn]
  mem_children := by
    intro p id
    rw [childrenOf_sort, List.mem_mergeSort, parent?_sort]
    exact h.mem_children
  nodup_children p := by
    rw [childrenOf_sort]
    exact (List.mergeSort_perm _ _).nodup_iff.mpr (h.nodup_children p)

/-! ## Parents and children -/

namespace WellFormed

theorem root_lt (h : t.WellFormed) : root < t.size := by
  obtain ⟨_, hr⟩ := h.at_root
  exact lt_size_of_bare? hr

theorem isFolder_root (h : t.WellFormed) : t.isFolder root = true := by
  obtain ⟨_, hr⟩ := h.at_root
  exact isFolder_iff.mpr ⟨_, hr, rfl⟩

theorem parent_root (h : t.WellFormed) (hn : t.bare? root = some n) : n.parent = none := by
  obtain ⟨_, hr⟩ := h.at_root
  rw [hr] at hn
  cases hn
  rfl

theorem ne_root_of_parent (h : t.WellFormed) (hn : t.bare? id = some n) (hp : n.parent = some p) :
    id ≠ root := by
  rintro rfl
  rw [h.parent_root hn] at hp
  exact absurd hp (by simp)

/-- A parent is a folder that was made before its children. -/
theorem of_parent (h : t.WellFormed) (hn : t.bare? id = some n) (hp : n.parent = some p) :
    p < id ∧ t.isFolder p = true := by
  obtain ⟨q, hlt, hq, hf⟩ := h.parent hn (h.ne_root_of_parent hn hp)
  rw [hp] at hq
  cases hq
  exact ⟨hlt, hf⟩

theorem mem_children_iff (h : t.WellFormed) :
    id ∈ t.childrenOf p ↔ ∃ n, t.bare? id = some n ∧ n.parent = some p := by
  rw [h.mem_children, parent?_eq, Option.bind_eq_some_iff]

theorem lt_size_of_mem_children (h : t.WellFormed) (hc : id ∈ t.childrenOf p) : id < t.size := by
  obtain ⟨n, hn, -⟩ := h.mem_children_iff.mp hc
  exact lt_size_of_bare? hn

theorem trail_root (h : t.WellFormed) : t.trail root = [] := by
  obtain ⟨_, hr⟩ := h.at_root
  exact trail_of_no_parent hr rfl

theorem trail_child (h : t.WellFormed) (hn : t.bare? id = some n) (hp : n.parent = some p) :
    t.trail id = t.trail p ++ [n.name] :=
  trail_of_parent hn hp (h.of_parent hn hp).1

/-- A node is the root or the child of a folder that was made before it. -/
theorem root_or_child (h : t.WellFormed) (hid : id < t.size) : id = root ∨
    ∃ n p, t.bare? id = some n ∧ n.parent = some p ∧ p < id ∧ t.isFolder p = true ∧
      t.trail id = t.trail p ++ [n.name] := by
  obtain ⟨n, hn⟩ := exists_bare? hid
  refine or_iff_not_imp_left.mpr fun hr => ?_
  obtain ⟨p, hlt, hp, hf⟩ := h.parent hn hr
  exact ⟨n, p, hn, hp, hlt, hf, h.trail_child hn hp⟩

/-- **Induction from the root down**: what holds of the root, and of a child if it holds of its
parent, holds of all nodes. -/
@[elab_as_elim]
theorem induction_down (h : t.WellFormed) {motive : Nat → Prop} (at_root : motive root)
    (child : ∀ {id n p}, t.bare? id = some n → n.parent = some p → id < t.size → p < t.size →
      t.trail id = t.trail p ++ [n.name] → motive p → motive id) (hid : id < t.size) :
    motive id := by
  induction id using Nat.strongRecOn with
  | ind id ih =>
    rcases h.root_or_child hid with rfl | ⟨n, p, hn, hp, hlt, -, htrail⟩
    · exact at_root
    · exact child hn hp hid (hlt.trans hid) htrail (ih p hlt (hlt.trans hid))

end WellFormed

/-! ## Pushing -/

theorem bare?_push_cases {i : Nat} (h : (t.push p name path kind).1.bare? i = some n) :
    (i = t.size ∧ n = Node.bare ⟨name, path, some p, kind⟩) ∨
      (i < t.size ∧ t.bare? i = some n) := by
  rw [bare?_push] at h
  split at h
  · next hi => exact Or.inl ⟨hi, (Option.some.inj h).symm⟩
  · exact Or.inr ⟨lt_size_of_bare? h, h⟩

theorem parent?_push : (t.push p name path kind).1.parent? id =
    if id = t.size then some p else t.parent? id := by
  rw [parent?_eq, bare?_push, parent?_eq]
  split
  · rw [Option.bind_some, Node.parent_bare]
  · rfl

/-- **A new child of a folder, under a name that is free there, keeps the tree well-formed.** -/
theorem WellFormed.push (h : t.WellFormed) (hp : t.isFolder p = true) (hname : IsName name)
    (hfree : ∀ c ∈ t.childrenOf p, ∀ n, t.bare? c = some n → n.name ≠ name)
    (hpath : path = pathOf (t.trail p ++ [name]))
    (hkind : Node.children ⟨name, path, some p, kind⟩ = []) :
    (t.push p name path kind).1.WellFormed := by
  have hlt := lt_size_of_isFolder hp
  -- an old child with the new name would have been found
  have hclash : ∀ {b y}, t.bare? b = some y → some p = y.parent → name = y.name → False :=
    fun hb hpar hnm => hfree _ (h.mem_children_iff.mpr ⟨_, hb, hpar.symm⟩) _ hb hnm.symm
  constructor
  case at_root =>
    obtain ⟨r, hr⟩ := h.at_root
    exact ⟨r, extends_push.bare?_eq hr⟩
  case parent =>
    intro i m hm hi
    rcases bare?_push_cases hm with ⟨rfl, rfl⟩ | ⟨hlt', hm⟩
    · exact ⟨p, hlt, Node.parent_bare, by rw [extends_push.isFolder_eq hlt, hp]⟩
    · obtain ⟨q, hq, hpar, hf⟩ := h.parent hm hi
      exact ⟨q, hq, hpar, by rw [extends_push.isFolder_eq (hq.trans hlt'), hf]⟩
  case siblings =>
    intro a b x y ha hb hpar hnm
    rcases bare?_push_cases ha with ⟨rfl, rfl⟩ | ⟨_, ha⟩ <;>
      rcases bare?_push_cases hb with ⟨rfl, rfl⟩ | ⟨_, hb⟩
    · rfl
    · simp only [Node.parent_bare, Node.name_bare] at hpar hnm
      exact (hclash hb hpar hnm).elim
    · simp only [Node.parent_bare, Node.name_bare] at hpar hnm
      exact (hclash ha hpar.symm hnm.symm).elim
    · exact h.siblings ha hb hpar hnm
  case isName =>
    intro i m hm hi
    rcases bare?_push_cases hm with ⟨rfl, rfl⟩ | ⟨_, hm⟩
    · rwa [Node.name_bare]
    · exact h.isName hm hi
  case path =>
    intro i m hm
    rcases bare?_push_cases hm with ⟨rfl, rfl⟩ | ⟨hlt', hm⟩
    · rw [trail_push hlt, Node.path_bare, hpath]
    · rw [extends_push.trail_eq hlt', h.path hm]
  case mem_children =>
    intro q i
    rw [parent?_push]
    by_cases hq : q = t.size
    · rw [hq, childrenOf_push_size hlt, hkind]
      simp only [List.not_mem_nil, false_iff]
      split
      · simp only [Option.some.injEq]
        exact hlt.ne
      · intro hpar
        rw [← h.mem_children, h.mem_children_iff] at hpar
        obtain ⟨m, hm, hpar⟩ := hpar
        exact absurd (lt_size_of_isFolder (h.of_parent hm hpar).2) (Nat.lt_irrefl _)
    · by_cases hqp : p = q
      · rw [← hqp, childrenOf_push_parent hp, List.mem_append, List.mem_singleton]
        split
        · next hi => simp [hi]
        · next hi => rw [h.mem_children, or_iff_left hi]
      · rw [childrenOf_push_of_ne hq hqp]
        split
        · next hi =>
          rw [hi, Option.some.injEq, iff_false_right hqp]
          exact fun hc => absurd (h.lt_size_of_mem_children hc) (Nat.lt_irrefl _)
        · exact h.mem_children
  case nodup_children =>
    intro q
    by_cases hq : q = t.size
    · rw [hq, childrenOf_push_size hlt, hkind]
      exact List.nodup_nil
    · by_cases hqp : p = q
      · rw [← hqp, childrenOf_push_parent hp]
        refine List.nodup_append.mpr ⟨h.nodup_children p, by simp, ?_⟩
        intro c hc d hd
        rw [List.mem_singleton.mp hd]
        exact (h.lt_size_of_mem_children hc).ne
      · rw [childrenOf_push_of_ne hq hqp]
        exact h.nodup_children q

/-! ## Trails -/

namespace WellFormed

theorem isName_of_mem_trail (h : t.WellFormed) (hid : id < t.size) :
    ∀ s ∈ t.trail id, IsName s := by
  refine h.induction_down ?_ ?_ hid
  · rw [h.trail_root]
    exact fun s hs => absurd hs List.not_mem_nil
  · intro id n p hn hp _ _ htrail ih s hs
    rw [htrail] at hs
    rcases List.mem_append.mp hs with hs | hs
    · exact ih s hs
    · rw [List.mem_singleton.mp hs]
      exact h.isName hn (h.ne_root_of_parent hn hp)

theorem trail_eq_nil_iff (h : t.WellFormed) (hid : id < t.size) : t.trail id = [] ↔ id = root := by
  rcases h.root_or_child hid with rfl | ⟨n, p, hn, hp, -, -, htrail⟩
  · exact iff_of_true h.trail_root rfl
  · exact iff_of_false (by simp [htrail]) (h.ne_root_of_parent hn hp)

/-- **Nodes with the same trail are the same.** -/
theorem trail_inj (h : t.WellFormed) {a b : Nat} (ha : a < t.size) (hb : b < t.size)
    (hab : t.trail a = t.trail b) : a = b := by
  suffices hall : ∀ b, b < t.size → t.trail a = t.trail b → a = b from hall b hb hab
  clear hb hab
  refine h.induction_down ?_ ?_ ha
  · intro b hb hab
    rw [h.trail_root] at hab
    exact ((h.trail_eq_nil_iff hb).mp hab.symm).symm
  · intro a x p hx hp ha hpt hxt ih b hb hab
    rcases h.root_or_child hb with rfl | ⟨y, q, hy, hq, hqb, -, hyt⟩
    · rw [h.trail_root] at hab
      exact (h.trail_eq_nil_iff ha).mp hab
    · rw [hxt, hyt] at hab
      obtain ⟨htrail, hname⟩ := List.append_inj' hab rfl
      have hpq : p = q := ih q (hqb.trans hb) htrail
      exact h.siblings hx hy (by rw [hp, hq, hpq]) (List.singleton_inj.mp hname)

theorem path_of_node? (h : t.WellFormed) (hn : t.node? id = some n) :
    n.path = pathOf (t.trail id) := by
  rw [← h.path (bare?_of_node? hn), Node.path_bare]

/-- Nodes with the same path are the same. -/
theorem path_inj (h : t.WellFormed) {a b : Nat} {x y : Node} (ha : t.bare? a = some x)
    (hb : t.bare? b = some y) (hxy : x.path = y.path) : a = b := by
  rw [h.path ha, h.path hb] at hxy
  have ha := lt_size_of_bare? ha
  have hb := lt_size_of_bare? hb
  exact h.trail_inj ha hb
    (pathOf_inj (h.isName_of_mem_trail ha) (h.isName_of_mem_trail hb) hxy)

end WellFormed

/-- The tree has a node with this trail. -/
def Has (t : Tree) (names : List String) : Prop := ∃ id, id < t.size ∧ t.trail id = names

theorem has_push (hp : p < t.size) {names : List String} :
    (t.push p name path kind).1.Has names ↔ t.Has names ∨ names = t.trail p ++ [name] := by
  constructor
  · rintro ⟨i, hi, rfl⟩
    rw [size_push, Nat.lt_succ_iff_lt_or_eq] at hi
    rcases hi with hi | rfl
    · exact Or.inl ⟨i, hi, (extends_push.trail_eq hi).symm⟩
    · exact Or.inr (trail_push hp)
  · rintro (⟨i, hi, rfl⟩ | rfl)
    · exact ⟨i, hi.trans_le extends_push.size_le, extends_push.trail_eq hi⟩
    · exact ⟨t.size, by simp, trail_push hp⟩

@[simp] theorem has_sort {names : List String} : t.sort.Has names ↔ t.Has names := by
  simp only [Has, size_sort, trail_sort]

/-- A tree that has a node has all nodes on the way to it. -/
theorem WellFormed.has_of_prefix (h : t.WellFormed) {a b : List String} (hb : t.Has b)
    (hab : a <+: b) : t.Has a := by
  obtain ⟨id, hid, rfl⟩ := hb
  revert hab
  refine h.induction_down ?_ ?_ hid
  · intro hab
    rw [h.trail_root, List.prefix_nil] at hab
    exact ⟨root, h.root_lt, by rw [hab, h.trail_root]⟩
  · intro id n p _ _ hid _ htrail ih hab
    rw [htrail, List.prefix_concat_iff] at hab
    rcases hab with rfl | hab
    · exact ⟨id, hid, htrail⟩
    · exact ih hab

/-- Only folders have nodes below them. -/
theorem WellFormed.isFolder_of_prefix (h : t.WellFormed) {a b : Nat} (ha : a < t.size)
    (hb : b < t.size) (hab : t.trail a <+: t.trail b) (hne : a ≠ b) : t.isFolder a = true := by
  revert hab hne
  refine h.induction_down ?_ ?_ hb
  · intro hab hne
    rw [h.trail_root, List.prefix_nil, h.trail_eq_nil_iff ha] at hab
    exact absurd hab hne
  · intro b n p hn hp hb _ htrail ih hab hne
    rw [htrail, List.prefix_concat_iff, ← htrail] at hab
    rcases hab with hab | hab
    · exact absurd (h.trail_inj ha hb hab) hne
    · by_cases hap : a = p
      · rw [hap, (h.of_parent hn hp).2]
      · exact ih hab hap

/-! ## Panels -/

/-- Each item has a panel that agrees with it, and each panel belongs to an item. -/
structure Described (t : Tree) : Prop where
  panel : ∀ {id n tags i}, t.bare? id = some n → n.kind = .item tags i →
    ∃ d, t.panels[i]? = some d ∧ d.id = n.path ∧ d.name = n.name ∧ d.tags = tags
  item : ∀ {i}, i < t.panels.size → ∃ id n tags, t.bare? id = some n ∧ n.kind = .item tags i

theorem described_new (rootName : String) : (new rootName).Described where
  panel hn hk := by
    rw [bare?_new] at hn
    split at hn
    · cases hn
      exact absurd hk (by simp)
    · exact absurd hn (by simp)
  item hi := absurd hi (Nat.not_lt_zero _)

theorem Described.sort (h : t.Described) : t.sort.Described where
  panel hn hk := by
    rw [bare?_sort] at hn
    exact h.panel hn hk
  item hi := by
    obtain ⟨id, n, tags, hn, hk⟩ := h.item hi
    exact ⟨id, n, tags, by rw [bare?_sort, hn], hk⟩

theorem Described.push_folder (h : t.Described) :
    (t.push p name path (.folder [])).1.Described where
  panel hn hk := by
    rcases bare?_push_cases hn with ⟨-, rfl⟩ | ⟨-, hn⟩
    · exact absurd hk (by simp [Node.bare, Node.mapChildren])
    · exact h.panel hn hk
  item hi := by
    obtain ⟨id, n, tags, hn, hk⟩ := h.item hi
    exact ⟨id, n, tags, extends_push.bare?_eq hn, hk⟩

/-- The tree with one more panel at the end. -/
def addPanel (t : Tree) (d : Panel) : Tree := { t with panels := t.panels.push d }

theorem extends_addPanel {d : Panel} : Extends t (t.addPanel d) where
  bare _ _ := rfl
  panels := by
    rw [addPanel, Array.toList_push]
    exact List.prefix_append _ _

theorem trail_addPanel {d : Panel} : (t.addPanel d).trail id = t.trail id :=
  trail_congr fun _ _ => rfl

theorem WellFormed.addPanel (h : t.WellFormed) (d : Panel) : (t.addPanel d).WellFormed where
  at_root := h.at_root
  parent := h.parent
  siblings := h.siblings
  isName := h.isName
  path hn := by rw [trail_addPanel, ← h.path hn]
  mem_children := h.mem_children
  nodup_children := h.nodup_children

/-- A panel is added together with its item. -/
theorem Described.push_item (h : t.Described) {d : Panel} (hpath : d.id = path)
    (hname : d.name = name) :
    ((t.addPanel d).push p name path (.item d.tags t.panels.size)).1.Described where
  panel {id n tags i} hn hk := by
    rcases bare?_push_cases hn with ⟨-, rfl⟩ | ⟨-, hn⟩
    · obtain ⟨rfl, rfl⟩ := NodeKind.item.inj (Node.kind_bare.mp hk)
      exact ⟨d, Array.getElem?_push_size, hpath, hname, rfl⟩
    · obtain ⟨x, hx, hagree⟩ := h.panel hn hk
      have hi := (Array.getElem?_eq_some_iff.mp hx).1
      refine ⟨x, ?_, hagree⟩
      rw [panels_push, Tree.addPanel, Array.getElem?_push, if_neg hi.ne, hx]
  item {i} hi := by
    rw [panels_push, Tree.addPanel, Array.size_push, Nat.lt_succ_iff_lt_or_eq] at hi
    rcases hi with hi | rfl
    · obtain ⟨id, n, tags, hn, hk⟩ := h.item hi
      exact ⟨id, n, tags, extends_push.bare?_eq hn, hk⟩
    · exact ⟨t.size, _, d.tags, by rw [bare?_push]; exact if_pos rfl, rfl⟩

end Tree

end EntryReport
