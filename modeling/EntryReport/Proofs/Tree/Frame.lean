import EntryReport.Tree.Order
import Mathlib.Data.List.Basic
import Mathlib.Data.Nat.Basic
import Mathlib.Order.Basic

/-!
# What pushing and sorting leave alone

A tree grows by `push` and is put in order by `sort`. Both rewrite lists of children and nothing
else of the nodes that are there, so what they keep is said of the *bare* nodes, which have no
children: `bare?_push`, `bare?_sort`. `Extends` says it of any two trees.

`trail` gives the names on the way from below the root down to a node. It is read off the bare
nodes, so that it is kept too (`Extends.trail_eq`).
-/

namespace EntryReport

namespace Node

/-! ## Bare nodes -/

/-- The node without its children. -/
def bare (n : Node) : Node := n.mapChildren fun _ => []

variable {n : Node} {f : List Nat → List Nat}

@[simp] theorem name_mapChildren : (n.mapChildren f).name = n.name := by
  rcases n with ⟨_, _, _, _ | _⟩ <;> rfl

@[simp] theorem path_mapChildren : (n.mapChildren f).path = n.path := by
  rcases n with ⟨_, _, _, _ | _⟩ <;> rfl

@[simp] theorem parent_mapChildren : (n.mapChildren f).parent = n.parent := by
  rcases n with ⟨_, _, _, _ | _⟩ <;> rfl

@[simp] theorem isFolder_mapChildren : (n.mapChildren f).isFolder = n.isFolder := by
  rcases n with ⟨_, _, _, _ | _⟩ <;> rfl

@[simp] theorem tags_mapChildren : (n.mapChildren f).tags = n.tags := by
  rcases n with ⟨_, _, _, _ | _⟩ <;> rfl

theorem kind_mapChildren {tags : Tags} {i : Nat} :
    (n.mapChildren f).kind = .item tags i ↔ n.kind = .item tags i := by
  rcases n with ⟨_, _, _, _ | _⟩ <;> simp [mapChildren]

theorem children_mapChildren :
    (n.mapChildren f).children = if n.isFolder then f n.children else [] := by
  rcases n with ⟨_, _, _, _ | _⟩ <;> rfl

/-- An item has no children. -/
theorem children_of_not_isFolder (h : ¬ n.isFolder = true) : n.children = [] := by
  unfold isFolder at h
  unfold children
  cases hk : n.kind with
  | folder children => simp [hk] at h
  | item tags panel => rfl

@[simp] theorem bare_mapChildren : (n.mapChildren f).bare = n.bare := by
  rcases n with ⟨_, _, _, _ | _⟩ <;> rfl

@[simp] theorem name_bare : n.bare.name = n.name := name_mapChildren

@[simp] theorem path_bare : n.bare.path = n.path := path_mapChildren

@[simp] theorem parent_bare : n.bare.parent = n.parent := parent_mapChildren

@[simp] theorem isFolder_bare : n.bare.isFolder = n.isFolder := isFolder_mapChildren

@[simp] theorem tags_bare : n.bare.tags = n.tags := tags_mapChildren

theorem kind_bare {tags : Tags} {i : Nat} : n.bare.kind = .item tags i ↔ n.kind = .item tags i :=
  kind_mapChildren

@[simp] theorem isItem_bare : n.bare.isItem = n.isItem := by
  rw [isItem, isItem, isFolder_bare]

end Node

namespace Tree

variable {t t' : Tree} {id p : Nat} {n : Node} {name path : String} {kind : NodeKind}

/-- A node without its children. -/
def bare? (t : Tree) (id : Nat) : Option Node := (t.node? id).map Node.bare

theorem bare?_of_node? (h : t.node? id = some n) : t.bare? id = some n.bare := by
  rw [bare?, h]
  rfl

theorem node?_of_bare? (h : t.bare? id = some n) : ∃ m, t.node? id = some m ∧ m.bare = n :=
  Option.map_eq_some_iff.mp h

theorem node?_eq_some_iff : (∃ n, t.node? id = some n) ↔ id < t.size := by
  constructor
  · rintro ⟨n, hn⟩
    exact (Array.getElem?_eq_some_iff.mp hn).1
  · exact fun h => ⟨_, Array.getElem?_eq_getElem h⟩

theorem lt_size_of_node? (h : t.node? id = some n) : id < t.size := node?_eq_some_iff.mp ⟨n, h⟩

theorem lt_size_of_bare? (h : t.bare? id = some n) : id < t.size := by
  obtain ⟨m, hm, -⟩ := node?_of_bare? h
  exact lt_size_of_node? hm

theorem exists_bare? (h : id < t.size) : ∃ n, t.bare? id = some n := by
  obtain ⟨n, hn⟩ := node?_eq_some_iff.mpr h
  exact ⟨_, bare?_of_node? hn⟩

theorem childrenOf_of_node? (h : t.node? id = some n) : t.childrenOf id = n.children := by
  rw [childrenOf, h]

theorem parent?_eq : t.parent? id = (t.bare? id).bind (·.parent) := by
  rw [parent?, bare?]
  cases t.node? id <;> simp

theorem isFolder_eq : t.isFolder id = (t.bare? id).any Node.isFolder := by
  rw [isFolder, bare?]
  cases t.node? id <;> simp

theorem isItem_eq : t.isItem id = (t.bare? id).any Node.isItem := by
  rw [isItem, bare?]
  cases t.node? id <;> simp

theorem isFolder_iff : t.isFolder id = true ↔ ∃ n, t.bare? id = some n ∧ n.isFolder = true := by
  rw [isFolder_eq, Option.any_eq_true]

theorem isItem_iff : t.isItem id = true ↔
    ∃ n tags i, t.bare? id = some n ∧ n.kind = .item tags i := by
  rw [isItem_eq, Option.any_eq_true]
  constructor
  · rintro ⟨⟨name, path, parent, kind⟩, hn, hi⟩
    cases kind with
    | folder children => exact absurd hi (by simp [Node.isItem, Node.isFolder])
    | item tags i => exact ⟨_, tags, i, hn, rfl⟩
  · rintro ⟨n, tags, i, hn, hk⟩
    exact ⟨n, hn, by simp [Node.isItem, Node.isFolder, hk]⟩

theorem lt_size_of_isFolder (h : t.isFolder id = true) : id < t.size := by
  obtain ⟨n, hn, -⟩ := isFolder_iff.mp h
  exact lt_size_of_bare? hn

theorem lt_size_of_isItem (h : t.isItem id = true) : id < t.size := by
  obtain ⟨n, _, _, hn, -⟩ := isItem_iff.mp h
  exact lt_size_of_bare? hn

/-- A node of the tree is a folder or an item. -/
theorem isItem_eq_not_isFolder (h : id < t.size) : t.isItem id = !t.isFolder id := by
  obtain ⟨n, hn⟩ := exists_bare? h
  rw [isItem_eq, isFolder_eq, hn]
  rfl

theorem isFolder_of_node? (h : t.node? id = some n) : t.isFolder id = n.isFolder := by
  rw [isFolder, h, Option.any_some]

theorem isItem_of_node? (h : t.node? id = some n) : t.isItem id = n.isItem := by
  rw [isItem, h, Option.any_some]

/-- No node is both. -/
theorem isFolder_eq_false (h : t.isItem id = true) : t.isFolder id = false := by
  have hne := isItem_eq_not_isFolder (lt_size_of_isItem h)
  rw [h] at hne
  simpa using hne.symm

theorem isItem_eq_false (h : t.isFolder id = true) : t.isItem id = false := by
  rw [isItem_eq_not_isFolder (lt_size_of_isFolder h), h]
  rfl

/-! ## The way down to a node -/

/-- The names of the nodes from below the root down to a node. -/
def trail (t : Tree) (id : Nat) : List String :=
  match t.node? id with
  | none => []
  | some n =>
    match n.parent with
    | none => []
    | some p => if p < id then t.trail p ++ [n.name] else []

theorem trail_of_parent (hn : t.bare? id = some n) (hp : n.parent = some p) (hlt : p < id) :
    t.trail id = t.trail p ++ [n.name] := by
  obtain ⟨m, hm, rfl⟩ := node?_of_bare? hn
  rw [Node.parent_bare] at hp
  rw [trail, hm]
  simp only [hp, if_pos hlt, Node.name_bare]

theorem trail_of_no_parent (hn : t.bare? id = some n) (hp : n.parent = none) : t.trail id = [] := by
  obtain ⟨m, hm, rfl⟩ := node?_of_bare? hn
  rw [Node.parent_bare] at hp
  rw [trail, hm]
  simp only [hp]

/-- The trail is read off the bare nodes down to its own. -/
theorem trail_congr (h : ∀ i, i ≤ id → t'.bare? i = t.bare? i) : t'.trail id = t.trail id := by
  induction id using Nat.strongRecOn with
  | ind id ih =>
    have hid := h id le_rfl
    rw [trail, trail]
    cases hn : t.node? id with
    | none =>
      rw [bare?, bare?, hn, Option.map_none, Option.map_eq_none_iff] at hid
      rw [hid]
    | some n =>
      rw [bare?_of_node? hn] at hid
      obtain ⟨m, hm, hb⟩ := node?_of_bare? hid
      have hparent : m.parent = n.parent := by rw [← Node.parent_bare, hb, Node.parent_bare]
      have hname : m.name = n.name := by rw [← Node.name_bare, hb, Node.name_bare]
      rw [hm]
      simp only [hparent, hname]
      cases n.parent with
      | none => rfl
      | some p =>
        simp only
        split
        · next hlt => rw [ih p hlt fun i hi => h i (hi.trans hlt.le)]
        · rfl

/-! ## Trees that keep the nodes of another -/

/-- `t'` has all nodes of `t`, with other children at most, and its panels. -/
structure Extends (t t' : Tree) : Prop where
  bare : ∀ id, id < t.size → t'.bare? id = t.bare? id
  panels : t.panels.toList <+: t'.panels.toList

theorem Extends.refl (t : Tree) : Extends t t := ⟨fun _ _ => rfl, List.prefix_rfl⟩

theorem Extends.bare?_eq (h : Extends t t') (hn : t.bare? id = some n) : t'.bare? id = some n := by
  rw [h.bare id (lt_size_of_bare? hn), hn]

theorem Extends.size_le (h : Extends t t') : t.size ≤ t'.size := by
  by_contra hlt
  obtain ⟨n, hn⟩ := exists_bare? (Nat.lt_of_not_le hlt)
  exact absurd (lt_size_of_bare? (h.bare?_eq hn)) (Nat.lt_irrefl _)

theorem Extends.trans {t'' : Tree} (h : Extends t t') (h' : Extends t' t'') : Extends t t'' where
  bare id hid := by rw [h'.bare id (hid.trans_le h.size_le), h.bare id hid]
  panels := h.panels.trans h'.panels

theorem Extends.trail_eq (h : Extends t t') (hid : id < t.size) : t'.trail id = t.trail id :=
  trail_congr fun i hi => h.bare i (hi.trans_lt hid)

theorem Extends.isFolder_eq (h : Extends t t') (hid : id < t.size) :
    t'.isFolder id = t.isFolder id := by
  rw [Tree.isFolder_eq, Tree.isFolder_eq, h.bare id hid]

theorem Extends.isItem_eq (h : Extends t t') (hid : id < t.size) : t'.isItem id = t.isItem id := by
  rw [Tree.isItem_eq, Tree.isItem_eq, h.bare id hid]

/-! ## Pushing -/

@[simp] theorem size_push : (t.push p name path kind).1.size = t.size + 1 := by
  simp [push, size]

@[simp] theorem panels_push : (t.push p name path kind).1.panels = t.panels := rfl

theorem node?_push : (t.push p name path kind).1.node? id =
    (if id = t.size then some ⟨name, path, some p, kind⟩ else t.node? id).map
      fun n => if p = id then n.mapChildren (· ++ [t.size]) else n := by
  simp only [push, node?, Array.getElem?_modify, Array.getElem?_push, size]
  by_cases hp : p = id
  · simp only [if_pos hp]
    rfl
  · simp only [if_neg hp, Option.map_id']
    rfl

theorem bare?_push : (t.push p name path kind).1.bare? id =
    if id = t.size then some (Node.bare ⟨name, path, some p, kind⟩) else t.bare? id := by
  have hbare : (Node.bare ∘ fun n => if p = id then n.mapChildren (· ++ [t.size]) else n) =
      Node.bare := by
    funext n
    rw [Function.comp_apply]
    split
    · exact Node.bare_mapChildren
    · rfl
  rw [bare?, node?_push, Option.map_map, hbare, bare?]
  split <;> rfl

theorem extends_push : Extends t (t.push p name path kind).1 where
  bare id hid := by rw [bare?_push, if_neg hid.ne]
  panels := List.prefix_rfl

theorem trail_push (hp : p < t.size) :
    (t.push p name path kind).1.trail t.size = t.trail p ++ [name] := by
  have hn : (t.push p name path kind).1.bare? t.size =
      some (Node.bare ⟨name, path, some p, kind⟩) := by rw [bare?_push, if_pos rfl]
  rw [trail_of_parent hn Node.parent_bare hp, extends_push.trail_eq hp, Node.name_bare]

theorem childrenOf_push_size (hp : p < t.size) : (t.push p name path kind).1.childrenOf t.size =
    Node.children ⟨name, path, some p, kind⟩ := by
  refine childrenOf_of_node? ?_
  rw [node?_push, if_pos rfl, Option.map_some, if_neg hp.ne]

theorem childrenOf_push_parent (hp : t.isFolder p = true) :
    (t.push p name path kind).1.childrenOf p = t.childrenOf p ++ [t.size] := by
  have hlt := lt_size_of_isFolder hp
  obtain ⟨_, hb, hf⟩ := isFolder_iff.mp hp
  obtain ⟨n, hn, rfl⟩ := node?_of_bare? hb
  rw [childrenOf_of_node? hn]
  refine (childrenOf_of_node? (n := n.mapChildren (· ++ [t.size])) ?_).trans ?_
  · rw [node?_push, if_neg hlt.ne, hn, Option.map_some, if_pos rfl]
  · rw [Node.children_mapChildren, if_pos (by simpa using hf)]

theorem childrenOf_push_of_ne (hs : id ≠ t.size) (hp : p ≠ id) :
    (t.push p name path kind).1.childrenOf id = t.childrenOf id := by
  rw [childrenOf, node?_push, if_neg hs, childrenOf]
  simp only [if_neg hp, Option.map_id']

/-! ## Sorting -/

@[simp] theorem size_sort : t.sort.size = t.size := by
  simp [sort, size]

@[simp] theorem panels_sort : t.sort.panels = t.panels := rfl

theorem node?_sort : t.sort.node? id =
    (t.node? id).map (Node.mapChildren (·.mergeSort t.mayPrecede)) := by
  simp [sort, node?]

@[simp] theorem bare?_sort : t.sort.bare? id = t.bare? id := by
  rw [bare?, node?_sort, Option.map_map, bare?]
  exact Option.map_congr fun _ _ => Node.bare_mapChildren

theorem extends_sort : Extends t t.sort := ⟨fun _ _ => bare?_sort, List.prefix_rfl⟩

@[simp] theorem trail_sort : t.sort.trail id = t.trail id := trail_congr fun _ _ => bare?_sort

@[simp] theorem isFolder_sort : t.sort.isFolder id = t.isFolder id := by
  rw [isFolder_eq, isFolder_eq, bare?_sort]

@[simp] theorem isItem_sort : t.sort.isItem id = t.isItem id := by
  rw [isItem_eq, isItem_eq, bare?_sort]

@[simp] theorem parent?_sort : t.sort.parent? id = t.parent? id := by
  rw [parent?_eq, parent?_eq, bare?_sort]

theorem childrenOf_sort : t.sort.childrenOf id = (t.childrenOf id).mergeSort t.mayPrecede := by
  rw [childrenOf, node?_sort, childrenOf]
  cases t.node? id with
  | none => simp
  | some n =>
    rw [Option.map_some]
    rcases n with ⟨_, _, _, _ | _⟩
    · rfl
    · simp [Node.mapChildren, Node.children]

end Tree

end EntryReport
