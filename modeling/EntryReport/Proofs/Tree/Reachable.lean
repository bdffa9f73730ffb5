import EntryReport.Proofs.Tree.Adding
import Mathlib.Data.List.Nodup
import Mathlib.Logic.Relation

/-!
# Reachable trees

A tree is `Reachable` if some sequence of `add`, successful or not, and `sort` leads to it from a
new tree. Between two operations a tree is `Settled`: it is well-formed, items and panels agree,
and every folder below the root has an item below it (`occupied`), because `add` makes folders
only for an item.

* `consistent_of_reachable`: the clauses about nodes and panels that hold of all reachable trees;
* `add_fails_iff_unchanged`: an entry that is rejected leaves nothing behind.
-/

namespace EntryReport

namespace Tree

variable {t t' : Tree} {e : Entry}

/-! ## Settled trees -/

/-- A tree between two operations. -/
structure Settled (t : Tree) : Prop where
  wellFormed : t.WellFormed
  described : t.Described
  occupied : ∀ {names}, t.Has names → names ≠ [] → ∃ m, t.isItem m = true ∧ names <+: t.trail m

theorem settled_new (rootName : String) : (new rootName).Settled where
  wellFormed := wellFormed_new rootName
  described := described_new rootName
  occupied := by
    rintro _ ⟨id, hid, rfl⟩ hne
    have hroot : id = root := Nat.lt_one_iff.mp hid
    rw [hroot] at hne
    exact absurd (wellFormed_new rootName).trail_root hne

theorem Settled.sort (h : t.Settled) : t.sort.Settled where
  wellFormed := h.wellFormed.sort
  described := h.described.sort
  occupied := by
    intro names hhas hne
    obtain ⟨m, hm, hpre⟩ := h.occupied (has_sort.mp hhas) hne
    exact ⟨m, by rw [isItem_sort, hm], by rwa [trail_sort]⟩

theorem Settled.of_added {id : Nat} (h : t.Settled) (ha : Added t t' e id) : t'.Settled where
  wellFormed := ha.wellFormed
  described := ha.described
  occupied := by
    intro names hhas hne
    rcases (ha.has names).mp hhas with hold | hnew
    · obtain ⟨m, hm, hpre⟩ := h.occupied hold hne
      have hlt := lt_size_of_isItem hm
      exact ⟨m, by rw [ha.keeps.isItem_eq hlt, hm], by rwa [ha.keeps.trail_eq hlt]⟩
    · exact ⟨id, ha.isItem, by rwa [ha.trail]⟩

/-- An entry is added, or it is rejected and the tree is what it was. -/
theorem Settled.add_cases (h : t.Settled) (e : Entry) :
    (∃ err, t.add e = (t, .error err)) ∨ ∃ t' id, Added t t' e id ∧ t.add e = (t', .ok id) := by
  rcases Tree.add_cases h.wellFormed h.described e with
    ⟨-, hr⟩ | ⟨_, _, -, -, -, -, hr⟩ | ⟨_, _, -, -, -, hr⟩ | ⟨t', id, ha, -, -, -, hr⟩
  · exact Or.inl ⟨_, hr⟩
  · exact Or.inl ⟨_, hr⟩
  · exact Or.inl ⟨_, hr⟩
  · exact Or.inr ⟨t', id, ha, hr⟩

theorem Settled.add (h : t.Settled) (e : Entry) : (t.add e).1.Settled := by
  rcases h.add_cases e with ⟨err, hr⟩ | ⟨t', id, ha, hr⟩
  · rwa [hr]
  · rw [hr]
    exact h.of_added ha

/-- An attempt to add an entry leaves the nodes and panels where they are. -/
theorem Settled.extends_add (h : t.Settled) (e : Entry) : Extends t (t.add e).1 := by
  rcases h.add_cases e with ⟨err, hr⟩ | ⟨t', id, ha, hr⟩
  · rw [hr]
    exact Extends.refl t
  · rw [hr]
    exact ha.keeps

/-! ## Reachable trees -/

/-- One operation, whatever came of it. -/
inductive Step : Tree → Tree → Prop
  | add (t : Tree) (e : Entry) : Step t (t.add e).1
  | sort (t : Tree) : Step t t.sort

/-- Operations lead to the tree from a new one. -/
def Reachable (t : Tree) : Prop :=
  ∃ rootName, Relation.ReflTransGen Step (new rootName) t

theorem reachable_new (rootName : String) : Reachable (new rootName) :=
  ⟨rootName, Relation.ReflTransGen.refl⟩

theorem Reachable.step (h : Reachable t) (hs : Step t t') : Reachable t' := by
  obtain ⟨rootName, hr⟩ := h
  exact ⟨rootName, hr.tail hs⟩

theorem Settled.step (h : t.Settled) (hs : Step t t') : t'.Settled := by
  cases hs with
  | add e => exact h.add e
  | sort => exact h.sort

/-- **Every reachable tree is settled.** -/
theorem Reachable.settled (h : Reachable t) : t.Settled := by
  obtain ⟨rootName, hr⟩ := h
  induction hr with
  | refl => exact settled_new rootName
  | tail _ hs ih => exact ih.step hs

/-! ## What holds of all reachable trees -/

/-- What a reader of a tree relies on. -/
structure Consistent (t : Tree) : Prop where
  /-- The root has no parent. It is a folder, and its path is a slash. -/
  at_root : ∃ n, t.node? root = some n ∧ n.parent = none ∧ n.isFolder = true ∧ n.path = "/"
  /-- Any other node has a parent, a folder that was made before it. -/
  parent : ∀ {id n}, t.node? id = some n → id ≠ root →
    ∃ p, n.parent = some p ∧ p < id ∧ t.isFolder p = true
  /-- A node is one child of its parent and no child of any other node. -/
  one_child : ∀ {id n p}, t.node? id = some n → n.parent = some p →
    (t.childrenOf p).count id = 1 ∧ ∀ q, q ≠ p → id ∉ t.childrenOf q
  /-- Children are nodes. -/
  child_lt : ∀ {p c}, c ∈ t.childrenOf p → c < t.size
  /-- Children of one folder have different names. -/
  siblings : ∀ {p a b x y}, a ∈ t.childrenOf p → b ∈ t.childrenOf p → t.node? a = some x →
    t.node? b = some y → x.name = y.name → a = b
  /-- Names can stand between slashes, and paths are made of them. -/
  path : ∀ {id n}, t.node? id = some n → id ≠ root →
    n.name ≠ "" ∧ '/' ∉ n.name.toList ∧ n.path = slashed (t.trail id)
  /-- The panel of an item is about it. -/
  panel : ∀ {id n tags i}, t.node? id = some n → n.kind = .item tags i →
    ∃ d, t.panels[i]? = some d ∧ d.id = n.path ∧ d.name = n.name ∧ d.tags = tags
  /-- A panel belongs to one item. -/
  item : ∀ {i}, i < t.panels.size → ∃! id, ∃ n tags, t.node? id = some n ∧ n.kind = .item tags i

/-- Two items do not share a panel. -/
theorem Settled.item_unique (h : t.Settled) {a b i : Nat} {x y : Node} {u v : Tags}
    (hx : t.bare? a = some x) (hy : t.bare? b = some y) (hxk : x.kind = .item u i)
    (hyk : y.kind = .item v i) : a = b := by
  obtain ⟨d, hd, hdx, -⟩ := h.described.panel hx hxk
  obtain ⟨d', hd', hdy, -⟩ := h.described.panel hy hyk
  rw [hd, Option.some.injEq] at hd'
  exact h.wellFormed.path_inj hx hy (by rw [← hdx, hd', hdy])

/-- **All clauses hold after any sequence of operations.** -/
theorem consistent_of_reachable (hr : Reachable t) : t.Consistent := by
  have h := hr.settled
  have hwf := h.wellFormed
  constructor
  case at_root =>
    obtain ⟨name, hroot⟩ := hwf.at_root
    obtain ⟨n, hn, hb⟩ := node?_of_bare? hroot
    refine ⟨n, hn, ?_, ?_, ?_⟩
    · rw [← Node.parent_bare, hb]
    · rw [← Node.isFolder_bare, hb]
      rfl
    · rw [← Node.path_bare, hb]
  case parent =>
    intro id n hn hid
    obtain ⟨p, hlt, hp, hf⟩ := hwf.parent (bare?_of_node? hn) hid
    exact ⟨p, by rwa [Node.parent_bare] at hp, hlt, hf⟩
  case one_child =>
    intro id n p hn hp
    have hb := bare?_of_node? hn
    have hp' : n.bare.parent = some p := by rwa [Node.parent_bare]
    refine ⟨?_, fun q hq hmem => ?_⟩
    · exact List.count_eq_one_of_mem (hwf.nodup_children p) (hwf.mem_children_iff.mpr ⟨_, hb, hp'⟩)
    · obtain ⟨m, hm, hmp⟩ := hwf.mem_children_iff.mp hmem
      rw [hb, Option.some.injEq] at hm
      rw [← hm, hp', Option.some.injEq] at hmp
      exact hq hmp.symm
  case child_lt => exact hwf.lt_size_of_mem_children
  case siblings =>
    intro p a b x y ha hb hx hy hname
    obtain ⟨x', hx', hxp⟩ := hwf.mem_children_iff.mp ha
    obtain ⟨y', hy', hyp⟩ := hwf.mem_children_iff.mp hb
    have hxx := (bare?_of_node? hx).symm.trans hx'
    have hyy := (bare?_of_node? hy).symm.trans hy'
    cases hxx
    cases hyy
    exact hwf.siblings hx' hy' (hxp.trans hyp.symm) (by simpa using hname)
  case path =>
    intro id n hn hid
    have hname := hwf.isName (bare?_of_node? hn) hid
    have htrail : t.trail id ≠ [] := (hwf.trail_eq_nil_iff (lt_size_of_node? hn)).not.mpr hid
    rw [Node.name_bare] at hname
    refine ⟨hname.1, hname.2, ?_⟩
    rw [hwf.path_of_node? hn, pathOf_eq_slashed htrail]
  case panel =>
    intro id n tags i hn hk
    simpa using h.described.panel (bare?_of_node? hn) (Node.kind_bare.mpr hk)
  case item =>
    intro i hi
    obtain ⟨id, m, tags, hm, hk⟩ := h.described.item hi
    obtain ⟨n, hn, rfl⟩ := node?_of_bare? hm
    refine ⟨id, ⟨n, tags, hn, Node.kind_bare.mp hk⟩, ?_⟩
    rintro b ⟨y, v, hy, hyk⟩
    exact h.item_unique (bare?_of_node? hy) hm (Node.kind_bare.mpr hyk) hk

/-- A sequence with a rejected entry in it. -/
theorem consistent_after_rejection :
    Reachable ((((new "r").add { name := "b/c" }).1.add { name := "/b//c/d" }).1.add
      { name := "a" }).1.sort ∧
    Consistent ((((new "r").add { name := "b/c" }).1.add { name := "/b//c/d" }).1.add
      { name := "a" }).1.sort := by
  have hr := ((((reachable_new "r").step (.add _ { name := "b/c" })).step
    (.add _ { name := "/b//c/d" })).step (.add _ { name := "a" })).step (.sort _)
  exact ⟨hr, consistent_of_reachable hr⟩

/-- **A rejected entry leaves nothing behind**, and only a rejected one: the tree after `add` is
the tree before it, with all nodes and panels, if and only if there was an error. -/
theorem add_fails_iff_unchanged (hr : Reachable t) (e : Entry) :
    (∃ err, (t.add e).2 = .error err) ↔ (t.add e).1 = t := by
  rcases hr.settled.add_cases e with ⟨err, h⟩ | ⟨t', id, ha, h⟩
  · rw [h]
    exact ⟨fun _ => rfl, fun _ => ⟨err, rfl⟩⟩
  · rw [h]
    constructor
    · rintro ⟨err, herr⟩
      exact absurd herr (by simp)
    · intro heq
      have hsize := congrArg Array.size ha.panels
      rw [Array.size_push, show t' = t from heq] at hsize
      omega

/-- The way to the new item leads on below an item. -/
theorem unchanged_past_item :
    Reachable ((new "r").add { name := "a/b" }).1 ∧
    (((new "r").add { name := "a/b" }).1.add { name := "a/b/c/d" }).1 =
      ((new "r").add { name := "a/b" }).1 := by
  have hr := (reachable_new "r").step (.add _ { name := "a/b" })
  exact ⟨hr, (add_fails_iff_unchanged hr { name := "a/b/c/d" }).mp ⟨_, rfl⟩⟩

end Tree

end EntryReport
