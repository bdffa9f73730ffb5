import EntryReport.Proofs.Tree.Preorder
import EntryReport.Proofs.Tree.Reachable

/-!
# Walks come to an end

`visit` and `climb` stop after a number of steps at the latest. `Visits` and `Climbs` are the same
walks without a limit, as relations between the place where a walk begins and the nodes that it
meets; they hold of a walk only if it comes to an end. On a well-formed tree every walk does, for no
node is met twice on the way down, and a parent has a smaller index on the way up. So the limits
never show, and a walk can be taken apart: what is on top of a stack is done before the rest
(`Visits.append`).

* `descendants_eq`: a node, and then what is below each of its children;
* `ancestors_of_parent`: the parent, and then what is above it;
* `itemsUnder_eq`: the items below a folder stand in document order;
* `traversed_of_reachable`: both walks, and how they belong together, in a reachable tree.
-/

namespace EntryReport

namespace Tree

variable {t : Tree} {id m n p limit : Nat} {stack stack' met met' : List Nat} {start : Option Nat}

/-! ## Down -/

/-- Working off the stack comes to an end, and has then met the nodes. -/
inductive Visits (t : Tree) : (stack met : List Nat) → Prop
  | done : Visits t [] []
  | step {id : Nat} {stack met : List Nat} (rest : Visits t (t.childrenOf id ++ stack) met) :
    Visits t (id :: stack) (id :: met)

namespace Visits

/-- A walk that comes to an end is not changed by a limit that it keeps. -/
theorem visit_eq (h : Visits t stack met) (hlimit : met.length ≤ limit) :
    t.visit limit stack = met := by
  induction h generalizing limit with
  | done => exact WellFormed.visit_nil t limit
  | step _ ih =>
    obtain _ | limit := limit
    · exact absurd hlimit (by simp)
    · rw [visit, ih (Nat.le_of_succ_le_succ hlimit)]

theorem unique (h : Visits t stack met) (h' : Visits t stack met') : met = met' := by
  rw [← h.visit_eq (Nat.le_max_left _ met'.length), h'.visit_eq (Nat.le_max_right _ _)]

/-- A walk that keeps below its limit comes to an end. -/
theorem of_length_lt (h : (t.visit limit stack).length < limit) :
    Visits t stack (t.visit limit stack) := by
  induction limit generalizing stack with
  | zero => exact absurd h (Nat.not_lt_zero _)
  | succ limit ih =>
    cases stack with
    | nil => exact .done
    | cons id stack => exact .step (ih (Nat.lt_of_succ_lt_succ h))

/-- **What is on top of the stack is done first.** -/
theorem append (h : Visits t stack met) (h' : Visits t stack' met') :
    Visits t (stack ++ stack') (met ++ met') := by
  induction h with
  | done => exact h'
  | step _ ih =>
    rw [List.append_assoc] at ih
    exact .step ih

/-- A stack of nodes is done node by node. -/
theorem flatMap {below : Nat → List Nat} (h : ∀ id ∈ stack, Visits t [id] (below id)) :
    Visits t stack (stack.flatMap below) := by
  induction stack with
  | nil => exact .done
  | cons id stack ih =>
    rw [List.forall_mem_cons] at h
    exact h.1.append (ih h.2)

end Visits

namespace WellFormed

/-- **The walk down comes to an end**, and the limit does not cut it off. -/
theorem visits_descendants (h : t.WellFormed) (hid : id < t.size) :
    Visits t [id] (t.descendants id) := by
  have hs := stacked_singleton hid
  have hlength (limit : Nat) : (t.visit limit [id]).length ≤ t.size := by
    have hsub : t.visit limit [id] ⊆ List.range t.size := fun m hm =>
      List.mem_range.mpr (of_mem_visit h hs hm).1
    simpa using (List.subperm_of_subset (nodup_visit h hs) hsub).length_le
  have hend : Visits t [id] (t.visit (t.size + 1) [id]) :=
    .of_length_lt (Nat.lt_succ_of_le (hlength _))
  rwa [descendants, hend.visit_eq (hlength _)]

/-- **A node comes first, and then what is below each of its children**, in their order. -/
theorem descendants_eq (h : t.WellFormed) (hid : id < t.size) :
    t.descendants id = id :: (t.childrenOf id).flatMap t.descendants := by
  refine (h.visits_descendants hid).unique (.step ?_)
  rw [List.append_nil]
  exact .flatMap fun c hc => h.visits_descendants (h.lt_size_of_mem_children hc)

end WellFormed

/-! ## Up -/

/-- Following parents comes to an end, and has then met the nodes. -/
inductive Climbs (t : Tree) : (start : Option Nat) → (met : List Nat) → Prop
  | done : Climbs t none []
  | step {id : Nat} {met : List Nat} (rest : Climbs t (t.parent? id) met) :
    Climbs t (some id) (id :: met)

theorem Climbs.unique (h : Climbs t start met) (h' : Climbs t start met') : met = met' := by
  induction h generalizing met' with
  | done =>
    cases h'
    rfl
  | step _ ih =>
    cases h' with
    | step rest => rw [ih rest]

/-- Part of a list without repetitions is known by its members. -/
theorem eq_filter_of_sublist {part whole : List Nat} {p : Nat → Bool}
    (hsub : part.Sublist whole) (hnodup : whole.Nodup)
    (hmem : ∀ x, x ∈ part ↔ x ∈ whole ∧ p x = true) : part = whole.filter p := by
  have hpart : part.filter p = part := List.filter_eq_self.mpr fun x hx => ((hmem x).mp hx).2
  have hsame : part.Perm (whole.filter p) :=
    (List.perm_ext_iff_of_nodup (hnodup.sublist hsub) (hnodup.filter p)).mpr fun x => by
      rw [hmem, List.mem_filter]
  have hfilter : part.Sublist (whole.filter p) := hpart ▸ hsub.filter p
  exact hfilter.eq_of_length hsame.length_eq

namespace WellFormed

theorem lt_of_parent? (h : t.WellFormed) (hp : t.parent? id = some p) : p < id :=
  h.lt_of_mem_children (h.mem_children.mpr hp)

theorem lt_size_of_parent? (h : t.WellFormed) (hp : t.parent? id = some p) : id < t.size :=
  h.lt_size_of_mem_children (h.mem_children.mpr hp)

/-- A walk up comes to an end within as many steps as there are nodes up to its start. -/
theorem climbs_climb (h : t.WellFormed) (hlimit : ∀ id ∈ start, id < limit) :
    Climbs t start (t.climb limit start) := by
  induction limit generalizing start with
  | zero =>
    cases start with
    | none => exact .done
    | some id => exact absurd (hlimit id rfl) (Nat.not_lt_zero _)
  | succ limit ih =>
    cases start with
    | none => exact .done
    | some id =>
      refine .step (ih fun p hp => ?_)
      have hlt := hlimit id rfl
      have hparent := h.lt_of_parent? hp
      omega

/-- **The walk up comes to an end**, and the limit does not cut it off. -/
theorem climbs_ancestors (h : t.WellFormed) (id : Nat) :
    Climbs t (t.parent? id) (t.ancestors id) :=
  h.climbs_climb fun _ hp => (h.lt_of_parent? hp).trans (h.lt_size_of_parent? hp)

theorem ancestors_root (h : t.WellFormed) : t.ancestors root = [] := by
  have hclimbs := h.climbs_ancestors root
  obtain ⟨n, hr⟩ := h.at_root
  rw [parent?_eq, hr] at hclimbs
  exact hclimbs.unique .done

/-- **The parent comes first, and then what is above it.** -/
theorem ancestors_of_parent (h : t.WellFormed) (hp : t.parent? id = some p) :
    t.ancestors id = p :: t.ancestors p := by
  have hclimbs := h.climbs_ancestors id
  rw [hp] at hclimbs
  exact hclimbs.unique (.step (h.climbs_ancestors p))

/-- The way up ends at the root. -/
theorem getLast?_ancestors (h : t.WellFormed) (hid : id < t.size) (hne : id ≠ root) :
    (t.ancestors id).getLast? = some root := by
  induction id using Nat.strongRecOn with
  | ind id ih =>
    obtain ⟨n, p, hn, hp, hlt, -, -⟩ := (h.root_or_child hid).resolve_left hne
    have hparent : t.parent? id = some p := by rw [parent?_eq, hn, Option.bind_some, hp]
    rw [h.ancestors_of_parent hparent]
    by_cases hr : p = root
    · rw [hr, h.ancestors_root]
      rfl
    · rw [List.getLast?_cons, ih p hlt (hlt.trans hid) hr]
      rfl

/-! ## Both ways -/

/-- **Down undoes up**: a node is below another if it is that node or has it among its ancestors. -/
theorem mem_descendants_iff (h : t.WellFormed) (hid : id < t.size) :
    m ∈ t.descendants id ↔ m = id ∨ id ∈ t.ancestors m := by
  rw [mem_descendants h hid]
  by_cases hm : m < t.size
  · rw [h.mem_ancestors hm]
    by_cases heq : m = id
    · subst heq
      exact iff_of_true ⟨hm, List.prefix_rfl⟩ (Or.inl rfl)
    · simp only [hm, hid, heq, true_and, false_or, ne_comm.mp heq, ne_eq, not_false_eq_true,
        and_true]
  · -- a node that is not in the tree has no parent
    have hnone : t.parent? m = none := by
      rw [Option.eq_none_iff_forall_ne_some]
      exact fun p hp => hm (h.lt_size_of_parent? hp)
    have hanc : t.ancestors m = [] := by
      have hclimbs := h.climbs_ancestors m
      rw [hnone] at hclimbs
      exact hclimbs.unique .done
    rw [hanc]
    refine iff_of_false (fun hmem => hm hmem.1) ?_
    rintro (rfl | hmem)
    · exact hm hid
    · exact absurd hmem List.not_mem_nil

/-- What is below a node stands in document order. -/
theorem sublist_documentOrder (h : t.WellFormed) (hid : id < t.size) :
    (t.descendants id).Sublist t.documentOrder := by
  refine h.induction_down ?_ ?_ hid
  · exact List.Sublist.refl _
  · intro id n p hn hp _ hplt _ ih
    have hc : id ∈ t.childrenOf p := h.mem_children_iff.mpr ⟨n, hn, hp⟩
    refine List.Sublist.trans ?_ ih
    rw [h.descendants_eq hplt, List.flatMap_def]
    exact (List.sublist_flatten_of_mem (List.mem_map_of_mem hc)).cons _

/-- **The items below a folder** are those that have it among their ancestors, in document order. -/
theorem itemsUnder_eq (h : t.WellFormed) (hf : t.isFolder id = true) : t.itemsUnder id =
    t.documentOrder.filter fun m => t.isItem m && decide (id ∈ t.ancestors m) := by
  have hid := lt_size_of_isFolder hf
  refine eq_filter_of_sublist (List.filter_sublist.trans (h.sublist_documentOrder hid))
    (nodup_descendants h h.root_lt) fun m => ?_
  rw [itemsUnder, List.mem_filter, h.mem_descendants_iff hid, mem_documentOrder h,
    Bool.and_eq_true, decide_eq_true_eq]
  constructor
  · rintro ⟨rfl | hanc, hi⟩
    · rw [isItem_eq_false hf] at hi
      exact absurd hi Bool.false_ne_true
    · exact ⟨lt_size_of_isItem hi, hi, hanc⟩
  · rintro ⟨-, hi, hanc⟩
    exact ⟨Or.inr hanc, hi⟩

/-- The depth of a node is the number of segments of its path. -/
theorem depth_eq_segments (h : t.WellFormed) {x : Node} (hx : t.node? id = some x) :
    t.depth id = (segments x.path).length := by
  have hid := lt_size_of_node? hx
  rw [h.depth_eq hid, h.path_of_node? hx, segments_pathOf (h.isName_of_mem_trail hid)]

end WellFormed

/-! ## What holds of all reachable trees -/

/-- Both walks come to an end, and they agree with each other. -/
structure Traversed (t : Tree) : Prop where
  /-- Working off the stack comes to an end. -/
  down : ∀ {id}, id < t.size → Visits t [id] (t.descendants id)
  /-- A node comes before its children, and a child with all below it before the next one. -/
  preorder : ∀ {id}, id < t.size →
    t.descendants id = id :: (t.childrenOf id).flatMap t.descendants
  /-- No node is met twice. -/
  nodup : ∀ {id}, id < t.size → (t.descendants id).Nodup
  /-- Following parents comes to an end. -/
  up : ∀ id, Climbs t (t.parent? id) (t.ancestors id)
  /-- Nothing is above the root. -/
  above_root : t.ancestors root = []
  /-- The parent comes first, and then what is above it. -/
  parent_first : ∀ {id p}, t.parent? id = some p → t.ancestors id = p :: t.ancestors p
  /-- The root comes last. -/
  root_last : ∀ {id}, id < t.size → id ≠ root → (t.ancestors id).getLast? = some root
  /-- A node is below another if it is that node or has it among its ancestors. -/
  below_iff : ∀ {id}, id < t.size → ∀ m, m ∈ t.descendants id ↔ m = id ∨ id ∈ t.ancestors m
  /-- The depth of a node is the number of segments of its path. -/
  depth : ∀ {id n}, t.node? id = some n → t.depth id = (segments n.path).length
  /-- Each node is below the root once. -/
  all : ∀ id, (t.descendants root).count id = if id < t.size then 1 else 0
  /-- The items below a folder are those that have it among their ancestors, in document order. -/
  items : ∀ {id}, t.isFolder id = true → t.itemsUnder id =
    (t.descendants root).filter fun m => t.isItem m && decide (id ∈ t.ancestors m)

/-- **Every walk through a reachable tree comes to an end** and meets what it has to. -/
theorem traversed_of_reachable (hr : Reachable t) : t.Traversed := by
  have h := hr.settled.wellFormed
  constructor
  case down => exact h.visits_descendants
  case preorder => exact h.descendants_eq
  case nodup => exact nodup_descendants h
  case up => exact h.climbs_ancestors
  case above_root => exact h.ancestors_root
  case parent_first => exact h.ancestors_of_parent
  case root_last => exact h.getLast?_ancestors
  case below_iff => exact fun hid m => h.mem_descendants_iff hid
  case depth => exact h.depth_eq_segments
  case all =>
    intro id
    have hperm := (perm_documentOrder h).count_eq id
    rw [documentOrder, List.nodup_range.count] at hperm
    simpa only [List.mem_range] using hperm
  case items => exact h.itemsUnder_eq

/-- An item in a folder that was made before another one: it stands before what is in the other. -/
theorem items_of_interleaved :
    Reachable ((((new "r").add { name := "b/c" }).1.add { name := "a/d" }).1.add
      { name := "b/e" }).1 ∧
    ((((new "r").add { name := "b/c" }).1.add { name := "a/d" }).1.add
      { name := "b/e" }).1.itemsUnder root = [2, 5, 4] := by
  have hr := (((reachable_new "r").step (.add _ { name := "b/c" })).step
    (.add _ { name := "a/d" })).step (.add _ { name := "b/e" })
  have htraversed := traversed_of_reachable hr
  exact ⟨hr, (htraversed.items rfl).trans (by decide)⟩

end Tree

end EntryReport
