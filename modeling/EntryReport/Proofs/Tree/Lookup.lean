import EntryReport.Proofs.Tree.WellFormed

/-!
# Looking nodes up

In a well-formed tree a child is found by its name and a node by its path, because there is no
more than one: `childNamed?_eq_some_iff`, `find?_eq_some_iff`.
-/

namespace EntryReport

namespace Tree

variable {t : Tree} {id p : Nat} {n : Node} {name path : String} {names : List String}

/-! ## Children by name -/

theorem mem_of_childNamed?_eq_some (h : t.childNamed? p name = some (id, n)) :
    id ∈ t.childrenOf p ∧ t.node? id = some n ∧ n.name = name := by
  obtain ⟨c, hc, hcn⟩ := List.exists_of_findSome?_eq_some h
  cases hm : t.node? c with
  | none =>
    rw [hm] at hcn
    exact absurd hcn (by simp)
  | some m =>
    rw [hm] at hcn
    simp only [Option.ite_none_right_eq_some, Option.some.injEq, Prod.mk.injEq] at hcn
    obtain ⟨hname, rfl, rfl⟩ := hcn
    exact ⟨hc, hm, hname⟩

theorem childNamed?_eq_none_iff : t.childNamed? p name = none ↔
    ∀ c ∈ t.childrenOf p, ∀ n, t.bare? c = some n → n.name ≠ name := by
  rw [childNamed?, List.findSome?_eq_none_iff]
  refine forall_congr' fun c => forall_congr' fun _ => ?_
  rw [bare?]
  cases hn : t.node? c with
  | none => simp
  | some n => simp

namespace WellFormed

/-- The child that is found has a trail that goes on with the name. -/
theorem of_childNamed? (h : t.WellFormed) (hf : t.childNamed? p name = some (id, n)) :
    t.node? id = some n ∧ t.trail id = t.trail p ++ [name] := by
  obtain ⟨hc, hn, hname⟩ := mem_of_childNamed?_eq_some hf
  obtain ⟨m, hm, hpar⟩ := h.mem_children_iff.mp hc
  have hmn := (bare?_of_node? hn).symm.trans hm
  cases hmn
  rw [h.trail_child hm hpar, Node.name_bare, hname]
  exact ⟨hn, rfl⟩

/-- **The child with a name** is the node whose trail goes on with the name. -/
theorem childNamed?_eq_some_iff (h : t.WellFormed) (hp : p < t.size) :
    t.childNamed? p name = some (id, n) ↔
      t.node? id = some n ∧ t.trail id = t.trail p ++ [name] := by
  refine ⟨h.of_childNamed?, ?_⟩
  rintro ⟨hn, htrail⟩
  -- the node is among the children, so that some child with the name is found
  have hid := lt_size_of_node? hn
  have hb := bare?_of_node? hn
  rcases h.root_or_child hid with rfl | ⟨m, q, hm, hq, -, hf, htr⟩
  · rw [h.trail_root] at htrail
    exact absurd htrail (by simp)
  rw [hb, Option.some.injEq] at hm
  subst hm
  rw [htrail] at htr
  obtain ⟨hpq, hname⟩ := List.append_inj' htr rfl
  have hqp : p = q := h.trail_inj hp (lt_size_of_isFolder hf) hpq
  have hmem : id ∈ t.childrenOf p := h.mem_children_iff.mpr ⟨_, hb, hqp ▸ hq⟩
  cases hfound : t.childNamed? p name with
  | none =>
    exact absurd (List.singleton_inj.mp hname).symm (childNamed?_eq_none_iff.mp hfound _ hmem _ hb)
  | some found =>
    obtain ⟨hm, hfoundTrail⟩ := h.of_childNamed? hfound
    have hsame := h.trail_inj (lt_size_of_node? hm) hid (hfoundTrail.trans htrail.symm)
    rw [hsame, hn, Option.some.injEq] at hm
    rw [← hsame, hm]

theorem childNamed?_eq_none_iff_not_has (h : t.WellFormed) (hp : p < t.size) :
    t.childNamed? p name = none ↔ ¬ t.Has (t.trail p ++ [name]) := by
  constructor
  · rintro hnone ⟨id, hid, htrail⟩
    obtain ⟨n, hn⟩ := node?_eq_some_iff.mpr hid
    rw [(h.childNamed?_eq_some_iff hp).mpr ⟨hn, htrail⟩] at hnone
    exact absurd hnone (by simp)
  · intro hnot
    cases hfound : t.childNamed? p name with
    | none => rfl
    | some found =>
      obtain ⟨hm, htrail⟩ := h.of_childNamed? hfound
      exact absurd ⟨found.1, lt_size_of_node? hm, htrail⟩ hnot

end WellFormed

/-! ## Nodes by path -/

/-- The walk that `find?` makes. -/
def follow (t : Tree) (id : Nat) (names : List String) : Option Nat :=
  names.foldlM (fun id name => (t.childNamed? id name).map (·.1)) id

theorem find?_eq_follow : t.find? path = t.follow root (segments path) := rfl

theorem WellFormed.follow_eq_some_iff (h : t.WellFormed) {c : Nat} (hc : c < t.size) :
    t.follow c names = some id ↔ id < t.size ∧ t.trail id = t.trail c ++ names := by
  induction names generalizing c with
  | nil =>
    rw [follow, List.foldlM_nil, List.append_nil]
    constructor
    · intro heq
      cases heq
      exact ⟨hc, rfl⟩
    · rintro ⟨hid, htrail⟩
      rw [h.trail_inj hid hc htrail]
      rfl
  | cons name names ih =>
    have hsplit : t.trail c ++ name :: names = (t.trail c ++ [name]) ++ names := by simp
    rw [follow, List.foldlM_cons, hsplit]
    cases hfound : t.childNamed? c name with
    | none =>
      refine iff_of_false (by simp) ?_
      rintro ⟨hid, htrail⟩
      have hhas := h.has_of_prefix ⟨id, hid, htrail⟩ (List.prefix_append _ _)
      exact (h.childNamed?_eq_none_iff_not_has hc).mp hfound hhas
    | some found =>
      obtain ⟨hn, htrail⟩ := h.of_childNamed? hfound
      rw [← htrail, ← ih (lt_size_of_node? hn)]
      rfl

/-- **A path finds the node** whose trail has the names of the path. -/
theorem WellFormed.find?_eq_some_iff (h : t.WellFormed) :
    t.find? path = some id ↔ id < t.size ∧ t.trail id = segments path := by
  rw [find?_eq_follow, h.follow_eq_some_iff h.root_lt, h.trail_root, List.nil_append]

end Tree

end EntryReport
