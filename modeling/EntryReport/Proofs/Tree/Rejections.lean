import EntryReport.Proofs.Tree.Reachable

/-!
# Why entries are rejected

An entry is rejected because it has no name, or because of one node: an item on the way to its
place, or whatever stands in its place. No other node is to blame, as nothing is below an item
(`Blocks.unique`). So the reasons exclude each other (`Rejected.unique`), and the error of `add`
says which one it was.

The path in an error is put together in two ways: name by name on the way down if the place is
taken, and from all names at once if the way is blocked. Both give the same path.

* `error_iff_of_reachable`: an entry is rejected with an error exactly if there is the reason for
  it.
-/

namespace EntryReport

namespace Tree

variable {t : Tree} {names : List String} {err err' : TreeError} {a b : Nat} {x y : Node}

/-- The reason for which no item can be made under the names, and the error that tells it. -/
inductive Rejected (t : Tree) (names : List String) : TreeError → Prop
  /-- There are no names. -/
  | nameless (h : names = []) : Rejected t names .emptyPath
  /-- An item stands on the way. -/
  | blocked {id : Nat} {n : Node} (node : t.node? id = some n) (item : n.isItem = true)
    (on_way : segments n.path <+: names) (short : segments n.path ≠ names) :
    Rejected t names (.pathThroughItem ("/" ++ "/".intercalate names) n.path)
  /-- The place is taken by a folder below the root. -/
  | folder {id : Nat} {n : Node} (node : t.node? id = some n) (folder : n.isFolder = true)
    (place : segments n.path = names) (below : names ≠ []) :
    Rejected t names (.itemOverFolder ("/" ++ "/".intercalate names))
  /-- The place is taken by an item. -/
  | item {id : Nat} {n : Node} (node : t.node? id = some n) (item : n.isItem = true)
    (place : segments n.path = names) :
    Rejected t names (.duplicateItem ("/" ++ "/".intercalate names))

/-! ## The node that is to blame -/

/-- The node stands in the place of the names, or it is an item on the way there. -/
structure Blocks (t : Tree) (names : List String) (id : Nat) (n : Node) : Prop where
  node : t.node? id = some n
  on_way : segments n.path <+: names
  stops : n.isItem = true ∨ segments n.path = names

/-- The names of a node's path are those on the way down to it. -/
theorem WellFormed.segments_path (h : t.WellFormed) (hx : t.node? a = some x) :
    segments x.path = t.trail a := by
  rw [h.path_of_node? hx, segments_pathOf (h.isName_of_mem_trail (lt_size_of_node? hx))]

/-- Nothing is below an item. -/
theorem WellFormed.eq_of_item_on_way (h : t.WellFormed) (hx : t.node? a = some x)
    (hi : x.isItem = true) (hb : b < t.size) (hab : t.trail a <+: t.trail b) : a = b := by
  have hitem : t.isItem a = true := by rw [isItem_of_node? hx, hi]
  by_contra hne
  have hfolder := h.isFolder_of_prefix (lt_size_of_node? hx) hb hab hne
  rw [isItem_eq_false hfolder] at hitem
  exact absurd hitem Bool.false_ne_true

/-- An item has names. -/
theorem WellFormed.segments_ne_nil (h : t.WellFormed) (hx : t.node? a = some x)
    (hi : x.isItem = true) : segments x.path ≠ [] := by
  rw [h.segments_path hx, Ne, h.trail_eq_nil_iff (lt_size_of_node? hx)]
  rintro rfl
  have hitem : t.isItem root = true := by rw [isItem_of_node? hx, hi]
  rw [isItem_eq_false h.isFolder_root] at hitem
  exact absurd hitem Bool.false_ne_true

/-- The shorter of two ways ends at an item, or they are the same. -/
theorem Blocks.eq_of_prefix (h : t.WellFormed) (hx : Blocks t names a x) (hy : Blocks t names b y)
    (hxy : segments x.path <+: segments y.path) : a = b := by
  have ha := lt_size_of_node? hx.node
  have hb := lt_size_of_node? hy.node
  rcases hx.stops with hi | hplace
  · rw [h.segments_path hx.node, h.segments_path hy.node] at hxy
    exact h.eq_of_item_on_way hx.node hi hb hxy
  · rw [hplace] at hxy
    have hsame := hy.on_way.eq_of_length_le hxy.length_le
    rw [← hplace, h.segments_path hx.node, h.segments_path hy.node] at hsame
    exact h.trail_inj ha hb hsame.symm

/-- **One node is to blame.** -/
theorem Blocks.unique (h : t.WellFormed) (hx : Blocks t names a x) (hy : Blocks t names b y) :
    a = b ∧ x = y := by
  have hab : a = b := by
    rcases List.prefix_or_prefix_of_prefix hx.on_way hy.on_way with hxy | hyx
    · exact hx.eq_of_prefix h hy hxy
    · exact (hy.eq_of_prefix h hx hyx).symm
  subst hab
  exact ⟨rfl, Option.some.inj (hx.node.symm.trans hy.node)⟩

/-- An entry without a name has no node to blame. -/
theorem Rejected.eq_emptyPath (h : t.WellFormed) (hr : Rejected t [] err) : err = .emptyPath := by
  cases hr with
  | nameless _ => rfl
  | blocked _ _ on_way short => exact absurd (List.prefix_nil.mp on_way) short
  | folder _ _ _ below => exact absurd rfl below
  | item node item place => exact absurd place (h.segments_ne_nil node item)

/-- The error of which a node is the reason. -/
def rejection (names : List String) (n : Node) : TreeError :=
  if segments n.path = names then
    if n.isFolder then .itemOverFolder ("/" ++ "/".intercalate names)
    else .duplicateItem ("/" ++ "/".intercalate names)
  else .pathThroughItem ("/" ++ "/".intercalate names) n.path

/-- Any other entry has one, and that says which error it is. -/
theorem Rejected.exists_blocks (hr : Rejected t names err) (hne : names ≠ []) :
    ∃ id n, Blocks t names id n ∧ err = rejection names n := by
  cases hr with
  | nameless hnil => exact absurd hnil hne
  | blocked node item on_way short =>
    exact ⟨_, _, ⟨node, on_way, Or.inl item⟩, (if_neg short).symm⟩
  | folder node folder place _ =>
    refine ⟨_, _, ⟨node, place ▸ List.prefix_rfl, Or.inr place⟩, ?_⟩
    rw [rejection, if_pos place, if_pos folder]
  | item node item place =>
    refine ⟨_, _, ⟨node, place ▸ List.prefix_rfl, Or.inl item⟩, ?_⟩
    rw [rejection, if_pos place, if_neg (by simpa [Node.isItem] using item)]

/-- **The reasons exclude each other.** -/
theorem Rejected.unique (h : t.WellFormed) (hr : Rejected t names err)
    (hr' : Rejected t names err') : err = err' := by
  by_cases hnil : names = []
  · subst hnil
    rw [hr.eq_emptyPath h, hr'.eq_emptyPath h]
  · obtain ⟨a, x, hx, rfl⟩ := hr.exists_blocks hnil
    obtain ⟨b, y, hy, rfl⟩ := hr'.exists_blocks hnil
    rw [(hx.unique h hy).2]

/-! ## What `add` says -/

/-- Both ways to put the path together give the names after a slash, and slashes between them. -/
theorem pathOf_eq_intercalate (h : names ≠ []) : pathOf names = "/" ++ "/".intercalate names := by
  rw [pathOf_eq_slashed h, slashed_eq_intercalate h]

/-- An entry is rejected for a reason, and there is none if it becomes an item. -/
theorem Settled.add_rejected (h : t.Settled) (e : Entry) :
    (∃ err, Rejected t (segments e.name) err ∧ t.add e = (t, .error err)) ∨
      ∃ t' id, (∀ err, ¬ Rejected t (segments e.name) err) ∧ t.add e = (t', .ok id) := by
  have hwf := h.wellFormed
  rcases Tree.add_cases hwf h.described e with ⟨hnil, hadd⟩ | ⟨id, n, hn, hi, hway, hshort, hadd⟩ |
    ⟨id, n, hn, hplace, hne, hadd⟩ | ⟨t', id, -, hne, hfree, hclear, hadd⟩
  · exact Or.inl ⟨_, .nameless hnil, hadd⟩
  · rw [← hwf.segments_path hn] at hway hshort
    have hne : segments e.name ≠ [] := fun hnil =>
      hwf.segments_ne_nil hn hi (List.prefix_nil.mp (hnil ▸ hway))
    rw [pathOf_eq_intercalate hne] at hadd
    exact Or.inl ⟨_, .blocked hn hi hway hshort, hadd⟩
  · rw [← hwf.segments_path hn] at hplace
    rw [pathOf_eq_intercalate hne] at hadd
    by_cases hf : n.isFolder = true
    · rw [if_pos hf] at hadd
      exact Or.inl ⟨_, .folder hn hf hplace hne, hadd⟩
    · rw [if_neg hf] at hadd
      exact Or.inl ⟨_, .item hn (by simpa [Node.isItem] using hf) hplace, hadd⟩
  · have hitem : ∀ {m x}, t.node? m = some x → x.isItem = true →
        ¬ segments x.path <+: segments e.name := by
      intro m x hx hi
      rw [hwf.segments_path hx]
      exact hclear m (by rw [isItem_of_node? hx, hi])
    refine Or.inr ⟨t', id, fun err hr => ?_, hadd⟩
    cases hr with
    | nameless hnil => exact hne hnil
    | blocked node item on_way _ => exact hitem node item on_way
    | folder node _ place _ =>
      exact hfree ⟨_, lt_size_of_node? node, by rw [← hwf.segments_path node, place]⟩
    | item node item place => exact hitem node item (place ▸ List.prefix_rfl)

/-- **The error says why.** For an entry there is a reason at most: no name, one item on the way, or
what stands in its place. It is rejected exactly if there is a reason, with the error for it. -/
theorem error_iff_of_reachable (hr : Reachable t) (e : Entry) :
    (∀ err, (t.add e).2 = .error err ↔ Rejected t (segments e.name) err) ∧
    (∀ {err err'}, Rejected t (segments e.name) err → Rejected t (segments e.name) err' →
      err = err') ∧
    ∀ {a b x y}, t.node? a = some x → t.node? b = some y → x.isItem = true → y.isItem = true →
      segments x.path <+: segments e.name → segments y.path <+: segments e.name → a = b := by
  have h := hr.settled
  have hwf := h.wellFormed
  refine ⟨fun err => ?_, fun hr hr' => hr.unique hwf hr', fun hx hy hi hj hxe hye => ?_⟩
  · rcases h.add_rejected e with ⟨err', hreason, hadd⟩ | ⟨t', id, hnone, hadd⟩
    · rw [hadd, Except.error.injEq]
      exact ⟨fun heq => heq ▸ hreason, fun hreason' => hreason.unique hwf hreason'⟩
    · rw [hadd]
      exact iff_of_false (by simp) (hnone err)
  · exact ((Blocks.mk hx hxe (Or.inl hi)).unique hwf ⟨hy, hye, Or.inl hj⟩).1

/-- An item on the way, two levels above the place. -/
theorem error_of_blocked :
    Reachable ((new "r").add { name := "a//b" }).1 ∧
    (((new "r").add { name := "a//b" }).1.add { name := "/a/b//c/d/" }).2 =
      .error (.pathThroughItem "/a/b/c/d" "/a/b") := by
  have hr := (reachable_new "r").step (.add _ { name := "a//b" })
  have hitem : ((new "r").add { name := "a//b" }).1.node? 2 =
      some ⟨"b", "/a/b", some 1, .item ⟨true, false⟩ 0⟩ := rfl
  exact ⟨hr, ((error_iff_of_reachable hr { name := "/a/b//c/d/" }).1 _).mpr
    (.blocked hitem rfl (by decide) (by decide))⟩

end Tree

end EntryReport
