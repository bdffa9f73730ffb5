import EntryReport.Proofs.Tree.Lookup

/-!
# Adding an entry

What `add` can do to a well-formed tree, with every case said in terms of trails.

* `openFolders_cases`: the walk down makes the folders that are missing, or meets an item. It
  cannot meet an item below a folder that it has made, so that it fails only on the tree as it was.
* `addItem_cases`: the item is made unless its trail is taken.
* `add_cases`: both together. `Added` is what holds after a success: the tree has the nodes it had
  and those on the way to the new item, and one more panel.
-/

namespace EntryReport

/-- The panel of the item that an entry becomes. -/
def Entry.panel (e : Entry) : Panel := .ofEntry (pathOf (segments e.name)) e

namespace Tree

variable {t t' : Tree} {current folder id : Nat} {names : List String} {name : String} {e : Entry}

/-! ## Opening folders -/

/-- `t'` is `t` with the folders down to `folder`, whose trail is `names`. -/
structure Opened (t t' : Tree) (names : List String) (folder : Nat) : Prop where
  wellFormed : t'.WellFormed
  described : t'.Described
  keeps : Extends t t'
  panels : t'.panels = t.panels
  isFolder : t'.isFolder folder = true
  trail : t'.trail folder = names
  has : ∀ x, t'.Has x ↔ t.Has x ∨ x <+: names
  same : t.Has names → t' = t

/-- A folder that exists is open. -/
theorem Opened.refl (h : t.WellFormed) (hd : t.Described) (hc : t.isFolder current = true) :
    Opened t t (t.trail current) current where
  wellFormed := h
  described := hd
  keeps := .refl t
  panels := rfl
  isFolder := hc
  trail := rfl
  has _ := ⟨Or.inl, fun hx =>
    hx.elim id fun hx => h.has_of_prefix ⟨current, lt_size_of_isFolder hc, rfl⟩ hx⟩
  same _ := rfl

/-- The tree with a new folder. -/
def withFolder (t : Tree) (p : Nat) (name : String) : Tree :=
  (t.push p name (slashed (t.trail p ++ [name])) (.folder [])).1

theorem WellFormed.withFolder (h : t.WellFormed) (hc : t.isFolder current = true)
    (hname : IsName name) (hfree : ¬ t.Has (t.trail current ++ [name])) :
    (t.withFolder current name).WellFormed := by
  have hnone := (h.childNamed?_eq_none_iff_not_has (lt_size_of_isFolder hc)).mpr hfree
  have hpath : slashed (t.trail current ++ [name]) = pathOf (t.trail current ++ [name]) :=
    (pathOf_eq_slashed (by simp)).symm
  exact h.push hc hname (childNamed?_eq_none_iff.mp hnone) hpath rfl

theorem isFolder_withFolder : (t.withFolder current name).isFolder t.size = true :=
  isFolder_iff.mpr ⟨_, bare?_push.trans (if_pos rfl), rfl⟩

theorem trail_withFolder (hc : current < t.size) :
    (t.withFolder current name).trail t.size = t.trail current ++ [name] :=
  trail_push hc

/-- An item of the tree with a new folder is an item of the tree, and not below the folder. -/
theorem WellFormed.not_prefix_of_isItem (h : t.WellFormed)
    (hfree : ¬ t.Has (t.trail current ++ [name]))
    (hi : (t.withFolder current name).isItem id = true) :
    ¬ t.trail current ++ [name] <+: (t.withFolder current name).trail id := by
  intro hbelow
  obtain ⟨n, _, _, hn, hk⟩ := isItem_iff.mp hi
  rcases bare?_push_cases hn with ⟨-, rfl⟩ | ⟨hold, -⟩
  · exact absurd (Node.kind_bare.mp hk) (by simp)
  · rw [Tree.withFolder, extends_push.trail_eq hold] at hbelow
    exact hfree (h.has_of_prefix ⟨id, hold, rfl⟩ hbelow)

/-- Making one folder and opening further ones below it. -/
theorem Opened.of_withFolder (hwf : t.WellFormed) (hc : t.isFolder current = true)
    (hfree : ¬ t.Has (t.trail current ++ [name]))
    (h : Opened (t.withFolder current name) t' names folder)
    (hnames : t.trail current ++ [name] <+: names) : Opened t t' names folder where
  wellFormed := h.wellFormed
  described := h.described
  keeps := extends_push.trans h.keeps
  panels := by rw [h.panels, withFolder, panels_push]
  isFolder := h.isFolder
  trail := h.trail
  has x := by
    rw [h.has, withFolder, has_push (lt_size_of_isFolder hc), or_assoc]
    exact or_congr_right ⟨fun hx => hx.elim (fun hx => hx ▸ hnames) id, Or.inr⟩
  same hall := absurd (hwf.has_of_prefix hall hnames) hfree

/-- No item is on the way to a folder that has been opened. -/
theorem Opened.not_on_way (h : Opened t t' names folder) (hi : t.isItem id = true) :
    ¬ t.trail id <+: names := by
  intro hpre
  have hlt := lt_size_of_isItem hi
  have hlt' := hlt.trans_le h.keeps.size_le
  rw [← h.keeps.trail_eq hlt, ← h.trail] at hpre
  have hf : t'.isFolder id = true := by
    by_cases hid : id = folder
    · rw [hid, h.isFolder]
    · exact h.wellFormed.isFolder_of_prefix hlt' (lt_size_of_isFolder h.isFolder) hpre hid
  rw [← h.keeps.isItem_eq hlt, isItem_eq_false hf] at hi
  exact absurd hi (by simp)

/-- **The walk down** meets an item below `current`, and then nothing has changed, or it opens all
folders. -/
theorem openFolders_cases (full : String) (h : t.WellFormed) (hd : t.Described)
    (hc : t.isFolder current = true) (hnames : ∀ n ∈ names, IsName n) :
    (∃ id n, t.node? id = some n ∧ n.isItem = true ∧ t.trail current <+: t.trail id ∧
      t.trail id <+: t.trail current ++ names ∧
      t.openFolders full current (slashed (t.trail current)) names =
        (t, .error (.pathThroughItem full n.path))) ∨
    ∃ t' folder, Opened t t' (t.trail current ++ names) folder ∧
      t.openFolders full current (slashed (t.trail current)) names =
        (t', .ok (folder, slashed (t.trail current ++ names))) := by
  induction names generalizing t current with
  | nil =>
    refine Or.inr ⟨t, current, ?_, ?_⟩
    · rw [List.append_nil]
      exact Opened.refl h hd hc
    · rw [List.append_nil, openFolders]
  | cons name names ih =>
    have hname := hnames name List.mem_cons_self
    have hrest : ∀ n ∈ names, IsName n := fun n hn => hnames n (List.mem_cons_of_mem _ hn)
    have hlt := lt_size_of_isFolder hc
    have hsplit : t.trail current ++ name :: names = (t.trail current ++ [name]) ++ names := by simp
    simp only [openFolders, ← slashed_concat]
    cases hfound : t.childNamed? current name with
    | some found =>
      obtain ⟨hn, htrail⟩ := h.of_childNamed? hfound
      simp only
      cases hitem : found.2.isItem with
      | true =>
        refine Or.inl ⟨found.1, found.2, hn, hitem, ?_, ?_, by rw [if_pos rfl]⟩
        · rw [htrail]
          exact List.prefix_append _ _
        · rw [htrail, hsplit]
          exact List.prefix_append _ _
      | false =>
        have hf : t.isFolder found.1 = true :=
          isFolder_iff.mpr ⟨_, bare?_of_node? hn, by simpa [Node.isItem] using hitem⟩
        rw [if_neg Bool.false_ne_true, ← htrail, hsplit, ← htrail]
        refine (ih h hd hf hrest).imp_left ?_
        rintro ⟨id, n, hid, hi, hbelow, hon, hr⟩
        refine ⟨id, n, hid, hi, ?_, hon, hr⟩
        rw [htrail] at hbelow
        exact (List.prefix_append _ _).trans hbelow
    | none =>
      have hfree := (h.childNamed?_eq_none_iff_not_has hlt).mp hfound
      have hrec := ih (h.withFolder hc hname hfree) hd.push_folder isFolder_withFolder hrest
      rw [trail_withFolder hlt] at hrec
      rw [hsplit]
      rcases hrec with ⟨id, n, hid, hi, hbelow, -⟩ | ⟨t', folder, hopened, hr⟩
      · -- a folder that has just been made has no item below it
        have hitem : (t.withFolder current name).isItem id = true := by
          rw [isItem, hid]
          exact hi
        exact absurd hbelow (h.not_prefix_of_isItem hfree hitem)
      · exact Or.inr
          ⟨t', folder, hopened.of_withFolder h hc hfree (List.prefix_append _ _), hr⟩

/-! ## Making the item -/

/-- `t'` is `t` with the item `id` of the entry. -/
structure Added (t t' : Tree) (e : Entry) (id : Nat) : Prop where
  wellFormed : t'.WellFormed
  described : t'.Described
  keeps : Extends t t'
  panels : t'.panels = t.panels.push e.panel
  isItem : t'.isItem id = true
  trail : t'.trail id = segments e.name
  has : ∀ x, t'.Has x ↔ t.Has x ∨ x <+: segments e.name

/-- Pushing the item and its panel adds the entry. -/
theorem added_push (h : t.WellFormed) (hd : t.Described) (hf : t.isFolder folder = true)
    (hname : IsName name) (hsegs : segments e.name = t.trail folder ++ [name])
    (hfree : t.childNamed? folder name = none) :
    Added t ((t.addPanel e.panel).push folder name (pathOf (segments e.name))
      (.item e.panel.tags t.panels.size)).1 e t.size := by
  have hlt : folder < (t.addPanel e.panel).size := lt_size_of_isFolder hf
  have hpname : e.panel.name = name := by
    show Panel.lastSegment (pathOf (segments e.name)) = name
    rw [hsegs, lastSegment_pathOf hname]
  have htrail : (t.addPanel e.panel).trail folder ++ [name] = segments e.name := by
    rw [trail_addPanel, hsegs]
  constructor
  case wellFormed =>
    exact (h.addPanel e.panel).push hf hname (childNamed?_eq_none_iff.mp hfree) (by rw [htrail]) rfl
  case described => exact hd.push_item rfl hpname
  case keeps => exact extends_addPanel.trans extends_push
  case panels => rfl
  case isItem =>
    have hsize : t.size = (t.addPanel e.panel).size := rfl
    exact isItem_iff.mpr ⟨_, _, _, by rw [bare?_push, if_pos hsize], rfl⟩
  case trail => exact (trail_push hlt).trans htrail
  case has =>
    intro x
    have hhas : (t.addPanel e.panel).Has x ↔ t.Has x := by
      simp only [Has, trail_addPanel]
      rfl
    rw [has_push hlt, htrail, hhas]
    refine ⟨Or.imp_right fun hx => hx ▸ List.prefix_rfl, fun hx => hx.elim Or.inl fun hx => ?_⟩
    rw [hsegs, List.prefix_concat_iff, ← hsegs] at hx
    rcases hx with hx | hx
    · exact Or.inr hx
    · exact Or.inl (h.has_of_prefix ⟨folder, hlt, rfl⟩ hx)

/-- **An item is made** unless the folder has a child with its name. -/
theorem addItem_cases (h : t.WellFormed) (hd : t.Described) (hf : t.isFolder folder = true)
    (hname : IsName name) (hsegs : segments e.name = t.trail folder ++ [name]) :
    (∃ id n, t.node? id = some n ∧ t.trail id = segments e.name ∧
      t.addItem folder (pathOf (segments e.name)) name e =
        (t, .error (if n.isFolder then .itemOverFolder (pathOf (segments e.name))
          else .duplicateItem (pathOf (segments e.name))))) ∨
    ∃ t' id, Added t t' e id ∧ ¬ t.Has (segments e.name) ∧
      t.addItem folder (pathOf (segments e.name)) name e = (t', .ok id) := by
  rw [addItem]
  cases hfound : t.childNamed? folder name with
  | some found =>
    obtain ⟨hn, htrail⟩ := h.of_childNamed? hfound
    exact Or.inl ⟨found.1, found.2, hn, htrail.trans hsegs.symm, rfl⟩
  | none =>
    have hfree := (h.childNamed?_eq_none_iff_not_has (lt_size_of_isFolder hf)).mp hfound
    rw [← hsegs] at hfree
    exact Or.inr ⟨_, _, added_push h hd hf hname hsegs hfound, hfree, rfl⟩

/-! ## Both together -/

/-- The item is made in the folder that has been opened. -/
theorem Opened.add {t₁ : Tree} (ho : Opened t t₁ names folder) (ha : Added t₁ t' e id)
    (hnames : names <+: segments e.name) : Added t t' e id where
  wellFormed := ha.wellFormed
  described := ha.described
  keeps := ho.keeps.trans ha.keeps
  panels := by rw [ha.panels, ho.panels]
  isItem := ha.isItem
  trail := ha.trail
  has x := by
    rw [ha.has, ho.has, or_assoc]
    exact or_congr_right (or_iff_right_of_imp fun hx => hx.trans hnames)

theorem add_of_openFolders_error {dirs : List String} {leaf : String} {err : TreeError}
    (hsplit : segments e.name = dirs ++ [leaf])
    (h : t.openFolders (pathOf (segments e.name)) root "" dirs = (t', .error err)) :
    t.add e = (t', .error err) := by
  rw [hsplit] at h
  rw [add, hsplit]
  simp [h]

theorem add_of_openFolders_ok {dirs : List String} {leaf path : String}
    (hsplit : segments e.name = dirs ++ [leaf])
    (h : t.openFolders (pathOf (segments e.name)) root "" dirs = (t', .ok (folder, path))) :
    t.add e = t'.addItem folder (path ++ "/" ++ leaf) leaf e := by
  rw [hsplit] at h
  rw [add, hsplit]
  simp [h]

/-- **What `add` can do.** There is no name; or an item stands on the way; or the place is taken;
or the entry becomes an item. The tree changes in the last case only. -/
theorem add_cases (h : t.WellFormed) (hd : t.Described) (e : Entry) :
    (segments e.name = [] ∧ t.add e = (t, .error .emptyPath)) ∨
    (∃ id n, t.node? id = some n ∧ n.isItem = true ∧ t.trail id <+: segments e.name ∧
      t.trail id ≠ segments e.name ∧
      t.add e = (t, .error (.pathThroughItem (pathOf (segments e.name)) n.path))) ∨
    (∃ id n, t.node? id = some n ∧ t.trail id = segments e.name ∧ segments e.name ≠ [] ∧
      t.add e = (t, .error (if n.isFolder then .itemOverFolder (pathOf (segments e.name))
        else .duplicateItem (pathOf (segments e.name))))) ∨
    ∃ t' id, Added t t' e id ∧ segments e.name ≠ [] ∧ ¬ t.Has (segments e.name) ∧
      (∀ m, t.isItem m = true → ¬ t.trail m <+: segments e.name) ∧ t.add e = (t', .ok id) := by
  by_cases hnil : segments e.name = []
  · refine Or.inl ⟨hnil, ?_⟩
    rw [add, hnil]
    rfl
  refine Or.inr ?_
  obtain ⟨dirs, leaf, hsplit⟩ := (List.eq_nil_or_concat' (segments e.name)).resolve_left hnil
  have hnames : ∀ s ∈ dirs ++ [leaf], IsName s := fun s hs =>
    isName_of_mem_segments (hsplit ▸ hs)
  have hdirs : ∀ s ∈ dirs, IsName s := fun s hs => hnames s (List.mem_append_left _ hs)
  have hwalk := openFolders_cases (pathOf (segments e.name)) h hd h.isFolder_root hdirs
  rw [h.trail_root, slashed_nil, List.nil_append] at hwalk
  rcases hwalk with ⟨id, n, hn, hi, -, hon, hr⟩ | ⟨t₁, folder, ho, hr⟩
  · have hlen := hon.length_le
    refine Or.inl ⟨id, n, hn, hi, ?_, fun heq => ?_, add_of_openFolders_error hsplit hr⟩
    · rw [hsplit]
      exact hon.trans (List.prefix_append _ _)
    · rw [heq, hsplit, List.length_append, List.length_singleton] at hlen
      omega
  · have hsegs : segments e.name = t₁.trail folder ++ [leaf] := by rw [ho.trail, hsplit]
    have hpath : slashed dirs ++ "/" ++ leaf = pathOf (segments e.name) := by
      rw [hsplit, pathOf_concat]
    have hadd := add_of_openFolders_ok hsplit hr
    rw [hpath] at hadd
    have hnew : ¬ segments e.name <+: dirs := by
      intro hpre
      have hlen := hpre.length_le
      rw [hsplit, List.length_append, List.length_singleton] at hlen
      omega
    refine Or.inr ?_
    rcases addItem_cases ho.wellFormed ho.described ho.isFolder
      (hnames leaf (by simp)) hsegs with ⟨id, n, hn, htrail, hr'⟩ | ⟨t', id, ha, hfree, hr'⟩
    · -- the place was taken before, so that no folder has been made on the way
      have htaken : t.Has (segments e.name) :=
        ((ho.has _).mp ⟨id, lt_size_of_node? hn, htrail⟩).resolve_right hnew
      have hdirsHad : t.Has dirs := h.has_of_prefix htaken (hsplit ▸ List.prefix_append _ _)
      have hsame := ho.same hdirsHad
      subst hsame
      exact Or.inl ⟨id, n, hn, htrail, hnil, hadd.trans hr'⟩
    · refine Or.inr ⟨t', id, ?_, hnil, fun hhas => hfree ((ho.has _).mpr (Or.inl hhas)), ?_,
        hadd.trans hr'⟩
      · exact ho.add ha (hsplit ▸ List.prefix_append _ _)
      · intro m hm hpre
        rw [hsplit, List.prefix_concat_iff, ← hsplit] at hpre
        rcases hpre with heq | hpre
        · exact hfree ((ho.has _).mpr (Or.inl ⟨m, lt_size_of_isItem hm, heq⟩))
        · exact ho.not_on_way hm hpre

end Tree

end EntryReport
