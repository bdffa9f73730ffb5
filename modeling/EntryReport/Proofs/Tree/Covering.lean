import EntryReport.Proofs.Tree.Building

/-!
# Entries that come after those below them

If no entry is on the way to a later one (`Descending`), an item is never met on the way and no
place is taken by an item. All that can be wrong with an entry is that its place is a folder by
then, and that is so if some entry lies below it (`LeadsTo`), whether or not that one was taken
itself: there is always one below it that was.

* `Keeps.add`: what comes of one more entry;
* `build_of_descending`: what comes of all of them.
-/

namespace EntryReport

namespace Tree

variable {t : Tree} {r : String} {es before kept : List Entry} {e : Entry}

/-- No entry is on the way to a later one. -/
def Descending (es : List Entry) : Prop :=
  es.Pairwise fun a b => ¬ segments a.name <+: segments b.name

/-- The entry is on the way to another one of the list. -/
def LeadsTo (es : List Entry) (e : Entry) : Prop :=
  ∃ a ∈ es, segments e.name <+: segments a.name ∧ segments e.name ≠ segments a.name

instance (es : List Entry) (e : Entry) : Decidable (LeadsTo es e) :=
  inferInstanceAs (Decidable (∃ a ∈ es, _ ∧ _))

/-- The note about an entry whose place is a folder. -/
def overFolder (e : Entry) : Skipped :=
  ⟨e.name, (TreeError.itemOverFolder (pathOf (segments e.name))).message⟩

/-! ## One entry -/

/-- The place of the entry is a folder if an entry of the tree lies below it. -/
theorem Holds.add_of_leadsTo (h : t.Holds r es) (hne : segments e.name ≠ [])
    (habove : ∀ a ∈ es, ¬ segments a.name <+: segments e.name)
    (hbelow : ∃ a ∈ es, segments e.name <+: segments a.name) :
    t.add e = (t, .error (.itemOverFolder (pathOf (segments e.name)))) := by
  rcases Tree.add_cases h.settled.wellFormed h.settled.described e with
    ⟨hnil, -⟩ | ⟨id, n, hn, hi, hpre, -, -⟩ | ⟨id, n, hn, htrail, -, hr⟩ |
      ⟨t', id, -, -, hfree, -, -⟩
  · exact absurd hnil hne
  · have hitem : t.isItem id = true := by rw [isItem_of_node? hn, hi]
    obtain ⟨a, ha, hat⟩ := h.exists_item_iff.mp ⟨id, hitem, rfl⟩
    exact absurd (hat ▸ hpre) (habove a ha)
  · cases hf : n.isFolder with
    | true =>
      rw [hf, if_pos rfl] at hr
      exact hr
    | false =>
      have hitem : t.isItem id = true := by rw [isItem_of_node? hn, Node.isItem, hf]; rfl
      obtain ⟨a, ha, hat⟩ := h.exists_item_iff.mp ⟨id, hitem, htrail⟩
      exact absurd (hat ▸ List.prefix_rfl) (habove a ha)
  · exact absurd (h.has_iff.mpr (Or.inr hbelow)) hfree

/-- The entry is added if no entry of the tree lies below it. -/
theorem Holds.add_of_not_leadsTo (h : t.Holds r es) (hne : segments e.name ≠ [])
    (habove : ∀ a ∈ es, ¬ segments a.name <+: segments e.name)
    (hbelow : ∀ a ∈ es, ¬ segments e.name <+: segments a.name) :
    ∃ t' id, t'.Holds r (es ++ [e]) ∧ t.add e = (t', .ok id) := by
  rcases h.add_cases e with ⟨hnot, -⟩ | ⟨-, hadded⟩
  · exact absurd ⟨hne, fun a ha => ⟨habove a ha, hbelow a ha⟩⟩ hnot
  · exact hadded

/-! ## All entries -/

/-- The tree has kept some of the entries, and each of them is on the way to one that was kept. -/
structure Keeps (t : Tree) (rootName : String) (before kept : List Entry) : Prop where
  holds : t.Holds rootName kept
  subset : kept ⊆ before
  reaches : ∀ a ∈ before, ∃ k ∈ kept, segments a.name <+: segments k.name

/-- Only what comes before an entry can lie below it. -/
theorem leadsTo_iff_before {after : List Entry} (h : Descending (before ++ e :: after)) :
    LeadsTo (before ++ e :: after) e ↔ ∃ a ∈ before, segments e.name <+: segments a.name := by
  obtain ⟨-, hafter, hcross⟩ := List.pairwise_append.mp h
  have hlater := (List.pairwise_cons.mp hafter).1
  constructor
  · rintro ⟨a, ha, hpre, hne⟩
    rcases List.mem_append.mp ha with ha | ha
    · exact ⟨a, ha, hpre⟩
    · rcases List.mem_cons.mp ha with rfl | ha
      · exact absurd rfl hne
      · exact absurd hpre (hlater a ha)
  · rintro ⟨a, ha, hpre⟩
    refine ⟨a, List.mem_append_left _ ha, hpre, fun heq => ?_⟩
    exact hcross a ha e List.mem_cons_self (heq ▸ List.prefix_rfl)

/-- **One more entry**: it is kept, unless it is on the way to another one. -/
theorem Keeps.add (h : Keeps t r before kept) (hne : segments e.name ≠ []) {after : List Entry}
    (hdesc : Descending (before ++ e :: after)) :
    (LeadsTo (before ++ e :: after) e ∧ Keeps t r (before ++ [e]) kept ∧
      t.add e = (t, .error (.itemOverFolder (pathOf (segments e.name))))) ∨
    (¬ LeadsTo (before ++ e :: after) e ∧
      ∃ t' id, Keeps t' r (before ++ [e]) (kept ++ [e]) ∧ t.add e = (t', .ok id)) := by
  have habove : ∀ a ∈ kept, ¬ segments a.name <+: segments e.name := fun a ha =>
    (List.pairwise_append.mp hdesc).2.2 a (h.subset ha) e List.mem_cons_self
  rw [leadsTo_iff_before hdesc]
  by_cases hbelow : ∃ a ∈ before, segments e.name <+: segments a.name
  · obtain ⟨a, ha, hpre⟩ := hbelow
    -- what is below may have been left out itself, but then for something still further below
    obtain ⟨k, hk, hreach⟩ := h.reaches a ha
    have hreached : ∃ k ∈ kept, segments e.name <+: segments k.name := ⟨k, hk, hpre.trans hreach⟩
    refine Or.inl ⟨⟨a, ha, hpre⟩, ⟨h.holds, ?_, ?_⟩, h.holds.add_of_leadsTo hne habove hreached⟩
    · exact fun x hx => List.mem_append_left _ (h.subset hx)
    · exact List.forall_mem_append.mpr ⟨h.reaches, List.forall_mem_singleton.mpr hreached⟩
  · obtain ⟨t', id, hholds, hr⟩ := h.holds.add_of_not_leadsTo hne habove
      fun a ha hpre => hbelow ⟨a, h.subset ha, hpre⟩
    refine Or.inr ⟨hbelow, t', id, ⟨hholds, ?_, ?_⟩, hr⟩
    · exact List.append_subset.mpr ⟨fun x hx => List.mem_append_left _ (h.subset hx), by simp⟩
    · refine List.forall_mem_append.mpr ⟨fun a ha => ?_, List.forall_mem_singleton.mpr ?_⟩
      · obtain ⟨k, hk, hreach⟩ := h.reaches a ha
        exact ⟨k, List.mem_append_left _ hk, hreach⟩
      · exact ⟨e, by simp, List.prefix_rfl⟩

/-- **A run over entries that descend** keeps those that lead to no other. -/
theorem Keeps.run (h : Keeps t r before kept) (hne : ∀ e ∈ es, segments e.name ≠ [])
    (hdesc : Descending (before ++ es)) :
    t.taken es = es.filter (fun e => ¬ LeadsTo (before ++ es) e) ∧
      t.skipped es = (es.filter (fun e => LeadsTo (before ++ es) e)).map overFolder := by
  induction es generalizing t before kept with
  | nil => exact ⟨rfl, rfl⟩
  | cons e es ih =>
    have hrest : ∀ a ∈ es, segments a.name ≠ [] := fun a ha => hne a (List.mem_cons_of_mem _ ha)
    rcases h.add (hne e List.mem_cons_self) hdesc with
      ⟨hleads, hkeeps, hr⟩ | ⟨hleads, t', id, hkeeps, hr⟩
    · rw [List.append_cons] at hdesc hleads ⊢
      obtain ⟨htaken, hskipped⟩ := ih hkeeps hrest hdesc
      rw [taken_of_error hr, skipped_of_error hr, htaken, hskipped,
        List.filter_cons_of_neg (by simpa using hleads),
        List.filter_cons_of_pos (by simpa using hleads)]
      exact ⟨rfl, rfl⟩
    · rw [List.append_cons] at hdesc hleads ⊢
      obtain ⟨htaken, hskipped⟩ := ih hkeeps hrest hdesc
      rw [taken_of_ok hr, skipped_of_ok hr, htaken, hskipped,
        List.filter_cons_of_pos (by simpa using hleads),
        List.filter_cons_of_neg (by simpa using hleads)]
      exact ⟨rfl, rfl⟩

theorem keeps_new (rootName : String) : Keeps (new rootName) rootName [] [] where
  holds := holds_new rootName
  subset := List.nil_subset _
  reaches _ ha := absurd ha List.not_mem_nil

/-- **A tree of entries that descend** has those for items that lead to no other, and each of the
others is noted, because its place is a folder. -/
theorem build_of_descending (rootName : String) (hne : ∀ e ∈ es, segments e.name ≠ [])
    (hdesc : Descending es) :
    (build rootName es).1.Holds rootName (es.filter fun e => ¬ LeadsTo es e) ∧
      (build rootName es).2 = (es.filter fun e => LeadsTo es e).map overFolder := by
  obtain ⟨htaken, hskipped⟩ := (keeps_new rootName).run hne hdesc
  constructor
  · exact htaken ▸ holds_build rootName es
  · exact (addFitting_snd (new rootName) es).trans hskipped

end Tree

end EntryReport
