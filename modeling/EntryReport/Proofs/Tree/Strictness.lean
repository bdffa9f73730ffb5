import EntryReport.Proofs.Results
import EntryReport.Proofs.Tree.Building

/-!
# Building that fails and building that leaves out

`ofEntries` stops at the first entry that does not fit, `build` goes on without it. Up to there the
two do the same (`addAll_cases`), and an entry that is left out does not matter to those after it,
because it leaves the tree as it was (`Settled.addAll_taken`).

* `ofEntries_agrees_build`: `ofEntries` makes the tree of `build` from the entries that `build`
  takes; it fails if and only if `build` leaves something out, and then it fails as the first note
  says.
-/

namespace EntryReport

namespace Tree

variable {t t' : Tree} {e : Entry} {es : List Entry} {id : Nat} {err : TreeError}
  {rootName : String}

/-- The entries that are taken stand in the order of all entries. -/
theorem taken_sublist (t : Tree) (es : List Entry) : (t.taken es).Sublist es := by
  induction es generalizing t with
  | nil => exact List.Sublist.slnil
  | cons e es ih =>
    rcases hr : t.add e with ⟨t', err | id⟩
    · rw [taken_of_error hr]
      exact (ih t').cons e
    · rw [taken_of_ok hr]
      exact (ih t').cons_cons e

/-- **What is left out does not matter**: the entries that are taken fit one after the other. -/
theorem Settled.addAll_taken (h : t.Settled) (es : List Entry) :
    t.addAll (t.taken es) = .ok (t.addFitting es).1 := by
  induction es generalizing t with
  | nil => rfl
  | cons e es ih =>
    rw [addFitting]
    rcases h.add_cases e with ⟨err, hr⟩ | ⟨t', id, ha, hr⟩
    · rw [taken_of_error hr, hr]
      exact ih h
    · rw [taken_of_ok hr, addAll, hr]
      exact ih (h.of_added ha)

/-! ## The first entry that does not fit -/

theorem addAll_cons_of_ok (h : t.add e = (t', .ok id)) : t.addAll (e :: es) = t'.addAll es := by
  rw [addAll, h]

theorem addAll_cons_of_error (h : t.add e = (t', .error err)) :
    t.addAll (e :: es) = .error err := by
  rw [addAll, h]

/-- If an entry does not fit, nothing behind it changes the error. -/
theorem addAll_of_stop {before : List Entry} (after : List Entry)
    (h : t.addAll (before ++ [e]) = .error err) :
    t.addAll (before ++ e :: after) = .error err := by
  induction before generalizing t with
  | nil =>
    rw [List.nil_append] at h ⊢
    rcases hr : t.add e with ⟨t', err' | id⟩
    · rw [addAll_cons_of_error hr] at h ⊢
      exact h
    · rw [addAll_cons_of_ok hr, addAll] at h
      exact absurd h (by simp)
  | cons a before ih =>
    rw [List.cons_append] at h ⊢
    rcases hr : t.add a with ⟨t', err' | id⟩
    · rw [addAll_cons_of_error hr] at h ⊢
      exact h
    · rw [addAll_cons_of_ok hr] at h ⊢
      exact ih h

/-- **All entries fit**, or there is a first one that does not. -/
theorem addAll_cases (t : Tree) (es : List Entry) :
    (t.skipped es = [] ∧ ∃ t', t.addAll es = .ok t') ∨
      ∃ before e after err, es = before ++ e :: after ∧ (∃ t', t.addAll before = .ok t') ∧
        t.addAll (before ++ [e]) = .error err ∧
        (t.skipped es).head? = some ⟨e.name, err.message⟩ := by
  induction es generalizing t with
  | nil => exact Or.inl ⟨rfl, t, rfl⟩
  | cons a es ih =>
    rcases hr : t.add a with ⟨t', err | id⟩
    · refine Or.inr ⟨[], a, es, err, rfl, ⟨t, rfl⟩, addAll_cons_of_error hr, ?_⟩
      rw [skipped_of_error hr, List.head?_cons]
    · rw [skipped_of_ok hr, addAll_cons_of_ok hr]
      refine (ih t').imp_right ?_
      rintro ⟨before, e, after, err, rfl, ⟨t₁, hbefore⟩, herr, hnoted⟩
      refine ⟨a :: before, e, after, err, rfl, ⟨t₁, ?_⟩, ?_, hnoted⟩
      · rw [addAll_cons_of_ok hr, hbefore]
      · rw [List.cons_append, addAll_cons_of_ok hr, herr]

/-! ## Both ways of building -/

theorem exists_ofEntries_iff :
    (∃ t, ofEntries rootName es = .ok t) ↔ ∃ t, (new rootName).addAll es = .ok t := by
  unfold ofEntries
  simp only [map_eq_ok_iff]
  exact ⟨fun ⟨_, t, ht, _⟩ => ⟨t, ht⟩, fun ⟨t, ht⟩ => ⟨t.sort, t, ht, rfl⟩⟩

theorem ofEntries_eq_error_iff :
    ofEntries rootName es = .error err ↔ (new rootName).addAll es = .error err := by
  unfold ofEntries
  cases (new rootName).addAll es <;> simp [Except.map]

/-- **The two ways of building agree.** The notes of `build` are about the entries that it does not
take. From those that it takes `ofEntries` makes the same tree. `ofEntries` succeeds on all entries
if and only if there is no note; otherwise its error is told by the first note, which names the
first entry that cannot be added to those before it. -/
theorem ofEntries_agrees_build (rootName : String) (es : List Entry) :
    (build rootName es).2 = (new rootName).skipped es ∧
    ((new rootName).taken es).Sublist es ∧
    ofEntries rootName ((new rootName).taken es) = .ok (build rootName es).1 ∧
    ((∃ t, ofEntries rootName es = .ok t) ↔ (build rootName es).2 = []) ∧
    ∀ err, ofEntries rootName es = .error err ↔
      ∃ before e after, es = before ++ e :: after ∧ (∃ t, ofEntries rootName before = .ok t) ∧
        ofEntries rootName (before ++ [e]) = .error err ∧
        (build rootName es).2.head? = some ⟨e.name, err.message⟩ := by
  have hskipped : (build rootName es).2 = (new rootName).skipped es :=
    addFitting_snd (new rootName) es
  refine ⟨hskipped, taken_sublist _ es, ?_, ?_, fun err => ⟨fun herr => ?_, ?_⟩⟩
  · rw [ofEntries, (settled_new rootName).addAll_taken es]
    rfl
  · rw [hskipped, exists_ofEntries_iff]
    rcases addAll_cases (new rootName) es with
      ⟨hnone, hok⟩ | ⟨before, e, after, err, rfl, -, herr, hnoted⟩
    · exact iff_of_true hok hnone
    · refine iff_of_false (by simp [addAll_of_stop after herr]) fun hnone => ?_
      rw [hnone] at hnoted
      exact absurd hnoted (by simp)
  · rw [ofEntries_eq_error_iff] at herr
    rw [hskipped]
    rcases addAll_cases (new rootName) es with
      ⟨-, t, hok⟩ | ⟨before, e, after, err', rfl, hbefore, herr', hnoted⟩
    · rw [herr] at hok
      exact absurd hok (by simp)
    · have hsame := addAll_of_stop after herr'
      rw [herr, Except.error.injEq] at hsame
      subst hsame
      exact ⟨before, e, after, rfl, exists_ofEntries_iff.mpr hbefore,
        ofEntries_eq_error_iff.mpr herr', hnoted⟩
  · rintro ⟨before, e, after, rfl, -, herr, -⟩
    exact ofEntries_eq_error_iff.mpr (addAll_of_stop after (ofEntries_eq_error_iff.mp herr))

end Tree

end EntryReport
