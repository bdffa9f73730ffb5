import EntryReport.Proofs.Panel.FirstUse
import Mathlib.Data.Finset.Dedup
import Mathlib.Data.List.Basic

/-!
# What a panel warns of

The rows of a panel are known: those of the declared names, and one for each name that is used, or
is a column of the test result, without being declared (`mem_inputRows`, `mem_outputRows`). So some
row has a warning if the two sets of names differ.

* `Entry.Warned`: what there is to warn of in an entry;
* `warnings_ne_nil_iff`: when a panel has warnings;
* `tags_ofEntry`: the tags of a panel say that it has warnings, and that its entry has an error.
-/

namespace EntryReport

/-! ## Sets of names -/

/-- Two lists have different members if one has a member that the other has not. -/
theorem toFinset_ne_iff {a b : List String} :
    a.toFinset ≠ b.toFinset ↔ (∃ x ∈ a, x ∉ b) ∨ ∃ x ∈ b, x ∉ a := by
  rw [Ne, List.toFinset.ext_iff, not_forall]
  constructor
  · rintro ⟨x, hx⟩
    by_cases ha : x ∈ a
    · exact Or.inl ⟨x, ha, fun hb => hx (iff_of_true ha hb)⟩
    · refine Or.inr ⟨x, ?_, ha⟩
      by_contra hb
      exact hx (iff_of_false ha hb)
  · rintro (⟨x, ha, hb⟩ | ⟨x, hb, ha⟩)
    · exact ⟨x, fun h => hb (h.mp ha)⟩
    · exact ⟨x, fun h => ha (h.mpr hb)⟩

namespace Panel

variable {e : Entry} {r : Row} {s : Option String}

theorem isSome_nonempty_iff : (nonempty s).isSome = true ↔ ∃ w, s = some w ∧ w ≠ "" := by
  unfold nonempty
  cases s with
  | none => simp
  | some w => by_cases hw : w = "" <;> simp [Option.filter, hw]

/-- There is no text, or an empty one. -/
theorem nonempty_eq_none_iff : nonempty s = none ↔ s = none ∨ s = some "" := by
  rw [← Option.not_isSome_iff_eq_none, isSome_nonempty_iff]
  cases s with
  | none => simp
  | some w => simp

/-! ## The rows of the parameters -/

/-- A used name has a row of its own if it is not declared and had none before. -/
theorem mem_addUndeclared {inputs : List ParamDoc} {rows : List Row} {used : List String} :
    r ∈ addUndeclared inputs rows used ↔ r ∈ rows ∨ ∃ u ∈ used,
      u ∉ inputs.map (·.key) ∧ u ∉ rows.map (·.name) ∧ r = ⟨u, "", some .usedNotDeclared⟩ := by
  obtain ⟨names, hnames, heq⟩ := exists_firstUses inputs rows used
  rw [heq, List.mem_append, List.mem_map]
  simp only [hnames.mem, not_or, and_assoc, eq_comm (a := r)]

/-- **The rows of the parameters**: those that are declared, and those that are used and not
declared. -/
theorem mem_inputRows : r ∈ inputRows e ↔
    (∃ p ∈ e.inputs,
      r = ⟨p.key, p.description, if p.key ∈ e.used then none else some .declaredNotUsed⟩) ∨
    ∃ u ∈ e.used, u ∉ e.inputs.map (·.key) ∧ r = ⟨u, "", some .usedNotDeclared⟩ := by
  unfold inputRows
  rw [mem_addUndeclared, map_name_declaredRows]
  refine or_congr ?_ (exists_congr fun u => and_congr_right fun _ => ?_)
  · simp only [declaredRows, List.mem_map, eq_comm (a := r)]
  · rw [← and_assoc, and_self]

/-- Some parameter has a warning if the declared names are not the used ones. -/
theorem exists_input_warning_iff : (∃ r ∈ inputRows e, r.warning.isSome = true) ↔
    (e.inputs.map (·.key)).toFinset ≠ e.used.toFinset := by
  rw [toFinset_ne_iff]
  constructor
  · rintro ⟨r, hr, hw⟩
    rcases mem_inputRows.mp hr with ⟨p, hp, rfl⟩ | ⟨u, hu, hkey, -⟩
    · by_cases hused : p.key ∈ e.used
      · simp [hused] at hw
      · exact Or.inl ⟨p.key, List.mem_map_of_mem hp, hused⟩
    · exact Or.inr ⟨u, hu, hkey⟩
  · rintro (⟨key, hkey, hused⟩ | ⟨u, hu, hkey⟩)
    · obtain ⟨p, hp, rfl⟩ := List.mem_map.mp hkey
      exact ⟨_, mem_inputRows.mpr (Or.inl ⟨p, hp, rfl⟩), by simp [hused]⟩
    · exact ⟨_, mem_inputRows.mpr (Or.inr ⟨u, hu, hkey, rfl⟩), rfl⟩

/-! ## The rows of the outputs -/

/-- Rows that are compared with no columns have no warning. -/
theorem outputRows_of_none (hc : checkedColumns? e = none) :
    outputRows e = e.outputs.map fun p => ⟨p.key, p.description, none⟩ := by
  unfold outputRows
  rw [hc]

/-- **The rows of the outputs** that are compared with columns: those that are declared, and those
that are columns and not declared. -/
theorem mem_outputRows {columns : List String} (hc : checkedColumns? e = some columns) :
    r ∈ outputRows e ↔
      (∃ p ∈ e.outputs,
        r = ⟨p.key, p.description, if p.key ∈ columns then none else some .notInResult⟩) ∨
      ∃ c ∈ columns, c ∉ e.outputs.map (·.key) ∧ r = ⟨c, "", some .notDescribed⟩ := by
  unfold outputRows
  rw [hc]
  simp only [List.mem_append, List.mem_map, List.mem_filter, eq_comm (a := r)]
  refine or_congr_right (exists_congr fun c => ?_)
  rw [and_assoc]
  refine and_congr_right fun _ => and_congr_left fun _ => ?_
  simp

/-- Some output has a warning if there are columns that are not the declared outputs. -/
theorem exists_output_warning_iff : (∃ r ∈ outputRows e, r.warning.isSome = true) ↔
    ∃ columns, checkedColumns? e = some columns ∧
      columns.toFinset ≠ (e.outputs.map (·.key)).toFinset := by
  cases hc : checkedColumns? e with
  | none =>
    rw [outputRows_of_none hc]
    simp
  | some columns =>
    simp only [Option.some.injEq, exists_eq_left', toFinset_ne_iff]
    constructor
    · rintro ⟨r, hr, hw⟩
      rcases (mem_outputRows hc).mp hr with ⟨p, hp, rfl⟩ | ⟨c, hmem, hkey, -⟩
      · by_cases hcol : p.key ∈ columns
        · simp [hcol] at hw
        · exact Or.inr ⟨p.key, List.mem_map_of_mem hp, hcol⟩
      · exact Or.inl ⟨c, hmem, hkey⟩
    · rintro (⟨c, hmem, hkey⟩ | ⟨key, hkey, hcol⟩)
      · exact ⟨_, (mem_outputRows hc).mpr (Or.inr ⟨c, hmem, hkey, rfl⟩), rfl⟩
      · obtain ⟨p, hp, rfl⟩ := List.mem_map.mp hkey
        exact ⟨_, (mem_outputRows hc).mpr (Or.inl ⟨p, hp, rfl⟩), by simp [hcol]⟩

/-- The columns are the keys of the first row of a test result, unless the run had an error. -/
theorem checkedColumns?_eq_some_iff {columns : List String} :
    checkedColumns? e = some columns ↔ (e.error = none ∨ e.error = some "") ∧
      ∃ members rows, e.testResult = some (.arr (.obj members :: rows)) ∧
        members.map (·.1) = columns := by
  unfold checkedColumns?
  rw [← nonempty_eq_none_iff]
  cases nonempty e.error with
  | some err => simp
  | none =>
    simp only [Option.isSome_none, Bool.false_eq_true, if_false, true_and]
    constructor
    · intro hc
      unfold columns? at hc
      split at hc
      · next members rows hresult => exact ⟨members, rows, hresult, Option.some.inj hc⟩
      · exact absurd hc (by simp)
    · rintro ⟨members, rows, hresult, rfl⟩
      rw [hresult]
      rfl

/-! ## Warnings and tags -/

/-- **A panel has warnings** if it has no description, or a row or the reading of its entry has
one. -/
theorem warnings_ne_nil_iff {d : Panel} : d.warnings ≠ [] ↔ Text.allBlank d.description = true ∨
    (∃ r ∈ d.inputs, r.warning.isSome = true) ∨ (∃ r ∈ d.outputs, r.warning.isSome = true) ∨
      d.parseWarning.isSome = true := by
  have hrows : (d.inputs ++ d.outputs).filterMap rowWarning? ≠ [] ↔
      (∃ r ∈ d.inputs, r.warning.isSome = true) ∨ ∃ r ∈ d.outputs, r.warning.isSome = true := by
    simp only [Ne, List.filterMap_eq_nil_iff, rowWarning?, Option.map_eq_none_iff,
      List.mem_append, or_imp, forall_and, not_and_or, not_forall, Option.isSome_iff_ne_none,
      exists_prop]
  have hblank : (if Text.allBlank d.description then ["Missing description"] else []) ≠ [] ↔
      Text.allBlank d.description = true := by simp
  have hreading : d.parseWarning.toList ≠ [] ↔ d.parseWarning.isSome = true := by
    cases d.parseWarning <;> simp
  unfold warnings
  simp only [Ne, List.append_eq_nil_iff, not_and_or] at hrows hblank hreading ⊢
  rw [hblank, hrows, hreading, or_assoc, or_assoc]

/-- The tag for warnings is set if there are warnings. -/
theorem hasWarning_ofEntry (id : String) (e : Entry) :
    (ofEntry id e).tags.hasWarning = true ↔ (ofEntry id e).warnings ≠ [] := by
  rw [warnings_ne_nil_iff]
  simp only [ofEntry, Bool.or_eq_true, List.any_eq_true, or_assoc]

/-- Nothing is left of a text that is all blank. -/
theorem allBlank_iff {s : String} : Text.allBlank s = true ↔ Text.trim s = "" := by
  unfold Text.allBlank Text.trim
  rw [List.all_eq_true, ← Text.trimChars_eq_nil_iff, ← String.toList_inj, String.toList_ofList]
  rfl

end Panel

/-- What there is to warn of in an entry. -/
inductive Entry.Warned (e : Entry) : Prop
  /-- Nothing is left of the description when it is trimmed. -/
  | description (h : Text.trim e.description = "")
  /-- The declared parameters are not the used ones. -/
  | parameters (h : (e.inputs.map (·.key)).toFinset ≠ e.used.toFinset)
  /-- A run without an error gave rows of objects, and the keys of the first are not the declared
  outputs. -/
  | outputs {members : List (String × Json)} {rows : List Json}
    (hok : e.error = none ∨ e.error = some "")
    (hresult : e.testResult = some (.arr (.obj members :: rows)))
    (h : (members.map (·.1)).toFinset ≠ (e.outputs.map (·.key)).toFinset)
  /-- There was a warning from reading the entry. -/
  | reading {w : String} (h : e.parseWarning = some w) (hw : w ≠ "")

namespace Panel

theorem hasWarning_iff_warned (id : String) (e : Entry) :
    (ofEntry id e).tags.hasWarning = true ↔ e.Warned := by
  have hdesc : Text.allBlank (ofEntry id e).description = true ↔ Text.trim e.description = "" :=
    allBlank_iff
  have hreading : (ofEntry id e).parseWarning.isSome = true ↔
      ∃ w, e.parseWarning = some w ∧ w ≠ "" := isSome_nonempty_iff
  have hin : (∃ r ∈ (ofEntry id e).inputs, r.warning.isSome = true) ↔ _ :=
    exists_input_warning_iff
  have hout : (∃ r ∈ (ofEntry id e).outputs, r.warning.isSome = true) ↔ _ :=
    exists_output_warning_iff
  rw [hasWarning_ofEntry, warnings_ne_nil_iff, hdesc, hin, hout, hreading]
  constructor
  · rintro (h | h | ⟨columns, hc, h⟩ | ⟨w, h, hw⟩)
    · exact .description h
    · exact .parameters h
    · obtain ⟨hok, members, rows, hresult, rfl⟩ := checkedColumns?_eq_some_iff.mp hc
      exact .outputs hok hresult h
    · exact .reading h hw
  · intro h
    cases h with
    | description h => exact Or.inl h
    | parameters h => exact Or.inr (Or.inl h)
    | outputs hok hresult h =>
      exact Or.inr (Or.inr (Or.inl
        ⟨_, checkedColumns?_eq_some_iff.mpr ⟨hok, _, _, hresult, rfl⟩, h⟩))
    | reading h hw => exact Or.inr (Or.inr (Or.inr ⟨_, h, hw⟩))

/-- **The tags of a panel mean what it says**: one that it has warnings, which is if there is
something to warn of in the entry, and one that the entry has an error. -/
theorem tags_ofEntry (id : String) (e : Entry) :
    ((ofEntry id e).tags.hasWarning = true ↔ (ofEntry id e).warnings ≠ []) ∧
    ((ofEntry id e).tags.hasWarning = true ↔ e.Warned) ∧
    ((ofEntry id e).tags.hasError = true ↔ ∃ err, e.error = some err ∧ err ≠ "") :=
  ⟨hasWarning_ofEntry id e, hasWarning_iff_warned id e, isSome_nonempty_iff⟩

end Panel

end EntryReport
