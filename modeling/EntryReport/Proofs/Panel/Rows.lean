import EntryReport.Proofs.Entry.Codec
import EntryReport.Proofs.Panel.Warnings
import EntryReport.Proofs.Text.ByteOrder

/-!
# The rows of a panel

The rows of the parameters begin with those that are declared, and end with the names that are used
and not declared, in the order of first use. The rows of the outputs end with the columns that are
not declared, in the order of the columns, and the columns of a test result that was read ascend
(`ordered_of_read`).

* `rows_ofEntry`: the rows of a panel as they are shown, and the warnings that they make.
-/

namespace EntryReport

/-! ## What an entry says -/

namespace Entry

/-- The columns that the outputs are compared with: the run had no error, and the keys of the first
row of its result are these. -/
def Columns (e : Entry) (columns : List String) : Prop :=
  (e.error = none ∨ e.error = some "") ∧ ∃ members rows,
    e.testResult = some (.arr (.obj members :: rows)) ∧ members.map (·.1) = columns

/-- The columns of the test result ascend, as the members of all objects do that are read. -/
def Ordered (e : Entry) : Prop :=
  ∀ members rows, e.testResult = some (.arr (.obj members :: rows)) → Json.Ascending members

/-- The entry was read, alone or in a manifest. -/
inductive Read (e : Entry) : Prop
  | alone {s : String} (h : ofText s = .ok e)
  | listed {s : String} {m : Manifest} (h : Manifest.ofText s = .ok m) (he : e ∈ m.entries)

theorem Readable.ordered {e : Entry} {room : Nat} (h : e.Readable room) : e.Ordered := by
  intro members rows hresult
  have hcanonical := (h.testResult _ hresult).2
  rw [Json.Canonical, Json.AllCanonical, Json.Canonical] at hcanonical
  exact hcanonical.2.1.2.1

/-- **The columns of what was read ascend.** -/
theorem ordered_of_read {e : Entry} (h : e.Read) : e.Ordered := by
  cases h with
  | alone h =>
    obtain ⟨d, hd⟩ := Json.Decoder.exists_doc_of_run h
    have hreadable : e.Readable 126 := readable_of_decode hd
    exact hreadable.ordered
  | listed h he =>
    obtain ⟨d, hd⟩ := Json.Decoder.exists_doc_of_run h
    have hreadable : Manifest.Readable 124 _ := Manifest.readable_of_decode hd
    exact (hreadable e he).ordered

end Entry

/-! ## The rows as they are shown -/

/-- What a row is marked with. -/
def Row.mark (r : Row) : Option String := r.warning.map RowWarning.message

/-- What is shown of a row: its name, its description, and what it is marked with. -/
def Row.shown (r : Row) : String × String × Option String := (r.name, r.description, r.mark)

/-- A row with a warning unless something holds is marked unless it does. -/
theorem Row.shown_ite (name description : String) (w : RowWarning) (p : Prop) [Decidable p] :
    Row.shown ⟨name, description, if p then none else some w⟩ =
      (name, description, if p then none else some w.message) := by
  by_cases hp : p
  · rw [if_pos hp, if_pos hp]
    rfl
  · rw [if_neg hp, if_neg hp]
    rfl

namespace Panel

variable {e : Entry}

/-- The declared parameters come first, and then what is used without being declared. -/
theorem shown_inputRows (e : Entry) :
    ∃ names, FirstUses e.used (· ∈ e.inputs.map (·.key)) names ∧
      (inputRows e).map Row.shown =
        (e.inputs.map fun p => (p.key, p.description,
          if p.key ∈ e.used then none else some "Declared and not used")) ++
        names.map fun u => (u, "", some "Used but not declared") := by
  obtain ⟨names, hnames, heq⟩ := exists_firstUses e.inputs (declaredRows e.inputs e.used) e.used
  refine ⟨names, hnames.congr fun w => by rw [map_name_declaredRows, or_self], ?_⟩
  unfold inputRows
  rw [heq, List.map_append, declaredRows, List.map_map, List.map_map]
  congr 1
  exact List.map_congr_left fun p _ => Row.shown_ite ..

/-- The declared outputs come first, and then the columns that are not declared. -/
theorem shown_outputRows {columns : List String} (hc : checkedColumns? e = some columns) :
    (outputRows e).map Row.shown =
      (e.outputs.map fun p => (p.key, p.description,
        if p.key ∈ columns then none else some "Field not found in test result")) ++
      (columns.filter (· ∉ e.outputs.map (·.key))).map fun c =>
        (c, "", some "Field found in test result but not described") := by
  have hfilter : (columns.filter fun c => !e.outputs.any (·.key == c)) =
      columns.filter (· ∉ e.outputs.map (·.key)) :=
    List.filter_congr fun c _ => by
      rw [Bool.eq_iff_iff]
      simp
  unfold outputRows
  rw [hc]
  simp only
  rw [List.map_append, List.map_map, List.map_map, hfilter]
  congr 1
  exact List.map_congr_left fun p _ => Row.shown_ite ..

/-- The names of some of the columns ascend byte by byte. -/
theorem ascending_of_ordered {columns : List String} (hc : e.Columns columns) (he : e.Ordered)
    (p : String → Bool) : (columns.filter p).Pairwise fun c d => Text.bytes c < Text.bytes d := by
  obtain ⟨-, members, rows, hresult, rfl⟩ := hc
  refine List.Pairwise.filter p (List.pairwise_map.mpr ?_)
  exact (he members rows hresult).imp fun hlt => Text.bytes_lt_iff.mpr hlt

/-- The warnings, from the rows as they are shown. -/
theorem warnings_ofEntry (id : String) (e : Entry) :
    (ofEntry id e).warnings =
      (if Text.trim e.description = "" then ["Missing description"] else []) ++
      ((ofEntry id e).inputs ++ (ofEntry id e).outputs).filterMap
        (fun r => r.mark.map (r.name ++ ": " ++ ·)) ++
      e.parseWarning.toList.filter (· ≠ "") := by
  have hmarks : rowWarning? = fun r => r.mark.map (r.name ++ ": " ++ ·) := by
    funext r
    rw [rowWarning?, Row.mark, Option.map_map]
    rfl
  have hreading : (nonempty e.parseWarning).toList = e.parseWarning.toList.filter (· ≠ "") := by
    cases e.parseWarning with
    | none => rfl
    | some w => by_cases hw : w = "" <;> simp [nonempty, Option.filter, hw]
  have hblank : (Text.allBlank e.description = true) = (Text.trim e.description = "") :=
    propext allBlank_iff
  unfold warnings
  rw [hmarks, ← hreading]
  simp only [ofEntry, hblank]

/-! ## What holds of all panels -/

/-- The panel shows the rows of the entry, and warns of those that are marked. -/
structure ShowsRows (e : Entry) (d : Panel) : Prop where
  /-- The declared parameters come in order, each marked if it is not used. Then come the names that
  are used and not declared, in the order of first use. -/
  inputs : ∃ names, FirstUses e.used (· ∈ e.inputs.map (·.key)) names ∧
    d.inputs.map Row.shown =
      (e.inputs.map fun p => (p.key, p.description,
        if p.key ∈ e.used then none else some "Declared and not used")) ++
      names.map fun u => (u, "", some "Used but not declared")
  /-- If there are columns, the declared outputs come in order, each marked if it is no column. Then
  come the columns that are not declared. -/
  outputs : ∀ {columns}, e.Columns columns → d.outputs.map Row.shown =
    (e.outputs.map fun p => (p.key, p.description,
      if p.key ∈ columns then none else some "Field not found in test result")) ++
    (columns.filter (· ∉ e.outputs.map (·.key))).map fun c =>
      (c, "", some "Field found in test result but not described")
  /-- These are in the order of their bytes, and none comes twice. -/
  ascending : ∀ {columns}, e.Columns columns → e.Ordered →
    (columns.filter (· ∉ e.outputs.map (·.key))).Pairwise fun c d => Text.bytes c < Text.bytes d
  /-- If there are no columns, there are only the declared outputs, and none is marked. -/
  unchecked : (∀ columns, ¬ e.Columns columns) →
    d.outputs.map Row.shown = e.outputs.map fun p => (p.key, p.description, none)
  /-- A missing description, the marked rows and what reading the entry gave are warned of, in this
  order. -/
  warnings : d.warnings =
    (if Text.trim e.description = "" then ["Missing description"] else []) ++
    (d.inputs ++ d.outputs).filterMap (fun r => r.mark.map (r.name ++ ": " ++ ·)) ++
    e.parseWarning.toList.filter (· ≠ "")

/-- **Every panel shows the rows of its entry**, and the columns of every entry that was read
ascend. -/
theorem rows_ofEntry : (∀ id e, ShowsRows e (ofEntry id e)) ∧ ∀ e : Entry, e.Read → e.Ordered := by
  refine ⟨fun id e => ?_, fun e => Entry.ordered_of_read⟩
  constructor
  case inputs => exact shown_inputRows e
  case outputs => exact fun hc => shown_outputRows (checkedColumns?_eq_some_iff.mpr hc)
  case ascending => exact fun hc he => ascending_of_ordered hc he _
  case unchecked =>
    intro hnone
    have hc : checkedColumns? e = none := by
      refine Option.eq_none_iff_forall_ne_some.mpr fun columns hsome => ?_
      exact hnone columns (checkedColumns?_eq_some_iff.mp hsome)
    show (outputRows e).map Row.shown = _
    rw [outputRows_of_none hc, List.map_map]
    rfl
  case warnings => exact warnings_ofEntry id e

/-- A name that is declared twice, an empty name and another that is used twice, and a row whose
columns are not in the order of the text. -/
def repeating : String :=
  "[\"x\",\" \",[[\"a\",\"\"],[\"a\",\"\"]],[[\"z\",\"\"]],[\"b\",\"\",\"b\",\"a\"]," ++
    "[\x7b\"é\":1,\"z\":2,\"b\":3\x7d,\x7b\"q\":1\x7d]]"

theorem rows_of_repeating :
    ∃ e, Entry.ofText repeating = .ok e ∧
      (e.inputs.map (·.key) = ["a", "a"] ∧ e.used = ["b", "", "b", "a"] ∧
        (ofEntry "/x" e).inputs.map (·.name) = ["a", "a", "b", ""] ∧
        (ofEntry "/x" e).outputs.map (·.name) = ["z", "b", "é"]) ∧
      ShowsRows e (ofEntry "/x" e) ∧ e.Ordered := by
  have hentry : (Entry.ofText repeating).toOption.any (fun e => decide
      (e.inputs.map (·.key) = ["a", "a"] ∧ e.used = ["b", "", "b", "a"] ∧
        (ofEntry "/x" e).inputs.map (·.name) = ["a", "a", "b", ""] ∧
        (ofEntry "/x" e).outputs.map (·.name) = ["z", "b", "é"])) = true := by
    decide +kernel
  obtain ⟨e, he, hfacts⟩ := exists_ok_of_any hentry
  exact ⟨e, he, of_decide_eq_true hfacts, rows_ofEntry.1 "/x" e, rows_ofEntry.2 e (.alone he)⟩

end Panel

end EntryReport
