import EntryReport.Proofs.View.Alike
import EntryReport.Report.Console
import EntryReport.Report.Data

/-!
# The order of the entries

No report writes an index: the lines of an outline and its JSON value are those of the outline
without indices. So views that are alike give the same reports, and with them any two orders of the
same entries (`reports_of_perm`).
-/

namespace EntryReport

variable {v w : View}

/-! ## The report for a terminal -/

namespace Console

mutual
theorem outlineLines_unnumbered (depth : Nat) :
    (o : Outline) → outlineLines depth o.unnumbered = outlineLines depth o
  | .node n children => by
    unfold Outline.unnumbered outlineLines
    rw [outlinesLines_unnumbered (depth + 1) children]
    rfl

theorem outlinesLines_unnumbered (depth : Nat) :
    (os : List Outline) → outlinesLines depth (Outline.unnumberedAll os) = outlinesLines depth os
  | [] => rfl
  | o :: os => by
    unfold Outline.unnumberedAll outlinesLines
    rw [outlineLines_unnumbered depth o, outlinesLines_unnumbered depth os]
end

theorem summaryLine_congr (h : v.Alike w) : summaryLine v = summaryLine w := by
  unfold summaryLine View.filterActive
  rw [h.summary, h.criteria]

/-- Views that are alike give the same report. -/
theorem text_congr (h : v.Alike w) (colors verbose : Bool) :
    text colors verbose v = text colors verbose w := by
  have htree : treeLines v = treeLines w := by
    unfold treeLines
    rw [← outlineLines_unnumbered 0 v.outline, h.outline, outlineLines_unnumbered]
  unfold text lines
  rw [htree, h.visiblePanel?, summaryLine_congr h]

theorem quietText_congr (h : v.Alike w) (colors : Bool) :
    quietText colors v = quietText colors w := by
  unfold quietText
  rw [summaryLine_congr h]

end Console

/-! ## The report for other programs -/

namespace Data

mutual
theorem outlineJson_unnumbered : (o : Outline) → outlineJson o.unnumbered = outlineJson o
  | .node n [] => rfl
  | .node n (child :: children) => by
    unfold Outline.unnumbered Outline.unnumberedAll outlineJson
    rw [outlineJson_unnumbered child, outlinesJson_unnumbered children]
    rfl

theorem outlinesJson_unnumbered :
    (os : List Outline) → outlinesJson (Outline.unnumberedAll os) = outlinesJson os
  | [] => rfl
  | o :: os => by
    unfold Outline.unnumberedAll outlinesJson
    rw [outlineJson_unnumbered o, outlinesJson_unnumbered os]
end

/-- Views that are alike give the same report. -/
theorem report_congr (h : v.Alike w) (pretty : Bool) (title : Option String) :
    report pretty title v = report pretty title w := by
  unfold report document
  rw [← outlineJson_unnumbered v.outline, h.outline, outlineJson_unnumbered, h.summary, h.criteria,
    h.visiblePanel?]

end Data

/-! ## Entries in another order -/

/-- The views give the same reports, with whatever options of a report. -/
structure View.SameReports (v w : View) : Prop where
  data : ∀ pretty title, Data.report pretty title v = Data.report pretty title w
  text : ∀ colors verbose, Console.text colors verbose v = Console.text colors verbose w
  quietText : ∀ colors, Console.quietText colors v = Console.quietText colors w

theorem View.Alike.sameReports (h : v.Alike w) : v.SameReports w where
  data := Data.report_congr h
  text := Console.text_congr h
  quietText := Console.quietText_congr h

/-- **The order of the entries does not matter.** If the entries are put in another order, a tree
is made of them or not as before; and after any operations on paths, each of which fails on both
trees or on neither, the two trees give the same reports. -/
theorem reports_of_perm (rootName : String) {es₁ es₂ : List Entry} (hperm : es₁.Perm es₂) :
    ((∃ t, Tree.ofEntries rootName es₁ = .ok t) ↔ ∃ t, Tree.ofEntries rootName es₂ = .ok t) ∧
    ∀ t₁ t₂, Tree.ofEntries rootName es₁ = .ok t₁ → Tree.ofEntries rootName es₂ = .ok t₂ →
      ∀ (os : List Operation) (options : RenderOptions),
        (Operation.runAll t₁ .new os).2 = (Operation.runAll t₂ .new os).2 ∧
        View.SameReports (.render t₁ (Operation.runAll t₁ .new os).1 options)
          (.render t₂ (Operation.runAll t₂ .new os).1 options) := by
  have hcompat := Tree.compatible_perm hperm
  rcases Tree.ofEntries_cases rootName es₁ with ⟨hnot₁, err₁, hr₁⟩ | ⟨hc₁, u₁, h₁, hr₁⟩ <;>
    rcases Tree.ofEntries_cases rootName es₂ with ⟨hnot₂, err₂, hr₂⟩ | ⟨hc₂, u₂, h₂, hr₂⟩
  · rw [hr₁, hr₂]
    exact ⟨iff_of_false (by simp) (by simp), fun t₁ t₂ ht₁ => absurd ht₁ (by simp)⟩
  · exact absurd (hcompat.mpr hc₂) hnot₁
  · exact absurd (hcompat.mp hc₁) hnot₂
  · rw [hr₁, hr₂]
    refine ⟨iff_of_true ⟨_, rfl⟩ ⟨_, rfl⟩, fun t₁ t₂ ht₁ ht₂ os options => ?_⟩
    cases ht₁
    cases ht₂
    have halike := Tree.alike_of_perm h₁.sort h₂.sort hperm
      h₁.settled.wellFormed.sorted_sort h₂.settled.wellFormed.sorted_sort
    obtain ⟨hstate, houts⟩ := UiState.alike_new.runAll halike os
    exact ⟨houts, (View.alike_render halike hstate options).sameReports⟩

/-- Two entries the other way round: the indices differ, the reports do not. -/
theorem reports_of_swapped :
    ∃ t₁ t₂, Tree.ofEntries "r" [{ name := "a/b" }, { name := "c" }] = .ok t₁ ∧
      Tree.ofEntries "r" [{ name := "c" }, { name := "a/b" }] = .ok t₂ ∧
      (t₁.node? 1).map (·.path) = some "/a" ∧ (t₂.node? 1).map (·.path) = some "/c" ∧
      View.SameReports (.render t₁ (Operation.runAll t₁ .new [.selectPath "/a/b"]).1 {})
        (.render t₂ (Operation.runAll t₂ .new [.selectPath "/a/b"]).1 {}) := by
  have hperm : [({ name := "a/b" } : Entry), { name := "c" }].Perm
      [{ name := "c" }, { name := "a/b" }] := List.Perm.swap _ _ _
  refine ⟨(((Tree.new "r").add { name := "a/b" }).1.add { name := "c" }).1.sort,
    (((Tree.new "r").add { name := "c" }).1.add { name := "a/b" }).1.sort, rfl, rfl, ?_, ?_, ?_⟩
  · rw [Tree.node?_sort]
    decide
  · rw [Tree.node?_sort]
    decide
  · exact ((reports_of_perm "r" hperm).2 _ _ rfl rfl [.selectPath "/a/b"] {}).2

end EntryReport
