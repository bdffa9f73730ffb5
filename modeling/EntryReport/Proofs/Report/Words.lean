import EntryReport.Proofs.Report.Page

/-!
# Pages with other words

`wordless` takes the words out of what is displayed, and leaves the shape of the tree, all flags,
the number of rows, and whether there is a text at all. Views that are the same without their words
are of the `SameForm`, and their pages have the same tags (`Page.bareTags_body`).
-/

namespace EntryReport

/-! ## Without words -/

/-- A row without its words. -/
def Row.wordless (_ : Row) : Row := ⟨"", "", none⟩

namespace Panel

/-- A panel without its words: of a description only whether it is blank is left, of an optional
text whether it is there, and of a table how many rows it has. -/
def wordless (p : Panel) : Panel where
  id := ""
  name := ""
  description := if Text.allBlank p.description then "" else "-"
  inputs := p.inputs.map Row.wordless
  outputs := p.outputs.map Row.wordless
  loadTime := p.loadTime.map fun _ => ""
  timeout := ""
  parseWarning := p.parseWarning.map fun _ => ""
  testDuration := p.testDuration.map fun _ => ""
  testResult := p.testResult.map fun _ => ""
  testPass := p.testPass
  testParams := p.testParams.map Row.wordless
  error := p.error.map fun _ => ""
  tags := p.tags

end Panel

/-- The display of a node without its words and indices. -/
def NodeView.wordless (n : NodeView) : NodeView :=
  { n.unnumbered with name := "", path := "" }

namespace Outline

mutual
/-- The outline without its words and indices. -/
def wordless : Outline → Outline
  | .node n children => .node n.wordless (wordlessAll children)

/-- Outlines without their words and indices. -/
def wordlessAll : List Outline → List Outline
  | [] => []
  | o :: os => o.wordless :: wordlessAll os
end

mutual
/-- Outlines can be compared. -/
def decEq : (o o' : Outline) → Decidable (o = o')
  | .node n os, .node n' os' =>
    have := decEqAll os os'
    decidable_of_iff (n = n' ∧ os = os') (by rw [node.injEq])

/-- Lists of outlines can be compared. -/
def decEqAll : (os os' : List Outline) → Decidable (os = os')
  | [], [] => isTrue rfl
  | [], _ :: _ => isFalse nofun
  | _ :: _, [] => isFalse nofun
  | o :: os, o' :: os' =>
    have := decEq o o'
    have := decEqAll os os'
    decidable_of_iff (o = o' ∧ os = os') (by rw [List.cons.injEq])
end

instance : DecidableEq Outline := decEq

end Outline

namespace View

/-- The panels without their words, each with whether it is visible. -/
def wordlessPanels (v : View) : List (Bool × Option Panel) :=
  v.panels.map fun shown => (shown.visible, (v.tree.panel? shown.id).map Panel.wordless)

/-- The views differ in words only: the trees have the same shape and the same flags, and so have
the panels. -/
structure SameForm (v w : View) : Prop where
  outline : v.outline.wordless = w.outline.wordless
  panels : v.wordlessPanels = w.wordlessPanels
  warnings : v.criteria.warnings = w.criteria.warnings
  errors : v.criteria.errors = w.criteria.errors

instance (v w : View) : Decidable (v.SameForm w) :=
  decidable_of_iff (v.outline.wordless = w.outline.wordless ∧
      v.wordlessPanels = w.wordlessPanels ∧
      v.criteria.warnings = w.criteria.warnings ∧ v.criteria.errors = w.criteria.errors)
    ⟨fun ⟨ho, hp, hw, he⟩ => ⟨ho, hp, hw, he⟩,
      fun h => ⟨h.outline, h.panels, h.warnings, h.errors⟩⟩

end View

namespace Page

open Html (bareTags tokensAll)

variable {v w : View}

theorem bareTags_table (heading : String) (rows : List Row) :
    bareTags (table heading (rows.map Row.wordless)) = bareTags (table heading rows) := by
  have hrow (r : Row) : bareTags [row r.wordless] = bareTags [row r] := rfl
  have hrows : bareTags ((rows.map Row.wordless).map row) = bareTags (rows.map row) := by
    rw [Html.bareTags_map, Html.bareTags_map, List.flatMap_map]
    simp only [hrow]
  cases rows with
  | nil => rfl
  | cons r rows =>
    simp only [List.map_cons] at hrows ⊢
    simp [table, hrows, -List.map_map]

theorem bareTags_block? (className : String) (s : Option String) :
    bareTags (block? className (s.map fun _ => "")) = bareTags (block? className s) := by
  cases s <;> rfl

theorem bareTags_term? (name : String) (description : Option String) :
    bareTags (term? name (description.map fun _ => "")) = bareTags (term? name description) := by
  cases description <;> rfl

theorem bareTags_testResult (s : Option String) :
    bareTags (testResult (s.map fun _ => "")) = bareTags (testResult s) := by
  cases s <;> rfl

theorem bareTags_panel (p : Panel) (visible : Bool) :
    bareTags (panel p.wordless visible) = bareTags (panel p visible) := by
  have hempty : Text.allBlank "" = true := rfl
  have hdash : Text.allBlank "-" = false := by decide
  cases hblank : Text.allBlank p.description <;>
    simp [panel, Panel.wordless, hblank, hempty, hdash, term, bareTags_table, bareTags_block?,
      bareTags_term?, bareTags_testResult, Attribute.bare]

mutual
theorem bareTags_outline (h h' : Highlight) (isRoot : Bool) :
    (o : Outline) → bareTags (outline h isRoot o.wordless) = bareTags (outline h' isRoot o)
  | .node n children => by
    have hchildren := bareTags_outlines h h' children
    cases hf : n.isFolder <;> cases hh : n.highlighted <;>
      simp [Outline.wordless, NodeView.wordless, NodeView.unnumbered, outline, folder, item, hf, hh,
        hchildren, Attribute.bare]

theorem bareTags_outlines (h h' : Highlight) :
    (os : List Outline) → bareTags (outlines h (Outline.wordlessAll os)) = bareTags (outlines h' os)
  | [] => rfl
  | o :: os => by
    rw [Outline.wordlessAll, outlines, outlines, Html.bareTags_append, Html.bareTags_append,
      bareTags_outline h h' false o, bareTags_outlines h h' os]
end

theorem bareTags_panels (v : View) : bareTags (panels v) =
    v.wordlessPanels.flatMap fun shown => match shown.2 with
      | some p => bareTags (panel p shown.1)
      | none => [] := by
  unfold panels View.wordlessPanels
  rw [Html.bareTags_flatMap, List.flatMap_map]
  refine congrArg (v.panels.flatMap ·) (funext fun shown => ?_)
  cases v.tree.panel? shown.id with
  | none => rfl
  | some p => exact (bareTags_panel p shown.visible).symm

theorem bareTags_header (title title' : String) (s s' : Summary) :
    bareTags [header title s] = bareTags [header title' s'] := by
  simp [header]

theorem bareTags_controls {c c' : Criteria} (hw : c.warnings = c'.warnings)
    (he : c.errors = c'.errors) : bareTags [controls c] = bareTags [controls c'] := by
  simp [controls, checkbox, hw, he, Attribute.bare]

/-- **Words make no tags.** -/
theorem bareTags_body (h : v.SameForm w) (title title' : String) :
    bareTags [body title v] = bareTags [body title' w] := by
  have houtline : bareTags (outline v.highlight true v.outline) =
      bareTags (outline w.highlight true w.outline) := by
    rw [← bareTags_outline v.highlight v.highlight, h.outline, bareTags_outline _ w.highlight]
  have hpanels : bareTags (panels v) = bareTags (panels w) := by
    rw [bareTags_panels, bareTags_panels, h.panels]
  rw [bareTags_body_eq, bareTags_body_eq, houtline, hpanels,
    bareTags_header title title' v.summary w.summary, bareTags_controls h.warnings h.errors]

end Page

end EntryReport
