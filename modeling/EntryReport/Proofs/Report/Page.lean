import EntryReport.Proofs.Report.Markup
import EntryReport.Proofs.View.Alike
import EntryReport.Report.Page

/-!
# The tags of the page

`viewPart` is the part of a page that depends on the view. No name in it comes from the view
(`tidy_body`), so that nothing in front of it looks like the tag `body`, and nothing inside like the
script that follows it (`viewPart_report`). A reader finds in it

* the tags that were written (`tags_viewPart`), every element with its end (`balanced_viewPart`);
* the ids of the description panels that were written (`panelIds_viewPart`).

`Html.bareTags` and `Html.panelIds` are what is to be found, computed piece by piece.
-/

namespace EntryReport

open Markup

/-! ## Pieces one after the other -/

namespace Html

variable {tag className : String} {as : List Attribute} {children hs hs' : List Html}

@[simp] theorem tokensAll_nil : tokensAll [] = [] := rfl

@[simp] theorem tokensAll_text {s : String} : tokensAll (.text s :: hs) = .text s :: tokensAll hs :=
  rfl

@[simp] theorem tokensAll_element : tokensAll (.element tag as children :: hs) =
    .opening tag as :: (tokensAll children ++ .closing tag :: tokensAll hs) := by
  simp [tokensAll, tokens]

@[simp] theorem tokensAll_classed : tokensAll (classed tag className children :: hs) =
    .opening tag [.value "class" className] ::
      (tokensAll children ++ .closing tag :: tokensAll hs) :=
  tokensAll_element

@[simp] theorem tokensAll_void : tokensAll (.void tag as :: hs) = .void tag as :: tokensAll hs :=
  rfl

@[simp] theorem tokensAll_append : tokensAll (hs ++ hs') = tokensAll hs ++ tokensAll hs' := by
  induction hs with
  | nil => rfl
  | cons h hs ih => rw [List.cons_append, tokensAll, ih, tokensAll, List.append_assoc]

theorem tokensAll_map {α : Type} (f : α → Html) (xs : List α) :
    tokensAll (xs.map f) = xs.flatMap fun x => tokensAll [f x] := by
  induction xs with
  | nil => rfl
  | cons x xs ih =>
    rw [List.map_cons, tokensAll, ih, List.flatMap_cons]
    simp [tokensAll]

theorem tokensAll_flatMap {α : Type} (f : α → List Html) (xs : List α) :
    tokensAll (xs.flatMap f) = xs.flatMap fun x => tokensAll (f x) := by
  induction xs with
  | nil => rfl
  | cons x xs ih => rw [List.flatMap_cons, tokensAll_append, ih, List.flatMap_cons]

/-- All names are tidy. -/
def tidy (barred : List String) (hs : List Html) : Bool :=
  (tokensAll hs).all (Token.tidy barred)

/-- The tags, without values. -/
def bareTags (hs : List Html) : List (List Char) :=
  (tokensAll hs).filterMap Token.bare?

/-- The ids of the description panels. -/
def panelIds (hs : List Html) : List (List Char) :=
  (tokensAll hs).filterMap Token.panelId?

/-! ### Tags -/

@[simp] theorem bareTags_nil : bareTags [] = [] := rfl

@[simp] theorem bareTags_text {s : String} : bareTags (.text s :: hs) = bareTags hs := rfl

@[simp] theorem bareTags_element : bareTags (.element tag as children :: hs) =
    (tag.toList ++ as.flatMap Attribute.bare) ::
      (bareTags children ++ ('/' :: tag.toList) :: bareTags hs) := by
  simp [bareTags, Token.bare?, bareTag]

@[simp] theorem bareTags_classed : bareTags (classed tag className children :: hs) =
    (tag.toList ++ " class=".toList) ::
      (bareTags children ++ ('/' :: tag.toList) :: bareTags hs) :=
  bareTags_element

@[simp] theorem bareTags_void : bareTags (.void tag as :: hs) =
    (tag.toList ++ as.flatMap Attribute.bare) :: bareTags hs := rfl

@[simp] theorem bareTags_append : bareTags (hs ++ hs') = bareTags hs ++ bareTags hs' := by
  unfold bareTags
  rw [tokensAll_append, List.filterMap_append]

theorem bareTags_flatMap {α : Type} (f : α → List Html) (xs : List α) :
    bareTags (xs.flatMap f) = xs.flatMap fun x => bareTags (f x) := by
  unfold bareTags
  rw [tokensAll_flatMap, List.filterMap_flatMap]

theorem bareTags_map {α : Type} (f : α → Html) (xs : List α) :
    bareTags (xs.map f) = xs.flatMap fun x => bareTags [f x] := by
  unfold bareTags
  rw [tokensAll_map, List.filterMap_flatMap]

/-! ### Panels -/

@[simp] theorem panelIds_nil : panelIds [] = [] := rfl

@[simp] theorem panelIds_text {s : String} : panelIds (.text s :: hs) = panelIds hs := rfl

@[simp] theorem panelIds_element : panelIds (.element tag as children :: hs) =
    (Token.opening tag as).panelId?.toList ++ (panelIds children ++ panelIds hs) := by
  have hend : (Token.closing tag).panelId? = none := rfl
  cases hid : (Token.opening tag as).panelId? <;> simp [panelIds, hid, hend]

@[simp] theorem panelIds_void : panelIds (.void tag as :: hs) = panelIds hs := rfl

@[simp] theorem panelIds_append : panelIds (hs ++ hs') = panelIds hs ++ panelIds hs' := by
  unfold panelIds
  rw [tokensAll_append, List.filterMap_append]

/-- There are no panels where there is no `div`. -/
theorem panelIds_of_tidy {barred : List String} (h : tidy barred hs = true)
    (hdiv : "div" ∈ barred) : panelIds hs = [] := by
  unfold tidy at h
  unfold panelIds
  rw [List.filterMap_eq_nil_iff]
  exact fun t ht => Token.panelId?_eq_none (List.all_eq_true.mp h t ht) hdiv

theorem panelIds_flatMap {α : Type} (f : α → List Html) (xs : List α) :
    panelIds (xs.flatMap f) = xs.flatMap fun x => panelIds (f x) := by
  unfold panelIds
  rw [tokensAll_flatMap, List.filterMap_flatMap]

/-! ### Names -/

theorem tidy_append {barred : List String} :
    tidy barred (hs ++ hs') = (tidy barred hs && tidy barred hs') := by
  rw [tidy, tokensAll_append, List.all_append]
  rfl

theorem tidy_mono {barred barred' : List String} (hsub : ∀ s ∈ barred, s ∈ barred')
    (h : tidy barred' hs = true) : tidy barred hs = true := by
  unfold tidy at h ⊢
  rw [List.all_eq_true] at h ⊢
  exact fun t ht => Token.tidy_mono hsub (h t ht)

theorem tidy_flatMap {α : Type} {barred : List String} {f : α → List Html}
    (h : ∀ x, tidy barred (f x) = true) (xs : List α) : tidy barred (xs.flatMap f) = true := by
  unfold tidy at h ⊢
  simp only [tokensAll_flatMap, List.all_flatMap, h, List.all_eq_true, implies_true]

end Html

namespace Page

open Html (tidy bareTags panelIds tokensAll tokensAll_flatMap isName)

/-! ## Names -/

theorem tidy_table (heading : String) (rows : List Row) :
    tidy ["script", "li", "div"] (table heading rows) = true := by
  cases rows with
  | nil => rfl
  | cons r rows =>
    simp [tidy, table, row, Html.tokensAll_map, Token.tidy, isName, Attribute.name, -List.map_cons]

theorem tidy_term? (name : String) (description : Option String) :
    tidy ["script", "li", "div"] (term? name description) = true := by
  cases description <;> simp [tidy, term?, term, Token.tidy, isName]

theorem tidy_testResult (s : Option String) :
    tidy ["script", "li", "div"] (testResult s) = true := by
  cases s <;> simp [tidy, testResult, Token.tidy, isName, Attribute.name]

theorem tidy_block? (className : String) (s : Option String) :
    tidy ["script", "li"] (block? className s) = true := by
  cases s <;> simp [tidy, block?, Token.tidy, isName, Attribute.name]

theorem tidy_panel (p : Panel) (visible : Bool) :
    tidy ["script", "li"] (panel p visible) = true := by
  have hsub : ∀ s ∈ ["script", "li"], s ∈ ["script", "li", "div"] := by simp
  have htable (heading : String) (rows : List Row) :=
    Html.tidy_mono hsub (tidy_table heading rows)
  have hterm? (name : String) (description : Option String) :=
    Html.tidy_mono hsub (tidy_term? name description)
  have hresult := Html.tidy_mono hsub (tidy_testResult p.testResult)
  have hblock? := tidy_block?
  unfold tidy at htable hterm? hresult hblock? ⊢
  cases visible <;> cases hblank : Text.allBlank p.description <;>
    simp [panel, term, hblank, htable, hterm?, hresult, hblock?, Token.tidy, isName, Attribute.name]

theorem tidy_panels (v : View) : tidy ["script", "li"] (panels v) = true := by
  refine Html.tidy_flatMap (fun shown => ?_) v.panels
  cases v.tree.panel? shown.id with
  | none => rfl
  | some p => exact tidy_panel p shown.visible

theorem tidy_header (title : String) (s : Summary) :
    tidy ["script", "li", "div"] [header title s] = true := by
  simp [tidy, header, Token.tidy, isName, Attribute.name]

theorem tidy_controls (c : Criteria) : tidy ["script", "li"] [controls c] = true := by
  cases hw : c.warnings <;> cases he : c.errors <;>
    simp [tidy, controls, checkbox, hw, he, Token.tidy, isName, Attribute.name]

mutual
theorem tidy_outline (h : Highlight) (isRoot : Bool) :
    (o : Outline) → tidy ["script", "div"] (outline h isRoot o) = true
  | .node n children => by
    have hchildren := tidy_outlines h children
    unfold tidy at hchildren ⊢
    cases hf : n.isFolder <;> cases hh : n.highlighted <;>
      simp [outline, folder, item, hf, hh, hchildren, Token.tidy, isName, Attribute.name]

theorem tidy_outlines (h : Highlight) :
    (os : List Outline) → tidy ["script", "div"] (outlines h os) = true
  | [] => rfl
  | o :: os => by
    rw [outlines, Html.tidy_append, tidy_outline h false o, tidy_outlines h os]
    rfl
end

/-- The tokens of all markup that depends on the view. -/
theorem tokensAll_body (title : String) (v : View) : tokensAll [body title v] =
    .opening "div" [.value "class" "shell"] :: .text "\n  " ::
      (tokensAll [header title v.summary] ++ .text "\n  " ::
        (tokensAll [controls v.criteria] ++ .text "\n  " ::
          .opening "div" [.value "class" "main"] :: .opening "ul" [.value "class" "tree"] ::
          .text "\n" :: (tokensAll (outline v.highlight true v.outline) ++
            .text "  " :: .closing "ul" :: .closing "div" :: .text "\n  " ::
            .opening "div" [.value "class" "sidebar"] :: .text "\n" ::
            (tokensAll (panels v) ++
              [.text "  ", .closing "div", .text "\n", .closing "div"])))) := by
  have hbody : body title v = Html.classed "div" "shell"
      ([.text "\n  "] ++ ([header title v.summary] ++ ([.text "\n  "] ++ ([controls v.criteria] ++
        [.text "\n  ",
          Html.classed "div" "main"
            [Html.classed "ul" "tree"
              (.text "\n" :: (outline v.highlight true v.outline ++ [.text "  "]))],
          .text "\n  ", Html.classed "div" "sidebar" (.text "\n" :: (panels v ++ [.text "  "])),
          .text "\n"])))) := rfl
  rw [hbody, Html.tokensAll_classed]
  simp only [Html.tokensAll_append, Html.tokensAll_text, Html.tokensAll_classed, Html.tokensAll_nil]
  simp only [List.cons_append, List.nil_append, List.append_assoc]

theorem bareTags_body_eq (title : String) (v : View) : bareTags [body title v] =
    "div class=".toList :: (bareTags [header title v.summary] ++ (bareTags [controls v.criteria] ++
      "div class=".toList :: "ul class=".toList :: (bareTags (outline v.highlight true v.outline) ++
        "/ul".toList :: "/div".toList :: "div class=".toList ::
          (bareTags (panels v) ++ ["/div".toList, "/div".toList])))) := by
  unfold bareTags
  rw [tokensAll_body]
  simp [List.filterMap_cons, Token.bare?, Html.bareTag, Attribute.bare]

theorem panelIds_body_eq (title : String) (v : View) :
    panelIds [body title v] = panelIds [controls v.criteria] ++
      (panelIds (outline v.highlight true v.outline) ++ panelIds (panels v)) := by
  have hheader := Html.panelIds_of_tidy (tidy_header title v.summary) (by simp)
  unfold Html.panelIds at hheader ⊢
  rw [tokensAll_body]
  simp [List.filterMap_cons, hheader]

theorem tidy_body (title : String) (v : View) : tidy ["script"] [body title v] = true := by
  have hheader : tidy ["script"] [header title v.summary] = true :=
    Html.tidy_mono (by simp) (tidy_header title v.summary)
  have hcontrols : tidy ["script"] [controls v.criteria] = true :=
    Html.tidy_mono (by simp) (tidy_controls v.criteria)
  have houtline : tidy ["script"] (outline v.highlight true v.outline) = true :=
    Html.tidy_mono (by simp) (tidy_outline v.highlight true v.outline)
  have hpanels : tidy ["script"] (panels v) = true := Html.tidy_mono (by simp) (tidy_panels v)
  unfold tidy at hheader hcontrols houtline hpanels ⊢
  simp only [tokensAll_body, List.all_cons, List.all_append, hheader, hcontrols, houtline, hpanels]
  decide

/-! ## The page -/

/-- The part of a page that depends on the view: what stands between the tag `body` and the script
that begins with the highlight. -/
def viewPart (page : List Char) : List Char :=
  upTo "<script>const HIGHLIGHT".toList (after "<body>".toList page)

theorem after_writeLines {mark : List Char} (hmark : '\n' ∉ mark) {lines : List String}
    (h : lines.all (fun line => !Text.occursIn mark line.toList) = true) (rest : List Char) :
    after mark (writeLines lines rest) = after mark rest := by
  induction lines with
  | nil => rfl
  | cons line lines ih =>
    rw [List.all_cons, Bool.and_eq_true, Bool.not_eq_true', ← Bool.not_eq_true,
      Text.occursIn_iff] at h
    have hline : writeLines (line :: lines) rest =
        (line.toList ++ ['\n']) ++ writeLines lines rest := by
      simp [writeLines]
    rw [hline, after_append (clear_of_line hmark h.1), ih h.2]

theorem styleLines_clear :
    (styleLines.all fun line => !Text.occursIn "<body>".toList line.toList) = true := by
  simp only [styleLines, List.all_cons, List.all_nil, String.toList_append]
  -- the lines are too long to be decoded, so they are read as lists of characters
  repeat rw [String.toList_ofList]
  decide +kernel

theorem write_eq_tokensAll (h : Html) (rest : List Char) :
    h.write rest = (tokensAll [h]).flatMap Token.chars ++ rest := by
  rw [h.write_eq]
  simp [tokensAll]

/-- Nothing before the tag `body` looks like it. -/
theorem after_writeHead (title : String) (rest : List Char) :
    after "<body>".toList (writeHead title rest) = '\n' :: rest := by
  have htidy : tidy ["body"] [.element "title" [] [.text title]] = true := by
    simp [tidy, Token.tidy, isName]
  have htitle : Clear "<body>".toList
      ((tokensAll [.element "title" [] [.text title]]).flatMap Token.chars) :=
    Token.clear_chars "body" htidy (by simp) (by decide) (by decide) []
  have hend : Clear "<body>".toList ['\n'] := clear_of_not_mem (by decide)
  have hlast : writeLines ["</head>", "<body>"] rest =
      writeLines ["</head>"] ("<body>".toList ++ '\n' :: rest) := rfl
  unfold writeHead
  rw [after_writeLines (by decide) (by decide), write_eq_tokensAll, after_append htitle,
    ← List.singleton_append, after_append hend, after_writeLines (by decide) styleLines_clear,
    hlast, after_writeLines (by decide) (by decide)]
  exact after_mark ('\n' :: rest)

theorem begins_settingsLine (v : View) (lines : List String) (rest : List Char) :
    "<script>const HIGHLIGHT".toList <+: writeLines (settingsLine v :: lines) rest := by
  have hline : "<script>const HIGHLIGHT".toList <+: (settingsLine v).toList := by
    have hliteral : "<script>const HIGHLIGHT".toList <+: "<script>const HIGHLIGHT=".toList :=
      ⟨['='], rfl⟩
    unfold settingsLine
    simp only [String.toList_append, List.append_assoc]
    exact hliteral.trans (List.prefix_append _ _)
  exact hline.trans (List.prefix_append _ _)

/-- **The part of a page that depends on the view** is what is written for the view. -/
theorem viewPart_report (title : String) (v : View) : viewPart (report title v).toList =
    '\n' :: ((tokensAll [body title v]).flatMap Token.chars ++ ['\n']) := by
  have hbody : Clear "<script>const HIGHLIGHT".toList
      ((tokensAll [body title v]).flatMap Token.chars) :=
    Token.clear_chars "script" (tidy_body title v) (by simp) (by decide) (by decide)
      "const HIGHLIGHT".toList
  have hend : Clear "<script>const HIGHLIGHT".toList ['\n'] := clear_of_not_mem (by decide)
  have hchars : (report title v).toList = writeHead title ((body title v).write ('\n' ::
      writeLines (settingsLine v :: scriptLines ++ ["</body>"]) "</html>".toList)) :=
    String.toList_ofList
  have hscript : upTo "<script>const HIGHLIGHT".toList
      (writeLines (settingsLine v :: scriptLines ++ ["</body>"]) "</html>".toList) = [] :=
    upTo_of_prefix (begins_settingsLine v (scriptLines ++ ["</body>"]) _)
  unfold viewPart
  rw [hchars, after_writeHead, write_eq_tokensAll, ← List.singleton_append, upTo_append hend,
    upTo_append hbody, ← List.singleton_append (x := '\n') (l := writeLines _ _),
    upTo_append hend, hscript]
  rfl

theorem rawTags_viewPart (title : String) (v : View) :
    rawTags (viewPart (report title v).toList) =
      (tokensAll [body title v]).filterMap Token.tag? := by
  rw [viewPart_report, ← List.singleton_append, rawTags_append (by decide),
    Token.rawTags_chars (tidy_body title v)]
  exact List.append_nil _

/-- **The tags of that part** are those of the markup. -/
theorem tags_viewPart (title : String) (v : View) :
    tags (viewPart (report title v).toList) = bareTags [body title v] := by
  unfold tags
  rw [rawTags_viewPart, Token.map_bare_tag? (tidy_body title v)]
  rfl

theorem panelIds_viewPart (title : String) (v : View) :
    Markup.panelIds (viewPart (report title v).toList) = panelIds [body title v] := by
  unfold Markup.panelIds
  rw [rawTags_viewPart, Token.filterMap_panelId? (tidy_body title v)]
  rfl

/-- **That part is balanced.** -/
theorem balanced_viewPart (title : String) (v : View) :
    Balanced (tags (viewPart (report title v).toList)) := by
  rw [tags_viewPart]
  exact Token.afterTag_tokensAll [body title v] (tidy_body title v) []

end Page

end EntryReport
