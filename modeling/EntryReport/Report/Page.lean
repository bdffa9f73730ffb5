import EntryReport.Report.Html
import EntryReport.Report.Page.Style
import EntryReport.Report.Page.Script
import EntryReport.View
import EntryReport.Json.Printer
import EntryReport.Text.Blank

/-!
# The report as a page

`Page.report` is a view as a page that needs nothing else: the counts, the controls of the
filter, the tree, and a panel for each item, of which at most one is displayed. The classes say
what is expanded and hidden; `Page.scriptLines` goes on from there.

`Page.body` is all markup that depends on the view.
-/

namespace EntryReport.Page

open Html (classed)

/-- The title of a page that is given none. -/
def defaultTitle : String := "treedoc"

/-- The value `present` if the condition holds. -/
def whenever (b : Bool) (present : String) : String :=
  if b then present else ""

/-! ## Header and controls -/

/-- The title and the counts. -/
def header (title : String) (s : Summary) : Html :=
  .element "header" []
    [.text "\n    ", .element "h1" [] [.text title], .text "\n    ",
      classed "span" "meta"
        [.text (toString s.items ++ " items · "),
          classed "span" "c-warn" [.text (toString s.warnings ++ " warnings")], .text " · ",
          classed "span" "c-err" [.text (toString s.errors ++ " errors")]],
      .text "\n  "]

/-- A box to tick. -/
def checkbox (id label : String) (on : Bool) : Html :=
  .element "label" []
    [.void "input" ([.value "type" "checkbox", .value "id" id, .value "name" id] ++
        if on then [.flag "checked"] else []),
      .text (" " ++ label)]

/-- The criteria. -/
def controls (c : Criteria) : Html :=
  classed "div" "controls"
    [.text "\n    ", checkbox "WarnCheckBox" "Warnings" c.warnings,
      .text "\n    ", checkbox "ErrCheckBox" "Errors" c.errors,
      .text "\n    ",
      .void "input"
        [.value "type" "search", .value "class" "search", .value "id" "SearchInputBox",
          .value "name" "SearchInputBox", .value "placeholder" "Search…",
          .value "autocomplete" "off", .value "value" c.search],
      .text "\n  "]

/-! ## The tree -/

/-- The class of what the filter hides, after another class. -/
def hider (n : NodeView) : String :=
  whenever n.hidden " filterHider"

/-- A folder around its children. -/
def folder (isRoot : Bool) (n : NodeView) (children : List Html) : Html :=
  classed "li" ((if isRoot then "root" else "container") ++ hider n)
    [classed "span" ("caret" ++ whenever n.expanded " caret-down") [.text n.name],
      classed "ul" ("nested" ++ whenever n.expanded " active") (.text "\n" :: children)]

/-- The colours of the selected item. -/
def highlightStyle (h : Highlight) : String :=
  "background: " ++ h.background ++ "; color: " ++ h.foreground ++ ";"

/-- An item. -/
def item (h : Highlight) (n : NodeView) : Html :=
  classed "li" ("leaf" ++ hider n)
    [.element "span"
      ([.value "class" ("item" ++ whenever n.tags.hasWarning " haswarn" ++
            whenever n.tags.hasError " haserr"),
          .value "data-description" n.path] ++
        if n.highlighted then [.value "style" (highlightStyle h)] else [])
      [.text n.name]]

mutual
/-- A node with what is below it, on lines of its own. -/
def outline (h : Highlight) (isRoot : Bool) : Outline → List Html
  | .node n children =>
    [if n.isFolder then folder isRoot n (outlines h children) else item h n, .text "\n"]

/-- Nodes one after the other. -/
def outlines (h : Highlight) : List Outline → List Html
  | [] => []
  | o :: os => outline h false o ++ outlines h os
end

/-! ## The panels -/

/-- A row of a table. -/
def row (r : Row) : Html :=
  .element "tr" []
    [.element "td" [] [.text r.name], .element "td" [] [.text r.description],
      classed "td" "warn" [.text ((r.warning.map RowWarning.message).getD "")]]

/-- The rows under a heading, if there are any. -/
def table (heading : String) : List Row → List Html
  | [] => []
  | rows =>
    [.element "h4" [] [.text heading],
      classed "table" "table"
        [.element "thead" []
          [.element "tr" []
            [.element "th" [] [.text "Name"], .element "th" [] [.text "Description"],
              .element "th" [] [.text "Warning"]]],
          .element "tbody" [] (rows.map row)],
      .text "\n"]

/-- A term with its description. -/
def term (name description : String) : List Html :=
  [.element "dt" [] [.text name], .element "dd" [] [.text description]]

/-- A term that may be absent. -/
def term? (name : String) : Option String → List Html
  | none => []
  | some description => term name description

/-- A line of its own, if there is a text for it. -/
def block? (className : String) : Option String → List Html
  | none => []
  | some s => [classed "div" className [.text s], .text "\n"]

/-- The result of a test run, folded up. -/
def testResult : Option String → List Html
  | none => []
  | some s =>
    [.element "details" []
      [.element "summary" [] [.text "Test result"], classed "pre" "code" [.text s]],
      .text "\n"]

/-- A panel. -/
def panel (p : Panel) (visible : Bool) : List Html :=
  [.element "div"
    ([.value "class" "description", .value "id" p.id] ++
      if visible then [] else [.value "style" "display: none;"])
    ([.text "\n", .element "h3" [] [.text p.id], .text "\n",
        if Text.allBlank p.description then classed "p" "warn" [.text "Missing description"]
        else .element "p" [] [.text p.description],
        .text "\n"] ++
      block? "err" p.error ++ block? "warn" p.parseWarning ++
      table "Input" p.inputs ++ table "Output" p.outputs ++
      table "Test parameters" p.testParams ++
      [.element "dl" []
          (term? "Loaded" p.loadTime ++ term "Timeout" p.timeout ++
            term "Test pass" p.testPass.name ++ term? "Test duration" p.testDuration),
        .text "\n"] ++
      testResult p.testResult),
    .text "\n"]

/-- The panels in the order of the view. -/
def panels (v : View) : List Html :=
  v.panels.flatMap fun shown =>
    match v.tree.panel? shown.id with
    | some p => panel p shown.visible
    | none => []

/-! ## The page -/

/-- All markup that depends on the view. -/
def body (title : String) (v : View) : Html :=
  classed "div" "shell"
    [.text "\n  ", header title v.summary, .text "\n  ", controls v.criteria, .text "\n  ",
      classed "div" "main"
        [classed "ul" "tree" (.text "\n" :: (outline v.highlight true v.outline ++ [.text "  "]))],
      .text "\n  ",
      classed "div" "sidebar" (.text "\n" :: (panels v ++ [.text "  "])),
      .text "\n"]

/-- The lines, each with its end, in front of `rest`. -/
def writeLines (lines : List String) (rest : List Char) : List Char :=
  lines.foldr (fun line rest => line.toList ++ '\n' :: rest) rest

/-- Everything before the markup of the view. -/
def writeHead (title : String) (rest : List Char) : List Char :=
  writeLines
    ["<!DOCTYPE html>", "<html lang=\"en\">", "<head>", "<meta charset=\"UTF-8\">",
      "<meta name=\"viewport\" content=\"width=device-width, initial-scale=1\">"]
    (Html.write (.element "title" [] [.text title]) ('\n' ::
      writeLines styleLines (writeLines ["</head>", "<body>"] rest)))

/-- The script that sets what the other one needs to know. -/
def settingsLine (v : View) : String :=
  "<script>const HIGHLIGHT=" ++ Html.escapeForScript v.highlight.toJson.compact ++
    ";const HIDE_EMPTY=" ++ (if v.emptyFolders = .hidden then "true" else "false") ++ ";</script>"

/-- The page. -/
def report (title : String) (v : View) : String :=
  String.ofList (writeHead title (Html.write (body title v) ('\n' ::
    writeLines (settingsLine v :: scriptLines ++ ["</body>"]) "</html>".toList)))

end EntryReport.Page
