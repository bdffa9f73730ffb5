import EntryReport.View

/-!
# The report for a terminal

A report is a list of lines, and a line a list of segments, some of which have a style. The tree
comes first: a line for each node that is not hidden and whose ancestors are expanded and not
hidden, two spaces in for each level. Then, if it is asked for, the panel that is shown, and at the
end the counts.

`Console.text` writes the lines with or without colours. With colours a styled segment stands
between the code of its style and a reset; a reset inside it is followed by the code again.
-/

namespace EntryReport.Console

/-- The look of a segment. -/
inductive Style where
  | plain
  | dimmed
  | bold
  | heading
  | selected
  | warning
  | error
  | alarm
  | notice
deriving DecidableEq, Repr

/-- The numbers of a style in its code. -/
def Style.numbers : Style → String
  | .plain => ""
  | .dimmed => "2"
  | .bold => "1"
  | .heading => "1;4"
  | .selected => "42;30"
  | .warning => "33"
  | .error => "31"
  | .alarm => "1;31"
  | .notice => "34"

/-- A part of a line in one style. -/
structure Segment where
  style : Style
  text : String
deriving DecidableEq, Repr

/-- The text without a style. -/
def plain (s : String) : Segment := ⟨.plain, s⟩

/-- A line of segments. -/
abbrev Line := List Segment

/-! ## Writing -/

/-- The code that begins a style. -/
def Style.code (style : Style) : List Char :=
  '\x1b' :: '[' :: (style.numbers.toList ++ ['m'])

/-- The code that ends any style. -/
def reset : List Char := ['\x1b', '[', '0', 'm']

/-- The characters with `code` after each reset among them. -/
def afterResets (code : List Char) : List Char → List Char
  | '\x1b' :: '[' :: '0' :: 'm' :: rest => reset ++ code ++ afterResets code rest
  | c :: rest => c :: afterResets code rest
  | [] => []

/-- A segment with the codes of its style. -/
def Segment.painted (s : Segment) : List Char :=
  if s.style = .plain then s.text.toList
  else s.style.code ++ afterResets s.style.code s.text.toList ++ reset

/-- A segment with or without colours. -/
def Segment.chars (colors : Bool) (s : Segment) : List Char :=
  if colors then s.painted else s.text.toList

/-- A line without its end. -/
def lineText (colors : Bool) (line : Line) : String :=
  String.ofList (line.flatMap (Segment.chars colors))

/-- The lines, each with its end. -/
def linesText (colors : Bool) (lines : List Line) : String :=
  String.ofList (lines.flatMap fun line => line.flatMap (Segment.chars colors) ++ ['\n'])

/-! ## The tree -/

/-- Two spaces a level. -/
def indent (depth : Nat) : Segment :=
  plain (String.ofList (List.replicate (2 * depth) ' '))

/-- The marker of a folder. -/
def caret (expanded : Bool) : Segment :=
  ⟨.dimmed, if expanded then "▾" else "▸"⟩

/-- The line of a folder. -/
def folderLine (depth : Nat) (n : NodeView) : Line :=
  [indent depth, caret n.expanded, plain " ", ⟨.bold, n.name⟩]

/-- The marks of an item. -/
def tagSegments (tags : Tags) : Line :=
  (if tags.hasWarning then [plain " ", ⟨.warning, "[W]"⟩] else []) ++
    (if tags.hasError then [plain " ", ⟨.alarm, "[E]"⟩] else [])

/-- The line of an item. -/
def itemLine (depth : Nat) (n : NodeView) : Line :=
  indent depth ::
    (if n.highlighted then ⟨.selected, "> " ++ n.name⟩ else plain ("  " ++ n.name)) ::
    tagSegments n.tags

/-- The line of a node. -/
def nodeLine (depth : Nat) (n : NodeView) : Line :=
  if n.isFolder then folderLine depth n else itemLine depth n

mutual
/-- The lines of a node and of what is shown below it. -/
def outlineLines (depth : Nat) : Outline → List Line
  | .node n children =>
    if n.hidden then []
    else
      nodeLine depth n ::
        (if n.isFolder && n.expanded then outlinesLines (depth + 1) children else [])

/-- The lines of nodes at one depth. -/
def outlinesLines (depth : Nat) : List Outline → List Line
  | [] => []
  | o :: os => outlineLines depth o ++ outlinesLines depth os
end

/-! ## The panel -/

/-- A line that belongs to a panel. -/
def detail (label : Segment) (rest : String) : Line :=
  [plain "   ", label, plain rest]

/-- The lines of rows under a heading. -/
def rowLines (heading : String) (rows : List Row) : List Line :=
  rows.map fun r => detail ⟨.dimmed, heading⟩ (" " ++ r.name ++ " " ++ r.description)

/-- The lines of a panel. -/
def panelLines (p : Panel) : List Line :=
  [[⟨.heading, p.id⟩]] ++
    (if Text.allBlank p.description then [] else [[plain ("   " ++ p.description)]]) ++
    (p.error.toList.map fun e => detail ⟨.alarm, "Error"⟩ (": " ++ e)) ++
    (p.warnings.map fun w => detail ⟨.warning, "Warning"⟩ (": " ++ w)) ++
    rowLines "In" p.inputs ++ rowLines "Out" p.outputs ++ rowLines "Test" p.testParams ++
    (p.loadTime.toList.map fun t => detail ⟨.dimmed, "Loaded"⟩ (" " ++ t)) ++
    [detail ⟨.dimmed, "Timeout"⟩ (" " ++ p.timeout),
      detail ⟨.dimmed, "Test pass"⟩ (" " ++ p.testPass.name)]

/-! ## The report -/

/-- The counts. -/
def summaryLine (v : View) : Line :=
  let s := v.summary
  [plain (toString s.items ++ " items, "), ⟨.warning, toString s.warnings⟩, plain " warnings, ",
    ⟨.error, toString s.errors⟩, plain " errors"] ++
    (if v.filterActive then [plain (" (" ++ toString s.visibleItems ++ " shown)")] else [])

/-- The lines of the tree. -/
def treeLines (v : View) : List Line :=
  outlineLines 0 v.outline

/-- The lines of the whole report. -/
def lines (verbose : Bool) (v : View) : List Line :=
  treeLines v ++
    (match verbose, v.visiblePanel? with
      | true, some p => [] :: panelLines p
      | _, _ => []) ++
    [[], summaryLine v]

/-- The report. -/
def text (colors verbose : Bool) (v : View) : String :=
  linesText colors (lines verbose v)

/-- The report of nothing but the counts. -/
def quietText (colors : Bool) (v : View) : String :=
  linesText colors [summaryLine v]

end EntryReport.Console
