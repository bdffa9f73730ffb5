import EntryReport.View
import EntryReport.Json.Printer

/-!
# The report for other programs

`Data.report` is a view as one JSON document: an optional title, the counts, the criteria, the
nested tree and the panel that is shown. Marks that a node does not have are left out, and so are
children if there are none.
-/

namespace EntryReport.Data

/-- A member that is left out if it is false. -/
def mark (key : String) (b : Bool) : List (String × Json) :=
  if b then [(key, .bool true)] else []

/-- The members of a node, without its children. -/
def nodeMembers (n : NodeView) : List (String × Json) :=
  [("name", .str n.name), ("path", .str n.path),
    ("kind", .str (if n.isFolder then "folder" else "item"))] ++
    (if n.isFolder then [("expanded", .bool n.expanded)] else []) ++
    [("hidden", .bool n.hidden)] ++
    mark "highlighted" n.highlighted ++ mark "hasWarning" n.tags.hasWarning ++
    mark "hasError" n.tags.hasError

mutual
/-- A node with its children. -/
def outlineJson : Outline → Json
  | .node n [] => .obj (nodeMembers n)
  | .node n (child :: children) =>
    .obj (nodeMembers n ++ [("children", .arr (outlineJson child :: outlinesJson children))])

/-- Nodes with their children. -/
def outlinesJson : List Outline → List Json
  | [] => []
  | o :: os => outlineJson o :: outlinesJson os
end

/-- The document of a view. -/
def document (title : Option String) (v : View) : Json :=
  .obj (Json.member? "title" .str title ++
    [("summary", View.summaryJson v.summary), ("filter", v.criteria.toJson),
      ("tree", outlineJson v.outline), ("selected", Json.optional Panel.toJson v.visiblePanel?)])

/-- The report, over several lines or on one. -/
def report (pretty : Bool) (title : Option String) (v : View) : String :=
  (document title v).text (if pretty then .pretty else .compact)

end EntryReport.Data
