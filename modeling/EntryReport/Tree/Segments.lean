import EntryReport.Text.Parts

/-!
# Segments of a path

A path names a node by the names on the way from the root, apart by slashes. Empty names do not
count, so that `/a/b`, `a/b` and `/a//b/` are the same path.

* `segments`: the names of a path;
* `pathOf`: the path of a list of names, each after a slash; the root has the path `/`.
-/

namespace EntryReport

/-- The names of a path. -/
def segments (path : String) : List String :=
  ((Text.slashParts path.toList).filter (· ≠ [])).map String.ofList

/-- The names, each after a slash. -/
def slashed (names : List String) : String :=
  names.foldl (fun path name => path ++ "/" ++ name) ""

/-- The path of a list of names. -/
def pathOf (names : List String) : String :=
  if names.isEmpty then "/" else slashed names

end EntryReport
