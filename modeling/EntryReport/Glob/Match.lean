import EntryReport.Glob.Kind
import EntryReport.Glob.Marks
import EntryReport.Text.Parts

/-!
# Matching paths

`Glob.accepts` decides whether a path matches a pattern: whether the tokens of the pattern lead
from the first place of the path to the last.

A path whose last component is `..` has no file name, so no pattern that decides by the file name
accepts it.
-/

namespace EntryReport

open EntryReport.Text (slashParts)

namespace Glob

/-- The path has a file name: its last component is not the parent directory. -/
def hasFileName (path : String) : Bool :=
  (slashParts path.toList).getLast? != some ['.', '.']

/-- The path matches the pattern. A pattern of any directories alone matches every path. -/
def accepts (g : Glob) (path : String) : Bool :=
  match g.tokens with
  | [.treeStart] => true
  | tokens =>
    let text := bytes path.toList
    (!g.kind.readsFileName || hasFileName path) &&
      (steps text tokens (Marks.first text)).hasLast

end Glob

end EntryReport
