import EntryReport.Failure
import EntryReport.Glob.Expression
import EntryReport.Glob.Match

/-!
# Files that are left out

An `IgnoreSet` is a list of patterns; it ignores the paths that one of them accepts.

`IgnoreSet.ofPatterns` reads the patterns and then compiles those that need it. First come the
patterns that end in an extension, one by one, and then the general ones, all together: of these a
message gives only the number. A pattern of any other kind is never nested too deep.
-/

namespace EntryReport

/-- The patterns of files that are left out. -/
structure IgnoreSet where
  globs : List Glob
deriving Repr

namespace IgnoreSet

/-- The pattern in a text. -/
def pattern (text : String) : Except Failure Glob :=
  match Glob.read text with
  | .ok g => .ok g
  | .error cause => .error (.badPattern text cause)

/-- The set of patterns, if all can be compiled. -/
def compile (globs : List Glob) : Except Failure IgnoreSet :=
  match (globs.filter (·.kind = .endsInExtension)).find? (·.isTooDeep) with
  | some g => .error (.deepPattern (some g.expressionText) 0)
  | none =>
    match (globs.filter (·.kind = .general)).findIdx? (·.isTooDeep) with
    | some position => .error (.deepPattern none position)
    | none => .ok ⟨globs⟩

/-- The set of a list of patterns, all of which have to be well formed. -/
def ofPatterns (patterns : List String) : Except Failure IgnoreSet := do
  compile (← patterns.mapM pattern)

/-- Some pattern accepts the path. -/
def ignores (s : IgnoreSet) (path : String) : Bool :=
  s.globs.any (·.accepts path)

end IgnoreSet

end EntryReport
