import EntryReport.Config.Basic
import EntryReport.Failure

/-!
# Finding and resolving configurations

`Config.load` takes the configuration file that is asked for, or else the nearest one: a file
`.treedocrc.json` in the directory or in one above it. A configuration that extends another is
filled in from that one, and so on along the chain; the path of the other is relative to the file
that names it, and `.json` is added to it if it has no extension.

The chain ends: a file that occurs twice is an error, so there are no more links than files.
-/

namespace EntryReport

open Files (FileSystem Location)

namespace Config

/-- The name of a configuration file. -/
def fileName : String := ".treedocrc.json"

/-- The path of the configuration that the file at `path` extends. -/
def basePath (path base : String) : String :=
  let joined := Files.Path.join ((Files.Path.parent? path).getD ".") base
  if (Files.Path.extension? joined).isNone then Files.Path.withExtension joined "json" else joined

/-- The configuration in a file. -/
def readFile (fs : FileSystem) (path : String) : Except Failure Config :=
  match fs.readText path with
  | .error cause => .error (.unreadable .config path cause)
  | .ok text =>
    match ofText text with
    | .error cause => .error (.invalid .config path cause)
    | .ok c => .ok c

/-- The configuration in a file, filled in along its chain. `visited` are the files before it,
and at most `limit` more are read. -/
def resolve (fs : FileSystem) : (limit : Nat) → (visited : List String) → (path : String) →
    Except Failure Config
  | 0, _, path => .error (.circularConfig path)
  | limit + 1, visited, path =>
    if fs.canonical path ∈ visited then .error (.circularConfig path)
    else do
      let c ← readFile fs path
      match c.base with
      | none => return c
      | some base =>
        let next := basePath path base
        if fs.exists? next then
          let b ← resolve fs limit (fs.canonical path :: visited) next
          return { c with base := none }.withBase b
        else .error (.baseNotFound next path)

/-- The configuration in a file, filled in along its chain. -/
def loadFile (fs : FileSystem) (path : String) : Except Failure Config :=
  resolve fs (fs.nodes.length + 2) [] path

/-- The nearest configuration file of a directory. -/
def nearest? (fs : FileSystem) (directory : String) : Option String :=
  let start := fs.canonical (if directory.isEmpty then "." else directory)
  ((Files.Path.ancestors start).map fun dir => Files.Path.join dir fileName).find? fs.exists?

/-- The configuration for a directory: of the file that is asked for, or of the nearest one, or
the empty one if there is none. -/
def load (fs : FileSystem) (directory : String) (custom : Option String) :
    Except Failure Config :=
  match custom with
  | some path =>
    let path := Files.Path.join directory path
    if fs.exists? path then loadFile fs path else .error (.configNotFound path)
  | none =>
    match nearest? fs directory with
    | some path => loadFile fs path
    | none => .ok {}

end Config

end EntryReport
