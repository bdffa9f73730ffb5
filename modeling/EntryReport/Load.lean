import EntryReport.Config.Resolve
import EntryReport.IgnoreSet
import EntryReport.Tree.Build

/-!
# Loading entries

`Loaded.load` reads the entries of a manifest file, or of all entry files below a directory. An
entry file without a name for its entry names it by its own path; an entry that does not say when
it was loaded takes the time of the last change of its file. An entry file that cannot be read is
left out and reported.

`entryFiles` are the entry files below a directory, in the order of their paths, less those that a
pattern accepts, either from the directory on or as a whole. As all names are texts
(`Files.FileSystem`), a name for an entry is made of the names on the way as they are.
-/

namespace EntryReport

open Files (FileSystem)

/-- The path names an entry file: its extension is `json`, and it does not begin with a dot. -/
def isEntryFile (path : String) : Bool :=
  match Files.Path.fileName? path with
  | some name => name.toList.head? != some '.' && Files.Path.extension? path == some "json"
  | none => false

/-- The name of the entry in a file: the path from the directory on, without its extension. -/
def entryName (directory file : String) : String :=
  let path := (Files.Path.stripPrefix? file directory).getD file
  "/".intercalate ((Files.Path.components (Files.Path.withExtension path "")).map
    Files.Path.componentText)

/-- The file is left out. -/
def leftOut (ignore : IgnoreSet) (directory file : String) : Bool :=
  ignore.ignores ((Files.Path.stripPrefix? file directory).getD file) || ignore.ignores file

/-- The entry files below a directory, in order. -/
def entryFiles (fs : FileSystem) (directory : String) (ignore : IgnoreSet) : List String :=
  ((fs.filesBelow directory).filter fun file =>
    isEntryFile file && !leftOut ignore directory file).mergeSort Files.Path.mayPrecede

/-- What was read: entries, what was left out, and the files. -/
structure Loaded where
  title : Option String := none
  entries : List Entry := []
  skipped : List Skipped := []
  files : List String := []

/-- The entry, loaded at a time unless it says otherwise. -/
def Entry.loadedBy (e : Entry) (time : Option Timestamp) : Entry :=
  { e with loadedAt := e.loadedAt.or time }

/-- The entry in a file below a directory. -/
def readEntry (fs : FileSystem) (directory file : String) : Except Failure Entry :=
  match fs.readText file with
  | .error cause => .error (.unreadable .entry file cause)
  | .ok text =>
    match Entry.ofText text with
    | .error cause => .error (.invalid .entry file cause)
    | .ok e =>
      let named := if Text.allBlank e.name then { e with name := entryName directory file } else e
      .ok (named.loadedBy (fs.modified? file))

namespace Loaded

/-- What was read, with one more file. -/
def add (l : Loaded) (file : String) : Except Failure Entry → Loaded
  | .ok e => { l with entries := l.entries ++ [e] }
  | .error err => { l with skipped := l.skipped ++ [⟨file, err.message⟩] }

/-- The entries of a manifest file. -/
def ofManifest (fs : FileSystem) (path : String) : Except Failure Loaded :=
  match fs.readText path with
  | .error cause => .error (.unreadable .manifest path cause)
  | .ok text =>
    match Manifest.ofText text with
    | .error cause => .error (.invalid .manifest path cause)
    | .ok m =>
      .ok
        { title := m.title
          entries := m.entries.map (·.loadedBy (fs.modified? path))
          files := [path] }

/-- The entries of the files below a directory. -/
def ofDirectory (fs : FileSystem) (path : String) (ignore : IgnoreSet) : Loaded :=
  let files := entryFiles fs path ignore
  files.foldl (fun l file => l.add file (readEntry fs path file)) { files }

/-- The entries of a manifest file or of a directory. -/
def load (fs : FileSystem) (path : String) (ignore : IgnoreSet) : Except Failure Loaded :=
  if fs.isFile path then ofManifest fs path
  else if fs.isDirectory path then .ok (ofDirectory fs path ignore)
  else .error (.pathNotFound path)

end Loaded

end EntryReport
