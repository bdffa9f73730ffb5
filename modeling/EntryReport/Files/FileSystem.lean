import EntryReport.Files.Path
import EntryReport.Time.Timestamp

/-!
# File systems

A `FileSystem` is a finite tree of directories and files, as it is seen from a working directory.
A file or directory has a `Location`, the names from the root; `FileSystem.locate?` finds the
location of a path, which may be relative and may go up with `..`. A name and a path have a greatest
number of bytes.

Out of scope, here and in everything that reads files:

* names that are no text: every name is a `String`, so that none is passed over because it cannot be
  decoded, and different names are never shown as one text;
* links, so that every location has one absolute path;
* access rights, and whatever is neither a file nor a directory: what stands at a location can be
  read, and a file can be written wherever there is a directory for it;
* the range of times: a file may have been changed at any time;
* the length of what a path is resolved to: `FileSystem.canonical` gives an absolute path that may
  be longer than the paths that `FileSystem.follow` goes along.

* `isFile`, `isDirectory`, `readBytes`, `readText`, `modified?`: what a path leads to;
* `filesBelow`: the files below a directory, by the paths that a walk from there gives them;
* `writeText`: a file made or replaced; `changes`: what was written between two states.
-/

namespace EntryReport.Files

/-- The names on the way from the root. They are texts. -/
abbrev Location := List String

/-- A directory, or a file with its bytes and the time of its last change. -/
inductive FileNode where
  | directory
  | file (content : List UInt8) (modified : Timestamp)
deriving DecidableEq, Repr

/-- Directories and files by their location, and the working directory. The root is always there. -/
structure FileSystem where
  nodes : List (Location × FileNode)
  workingDirectory : Location
deriving Repr

/-- Why a file cannot be read or written. -/
inductive FileError where
  | notFound
  | notADirectory
  | isADirectory
  | nameTooLong
  | notText
deriving DecidableEq, Repr

/-- The error in words, with the number that the system gives it. -/
def FileError.message : FileError → String
  | .notFound => "No such file or directory (os error 2)"
  | .notADirectory => "Not a directory (os error 20)"
  | .isADirectory => "Is a directory (os error 21)"
  | .nameTooLong => "File name too long (os error 36)"
  | .notText => "stream did not contain valid UTF-8"

namespace FileSystem

/-- What stands at a location. -/
def node? (fs : FileSystem) (loc : Location) : Option FileNode :=
  if loc = [] then some .directory else fs.nodes.lookup loc

/-- The location is a directory. -/
def isDirectoryAt (fs : FileSystem) (loc : Location) : Bool :=
  fs.node? loc == some .directory

/-- The greatest number of bytes in a name. -/
def nameLimit : Nat := 255

/-- The greatest number of bytes in a path. -/
def pathLimit : Nat := 4095

/-- The path has more bytes than a path may have. -/
def isTooLong (path : String) : Bool :=
  pathLimit < path.utf8ByteSize

/-- Goes on from a location by one part of a path. -/
def enter (fs : FileSystem) (loc : Location) (part : List Char) : Except FileError Location :=
  match fs.node? loc with
  | none => .error .notFound
  | some (.file _ _) => .error .notADirectory
  | some .directory =>
    let name := String.ofList part
    if part = [] || part = ['.'] then .ok loc
    else if part = ['.', '.'] then .ok loc.dropLast
    else if nameLimit < name.utf8ByteSize then .error .nameTooLong
    else .ok (loc ++ [name])

/-- Goes on from a location by parts of a path. -/
def walk (fs : FileSystem) (loc : Location) (parts : List (List Char)) :
    Except FileError Location :=
  parts.foldlM fs.enter loc

/-- The location where a path begins. -/
def start (fs : FileSystem) (path : String) : Location :=
  if Path.isAbsolute path then [] else fs.workingDirectory

/-- The location that a path of any length leads to, whether or not something stands there. -/
def trace (fs : FileSystem) (path : String) : Except FileError Location :=
  if path.isEmpty then .error .notFound
  else fs.walk (fs.start path) (Text.slashParts path.toList)

/-- The location that a path leads to, whether or not something stands there. -/
def follow (fs : FileSystem) (path : String) : Except FileError Location :=
  if isTooLong path then .error .nameTooLong else fs.trace path

/-- What a path leads to, with its location. -/
def find (fs : FileSystem) (path : String) : Except FileError (Location × FileNode) := do
  let loc ← fs.follow path
  match fs.node? loc with
  | some n => .ok (loc, n)
  | none => .error .notFound

/-- The location of a path, if something stands there. -/
def locate? (fs : FileSystem) (path : String) : Option Location :=
  (fs.find path).toOption.map (·.1)

/-- Something stands at the path. -/
def exists? (fs : FileSystem) (path : String) : Bool :=
  (fs.locate? path).isSome

/-- The path leads to a file. -/
def isFile (fs : FileSystem) (path : String) : Bool :=
  match fs.find path with
  | .ok (_, .file _ _) => true
  | _ => false

/-- The path leads to a directory. -/
def isDirectory (fs : FileSystem) (path : String) : Bool :=
  match fs.find path with
  | .ok (_, .directory) => true
  | _ => false

/-- The absolute path of a location. -/
def pathOf (loc : Location) : String :=
  "/" ++ "/".intercalate loc

/-- The absolute path of what a path of any length leads to, or the path itself if it leads
nowhere. -/
def canonical (fs : FileSystem) (path : String) : String :=
  match fs.trace path with
  | .ok loc => if (fs.node? loc).isSome then pathOf loc else path
  | .error _ => path

/-! ## Reading -/

/-- The bytes of a file. -/
def readBytes (fs : FileSystem) (path : String) : Except FileError (List UInt8) := do
  match (← fs.find path).2 with
  | .directory => .error .isADirectory
  | .file content _ => .ok content

/-- The text of a file. -/
def readText (fs : FileSystem) (path : String) : Except FileError String := do
  let content ← fs.readBytes path
  match String.fromUTF8? (ByteArray.mk content.toArray) with
  | some s => .ok s
  | none => .error .notText

/-- The time of the last change of a file. -/
def modified? (fs : FileSystem) (path : String) : Option Timestamp :=
  match fs.find path with
  | .ok (_, .file _ modified) => some modified
  | _ => none

/-- The names from one location down to another. -/
def below? : Location → Location → Option (List String)
  | [], names => some names
  | _ :: _, [] => none
  | a :: as, b :: bs => if a = b then below? as bs else none

theorem below?_eq_some_iff {top loc : Location} {names : List String} :
    below? top loc = some names ↔ loc = top ++ names := by
  induction top generalizing loc with
  | nil => simp [below?]
  | cons a as ih =>
    cases loc with
    | nil => simp [below?]
    | cons b bs =>
      by_cases h : a = b
      · simp [below?, h, ih]
      · simp [below?, h, Ne.symm h]

/-- The path of what lies below another path, by the names on the way. -/
def joinNames (path : String) (names : List String) : String :=
  names.foldl Path.join path

/-- The files at and below a path. The path of each is the given path with the names below it
joined on. A directory whose path is too long is not entered. -/
def filesBelow (fs : FileSystem) (path : String) : List String :=
  match fs.find path with
  | .error _ => []
  | .ok (_, .file _ _) => [path]
  | .ok (top, .directory) =>
    fs.nodes.filterMap fun (loc, n) =>
      match n with
      | .directory => none
      | .file _ _ => (below? top loc).bind fun names =>
        if isTooLong (joinNames path names.dropLast) then none else some (joinNames path names)

/-! ## Writing -/

/-- The file system with a node put at a location. -/
def put (fs : FileSystem) (loc : Location) (n : FileNode) : FileSystem :=
  { fs with nodes := (loc, n) :: fs.nodes.filter fun (other, _) => other ≠ loc }

/-- Nodes at other locations are found where they were. -/
theorem lookup_filter_ne {loc other : Location} (ho : other ≠ loc)
    (nodes : List (Location × FileNode)) :
    (nodes.filter fun (l, _) => l ≠ loc).lookup other = nodes.lookup other := by
  induction nodes with
  | nil => rfl
  | cons head rest ih =>
    obtain ⟨l, m⟩ := head
    by_cases hm : l = loc
    · subst hm
      simpa [List.lookup_cons, beq_eq_false_iff_ne.mpr ho] using ih
    · by_cases he : other = l
      · subst he
        simp [hm]
      · simpa [hm, List.lookup_cons, beq_eq_false_iff_ne.mpr he] using ih

/-- A node that is put somewhere is found there, and all else is where it was. -/
theorem node?_put {fs : FileSystem} {loc other : Location} {n : FileNode} (h : loc ≠ []) :
    (fs.put loc n).node? other = if other = loc then some n else fs.node? other := by
  by_cases ho : other = loc
  · subst ho
    simp [node?, put, h]
  · simp only [node?, put, List.lookup_cons, beq_eq_false_iff_ne.mpr ho, lookup_filter_ne ho,
      if_neg ho]

/-- The directories on the way to a location, made where they are missing. -/
def makeDirectories (fs : FileSystem) (loc : Location) : FileSystem :=
  (List.range loc.length).foldl
    (fun fs n =>
      let dir := loc.take (n + 1)
      if (fs.node? dir).isSome then fs else fs.put dir .directory)
    fs

/-- The file system without what stands at a location. -/
def remove (fs : FileSystem) (loc : Location) : FileSystem :=
  { fs with nodes := fs.nodes.filter fun (other, _) => other ≠ loc }

/-- A file made, or replaced, with a text. The path has to end with a name, not with a slash, and
the directory that it names has to be there. -/
def writeText (fs : FileSystem) (path text : String) (now : Timestamp) :
    Except FileError FileSystem :=
  if path.isEmpty then .error .notFound
  else if isTooLong path then .error .nameTooLong
  else do
    let parts := Text.slashParts path.toList
    let named := (parts.reverse.dropWhile (· = [])).reverse
    let directory ← fs.walk (fs.start path) (named.dropLast ++ [[]])
    if named.length < parts.length then .error .isADirectory
    else do
      let loc ← fs.enter directory (named.getLastD [])
      if fs.isDirectoryAt loc then .error .isADirectory
      else .ok (fs.put loc (.file text.toUTF8.data.toList now))

/-- The files of `after` that are not in `before`, or have another content there. -/
def changes (before after : FileSystem) : List (Location × List UInt8) :=
  after.nodes.filterMap fun (loc, n) =>
    match n, before.node? loc with
    | .directory, _ => none
    | .file content _, some (.file old _) => if content = old then none else some (loc, content)
    | .file content _, _ => some (loc, content)

end FileSystem

end EntryReport.Files
