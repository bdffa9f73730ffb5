import EntryReport.Text.Parts

/-!
# File paths

A file path is a text; what it means is in its components. Repeated slashes, a slash at the end
and single dots do not count, except for a dot at the beginning; two dots stay. Everything here
works on the text alone.

* `components`: the components with the place of each in the text;
* `parent?`, `ancestors`, `fileName?`, `stripPrefix?`: parts of a path as they are written;
* `join`, `withExtension`: paths made from others;
* `mayPrecede`: the order of paths, component by component.
-/

namespace EntryReport.Files

open EntryReport.Text (slashParts)

/-- A component of a path. -/
inductive Component where
  | root
  | current
  | parent
  | name (s : String)
deriving DecidableEq, Repr

/-- A component with the characters it takes: from `start` up to `stop`. -/
structure Placed where
  component : Component
  start : Nat
  stop : Nat
deriving DecidableEq, Repr

namespace Path

/-- The path begins at the root. -/
def isAbsolute (p : String) : Bool :=
  p.toList.head? == some '/'

/-- The component of a part, if it counts. -/
def ofPart? (part : List Char) : Option Component :=
  if part = [] || part = ['.'] then none
  else if part = ['.', '.'] then some .parent
  else some (.name (String.ofList part))

/-- The components of parts that begin at a place. -/
def placeParts (start : Nat) : List (List Char) → List Placed
  | [] => []
  | part :: parts =>
    let rest := placeParts (start + part.length + 1) parts
    match ofPart? part with
    | none => rest
    | some c => ⟨c, start, start + part.length⟩ :: rest

/-- The components of a path with their places. -/
def placed (p : String) : List Placed :=
  match slashParts p.toList with
  | [] => []
  | first :: parts =>
    if first = [] && isAbsolute p then ⟨.root, 0, 1⟩ :: placeParts 1 parts
    else if first = ['.'] then ⟨.current, 0, 1⟩ :: placeParts 2 parts
    else placeParts 0 (first :: parts)

/-- The components of a path. -/
def components (p : String) : List Component :=
  (placed p).map (·.component)

/-- The text of a path between two places. -/
def cut (p : String) (start stop : Nat) : String :=
  String.ofList ((p.toList.take stop).drop start)

/-- The text up to a component, or nothing. -/
def upTo (p : String) : Option Placed → String
  | none => ""
  | some c => cut p 0 c.stop

/-- The path without its last component; the root and the empty path have no parent. -/
def parent? (p : String) : Option String :=
  match (placed p).reverse with
  | [] => none
  | ⟨.root, _, _⟩ :: _ => none
  | _ :: rest => some (upTo p rest.head?)

/-- The parents of the components given last first. -/
def parentsFrom (p : String) : List Placed → List String
  | [] => []
  | ⟨.root, _, _⟩ :: _ => []
  | _ :: rest => upTo p rest.head? :: parentsFrom p rest

/-- The path, its parent, the parent of that, and so on. -/
def ancestors (p : String) : List String :=
  p :: parentsFrom p (placed p).reverse

/-- The name that a path ends with. -/
def fileName? (p : String) : Option String :=
  match (placed p).getLast? with
  | some ⟨.name s, _, _⟩ => some s
  | _ => none

/-- The components of a path that follow those of another. -/
def after? : List Placed → List Component → Option (List Placed)
  | rest, [] => some rest
  | [], _ :: _ => none
  | c :: rest, b :: base => if c.component = b then after? rest base else none

/-- What follows another path, as it is written. -/
def stripPrefix? (p base : String) : Option String :=
  (after? (placed p) (components base)).map fun rest =>
    match rest.head?, rest.getLast? with
    | some first, some last => cut p first.start last.stop
    | _, _ => ""

/-- A path below another one; an absolute path stands for itself. -/
def join (base p : String) : String :=
  if isAbsolute p then p
  else if base.isEmpty || base.toList.getLast? = some '/' then base ++ p
  else base ++ "/" ++ p

/-- The characters before and after the last dot of a name, if a dot stands behind the first
character. -/
def splitName (name : List Char) : List Char × Option (List Char) :=
  let after := (name.reverse.takeWhile (· ≠ '.')).reverse
  let before := name.take (name.length - after.length - 1)
  if name = ['.', '.'] || after.length = name.length || before = [] then (name, none)
  else (before, some after)

/-- The extension of the name that a path ends with. -/
def extension? (p : String) : Option String :=
  (fileName? p).bind fun name => (splitName name.toList).2.map String.ofList

/-- The path cut after the name it ends with, less the extension of that name, and with another
extension behind it unless that is empty. A path that ends with no name stays as it is. -/
def setExtension (p extension : String) : String :=
  match (placed p).getLast? with
  | some ⟨.name s, start, _⟩ =>
    cut p 0 (start + (splitName s.toList).1.length) ++
      (if extension.isEmpty then "" else "." ++ extension)
  | _ => p

/-- The path with another extension, or with none if it is empty. The characters of its own
extension go first, from the end of the path, and what is left is read anew: `..x` without `x` is
the parent directory, which takes no extension. -/
def withExtension (p extension : String) : String :=
  let own := (extension? p).getD ""
  setExtension (cut p 0 (p.length - own.length)) extension

/-- The place of a component in the order: the root, dots, names. -/
def Component.rank : Component → Nat
  | .root => 0
  | .current => 1
  | .parent => 2
  | .name _ => 3

/-- The order of components; names go by their characters. -/
def lessComponent (a b : Component) : Bool :=
  match a, b with
  | .name s, .name t => s < t
  | _, _ => Component.rank a < Component.rank b

/-- The order of lists of components. -/
def mayPrecedeList : List Component → List Component → Bool
  | [], _ => true
  | _ :: _, [] => false
  | a :: as, b :: bs => if a = b then mayPrecedeList as bs else lessComponent a b

/-- Whether `a` may stand before `b`. -/
def mayPrecede (a b : String) : Bool :=
  mayPrecedeList (components a) (components b)

/-- The text of a component. -/
def componentText : Component → String
  | .root => "/"
  | .current => "."
  | .parent => ".."
  | .name s => s

end Path

end EntryReport.Files
