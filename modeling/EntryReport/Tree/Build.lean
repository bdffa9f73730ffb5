import EntryReport.Tree.Order

/-!
# Building a report tree

`Tree.ofEntries` adds every entry and fails at the first that does not fit. `Tree.build` leaves
out the entries that do not fit and says why. Both sort the tree at the end.
-/

namespace EntryReport

/-- An input that was left out, and the reason. -/
structure Skipped where
  source : String
  reason : String
deriving DecidableEq, Repr

namespace Tree

/-- Adds every entry, or fails at the first that does not fit. -/
def addAll (t : Tree) : List Entry → Except TreeError Tree
  | [] => .ok t
  | e :: es =>
    match t.add e with
    | (t, .ok _) => t.addAll es
    | (_, .error err) => .error err

/-- The sorted tree of the entries, all of which have to fit. -/
def ofEntries (rootName : String) (es : List Entry) : Except TreeError Tree :=
  ((new rootName).addAll es).map sort

/-- Adds the entries that fit; the others are listed with the reason. -/
def addFitting (t : Tree) : List Entry → Tree × List Skipped
  | [] => (t, [])
  | e :: es =>
    match t.add e with
    | (t, .ok _) => t.addFitting es
    | (t, .error err) =>
      let (t, skipped) := t.addFitting es
      (t, ⟨e.name, err.message⟩ :: skipped)

/-- The sorted tree of the entries that fit, and the entries that were left out. -/
def build (rootName : String) (es : List Entry) : Tree × List Skipped :=
  let (t, skipped) := (new rootName).addFitting es
  (t.sort, skipped)

end Tree

end EntryReport
