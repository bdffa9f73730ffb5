import EntryReport.Glob.Basic

/-!
# Places in a path

The places of a path are before each of its bytes and at its end. `Marks` is a set of places: one
mark for each, in order. A token takes the marked places to those where it can end when it begins
at one of them; the tokens of a pattern do so one after the other (`steps`). The whole path matches
when that takes the first place to the last.
-/

namespace EntryReport

namespace Glob

/-- A mark for each place of a path. -/
abbrev Marks := List Bool

namespace Marks

/-- The first place of a path, alone. -/
def first (path : List UInt8) : Marks :=
  true :: path.map fun _ => false

/-- No place of as many. -/
def none (m : Marks) : Marks :=
  m.map fun _ => false

/-- The places of two sets. -/
def union (m n : Marks) : Marks :=
  List.zipWith (· || ·) m n

/-- The places behind a byte of a class that stands at a marked place. -/
def past (path : List UInt8) (isIn : UInt8 → Bool) (m : Marks) : Marks :=
  false :: List.zipWith (fun b marked => marked && isIn b) path m

/-- The places behind bytes that stand at a marked place. -/
def pastBytes (path : List UInt8) (m : Marks) (bs : List UInt8) : Marks :=
  bs.foldl (fun m b => m.past path (· == b)) m

/-- The places behind a slash that stands at a marked place. -/
def pastSlash (path : List UInt8) (m : Marks) : Marks :=
  m.past path (· == slash)

/-- All places, if a place before them is marked, and otherwise those from a marked place on. -/
def onwardAfter (before : Bool) : Marks → Marks
  | [] => []
  | marked :: m => (before || marked) :: onwardAfter (before || marked) m

/-- The places from a marked place on. -/
def onward (m : Marks) : Marks :=
  onwardAfter false m

/-- The last place is marked. -/
def hasLast (m : Marks) : Bool :=
  m.getLast? == some true

@[simp] theorem length_first (path : List UInt8) : (first path).length = path.length + 1 := by
  simp [first]

@[simp] theorem length_none (m : Marks) : m.none.length = m.length := by
  simp [none]

@[simp] theorem length_union (m n : Marks) : (m.union n).length = min m.length n.length := by
  simp [union]

@[simp] theorem length_past (path : List UInt8) (isIn : UInt8 → Bool) (m : Marks) :
    (m.past path isIn).length = min path.length m.length + 1 := by
  simp [past]

@[simp] theorem length_onwardAfter (before : Bool) (m : Marks) :
    (onwardAfter before m).length = m.length := by
  induction m generalizing before with
  | nil => rfl
  | cons marked m ih => simp [onwardAfter, ih]

@[simp] theorem length_onward (m : Marks) : m.onward.length = m.length :=
  length_onwardAfter false m

end Marks

mutual
/-- The places where the token can end when it begins at a marked place. -/
def Token.step (path : List UInt8) : Token → Marks → Marks
  | .literal c, m => m.pastBytes path (String.utf8EncodeChar c)
  | .anyByte, m => m.past path fun _ => true
  | .anyRun, m => m.onward
  | .treeStart, m => m.union (m.onward.pastSlash path)
  | .treeInside, m =>
    (m.pastSlash path).union ((m.pastSlash path).onward.pastSlash path)
  | .treeEnd, m => (m.pastSlash path).onward
  | .set negated ranges, m => m.past path fun b => inRanges ranges b != negated
  | .oneOf alternatives, m =>
    if allVacuous alternatives then m else alternativeSteps path alternatives m

/-- The places where the tokens can end, one after the other. -/
def steps (path : List UInt8) : List Token → Marks → Marks
  | [], m => m
  | t :: ts, m => steps path ts (t.step path m)

/-- The places where one of the patterns can end; a pattern that stands for nothing is none of
them. -/
def alternativeSteps (path : List UInt8) : List (List Token) → Marks → Marks
  | [], m => m.none
  | tokens :: rest, m =>
    if vacuous tokens then alternativeSteps path rest m
    else (steps path tokens m).union (alternativeSteps path rest m)
end

end Glob

end EntryReport
