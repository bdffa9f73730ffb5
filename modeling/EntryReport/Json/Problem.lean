import EntryReport.Json.Breach

/-!
# What a decoder objects to

A `Problem` is what a decoder meets first in the order of the text: a `Complaint` about a value and
the `trail` that leads from the root of the document to that value. It tells nothing of lines and
columns, nor how a text is malformed; `Diagnosis` finds both in the text.

`within` puts a step in front of the trail of a problem in a part.
-/

namespace EntryReport.Json

/-- A step from a value to a part of it: to an item, or to the value of a member. -/
inductive Step where
  | item (index : Nat)
  | member (index : Nat)
deriving DecidableEq, Repr

/-- What is wrong with a value. -/
inductive Complaint where
  /-- It does not fit the type. -/
  | unfit (fault : Fault)
  /-- Something has to be in it that is not. -/
  | incomplete (fault : Fault)
  /-- Its key stands a second time. -/
  | repeated (fault : Fault)
  /-- Its key is not among the known ones. -/
  | misnamed (fault : Fault)
  /-- There is no more room for what is nested. -/
  | tooDeep
  /-- A scalar that stands for no value. -/
  | unreadable
  /-- Its key stands for no text. -/
  | unreadableKey
  /-- An array that goes on after its first `count` items. -/
  | overlong (count : Nat)
  /-- A choice is given neither by a text nor by an object. -/
  | noChoice
  /-- An object that has to begin with the name of a choice. -/
  | unnamedChoice
  /-- The object does not end after it. -/
  | notLast
  /-- The text ends, or cannot be read any more, where something is read for a purpose. -/
  | brokenOff (purpose : Purpose)
deriving DecidableEq, Repr

/-- The first thing that a decoder objects to. -/
structure Problem where
  trail : List Step
  complaint : Complaint
deriving DecidableEq, Repr

/-- The fault of a value that does not fit, where the text need not be known. -/
def Complaint.fault? : Complaint → Option Fault
  | .unfit fault | .incomplete fault | .repeated fault | .misnamed fault => some fault
  | _ => none

/-- Objects to the value at hand. -/
def reject {α : Type} (complaint : Complaint) : Except Problem α :=
  .error ⟨[], complaint⟩

/-- A problem of a part, seen from the whole. -/
def within {α : Type} (step : Step) : Except Problem α → Except Problem α
  | .ok a => .ok a
  | .error problem => .error { problem with trail := step :: problem.trail }

/-- Nothing changes for a part without a problem. -/
@[simp] theorem within_ok {α : Type} (step : Step) (a : α) : within step (.ok a) = .ok a := rfl

/-- Nor does it become one. -/
theorem within_eq_ok_iff {α : Type} {step : Step} {x : Except Problem α} {a : α} :
    within step x = .ok a ↔ x = .ok a := by
  cases x <;> simp [within]

end EntryReport.Json
