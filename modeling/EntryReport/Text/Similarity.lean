import EntryReport.Number.Binary64

/-!
# Similar texts

`likeness` says how alike two texts are, from 0 to 1. A character of one text has a partner in the
other if the same character stands there about as far from the front; the likeness is the mean of
three shares: of the characters with a partner in the one text, of those in the other, and of the
partners that stand in the same order (of each two that do not, one counts).

It is computed in floating point numbers, each step rounded, so that two likenesses that are equal
as fractions may still differ.

`mostSimilar?` is the most similar of several texts, if it is similar enough.
-/

namespace EntryReport.Text

/-- How far a partner may be from the place of its character, in texts of two lengths. -/
def partnerReach (m n : Nat) : Nat := max m n / 2 - 1

/-- Where the first free place with the character `c` is, among places from `first` to before
`bound`; taken places are `none`. -/
def freePlace? (c : Char) (first bound : Nat) (places : List (Option Char)) : Option Nat :=
  ((places.take bound).zipIdx.find? fun (d, place) => first ≤ place && d = some c).map (·.2)

/-- The characters of the first text that have a partner, the characters before `index` having
found theirs, and the places that are free in the end. -/
def findPartners (reach index : Nat) :
    List Char → List (Option Char) → List Char × List (Option Char)
  | [], places => ([], places)
  | c :: cs, places =>
    match freePlace? c (index - reach) (index + reach + 1) places with
    | none => findPartners reach (index + 1) cs places
    | some place =>
      let (found, places) := findPartners reach (index + 1) cs (places.set place none)
      (c :: found, places)

/-- The characters whose places are taken. -/
def takenFrom (cs : List Char) (places : List (Option Char)) : List Char :=
  (cs.zip places).filterMap fun (c, place) => if place.isNone then some c else none

/-- A share of a number of things. -/
def share (part whole : Nat) : Magnitude :=
  (Magnitude.nearest part whole).getD .zero

/-- How alike two texts are, by their characters. -/
def likeness (a b : List Char) : Magnitude :=
  let (found, places) := findPartners (partnerReach a.length b.length) 0 a (b.map some)
  let count := found.length
  if count = 0 then if a.isEmpty && b.isEmpty then share 1 1 else .zero
  else
    let moved := ((found.zip (takenFrom b places)).filter fun (c, d) => c ≠ d).length / 2
    let sum := do
      let both ← (share count a.length).add (share count b.length)
      (← both.add (share (count - moved) count)).div (share 3 1)
    sum.getD .zero

/-- The likeness that similar texts exceed. -/
def similarFrom : Magnitude := share 7 10

/-- The most similar of several texts, the last of them on a tie; `none` if none is similar. -/
def mostSimilar? (text : String) (others : List String) : Option String :=
  (others.foldl (fun (best, found) other =>
    let value := likeness text.toList other.toList
    if best.below value || (found.isSome && best = value) then (value, some other)
    else (best, found)) (similarFrom, none)).2

end EntryReport.Text
