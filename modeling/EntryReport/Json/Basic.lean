import EntryReport.Number.Numeral

/-!
# JSON values

`Json` is a JSON value. The members of an object are a list: in the order of a report where the
library writes one, in ascending order of their keys where one was read (`insertMember`).
-/

namespace EntryReport

/-- A JSON value. -/
inductive Json where
  | null
  | bool (value : Bool)
  | num (value : Number)
  | str (value : String)
  | arr (items : List Json)
  | obj (members : List (String × Json))
deriving Repr

namespace Json

/-- A natural number. -/
def nat (n : Nat) : Json := .num (.int n)

/-- A list of texts. -/
def strs (texts : List String) : Json := .arr (texts.map .str)

/-- A value that may be absent. -/
def optional {α : Type} (encode : α → Json) : Option α → Json
  | none => .null
  | some a => encode a

/-- A member that is left out where its value is absent. -/
def member? {α : Type} (key : String) (encode : α → Json) : Option α → List (String × Json)
  | none => []
  | some a => [(key, encode a)]

/-- Puts a member into a list that ascends by key; a member with the same key is replaced. -/
def insertMember (key : String) (value : Json) : List (String × Json) → List (String × Json)
  | [] => [(key, value)]
  | (k, v) :: rest =>
    if key < k then (key, value) :: (k, v) :: rest
    else if key = k then (key, value) :: rest
    else (k, v) :: insertMember key value rest

end Json

end EntryReport
