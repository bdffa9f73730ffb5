import EntryReport.Json.Basic
import EntryReport.Time.Timestamp

/-!
# Entries

An `Entry` is one documented thing: its name is a path of segments, the last of which names the
item. A `Manifest` is a list of entries with a title of its own. `Tags` are the two marks that an
item carries.
-/

namespace EntryReport

/-- A parameter or an output field with its documentation. -/
structure ParamDoc where
  key : String
  description : String := ""
deriving Repr

/-- When a test run counts as passed: it is not checked, it must not fail, it must give a row, or
it must give exactly one. -/
inductive TestPass where
  | ignore
  | noError
  | rows
  | oneRowOnly
deriving DecidableEq, Repr

namespace TestPass

/-- The conditions in order. -/
def all : List TestPass := [.ignore, .noError, .rows, .oneRowOnly]

/-- The name of a condition. -/
def name : TestPass → String
  | .ignore => "ignore"
  | .noError => "noerror"
  | .rows => "rows"
  | .oneRowOnly => "onerowonly"

/-- The condition of a name. -/
def ofName? (s : String) : Option TestPass :=
  all.find? fun p => p.name = s

end TestPass

/-- A documented entry. -/
structure Entry where
  /-- Segments apart by slashes; the last is the item's name. -/
  name : String := ""
  description : String := ""
  /-- The declared parameters. -/
  inputs : List ParamDoc := []
  /-- The declared output fields. -/
  outputs : List ParamDoc := []
  /-- The parameters that the entry refers to. -/
  used : List String := []
  /-- What a test run gave: rows, as a rule. -/
  testResult : Option Json := none
  testDuration : Option String := none
  timeout : Option String := none
  /-- A warning from reading the entry. -/
  parseWarning : Option String := none
  error : Option String := none
  loadedAt : Option Timestamp := none
  testPass : TestPass := .noError
  /-- The parameter values of the test run. -/
  testParams : List ParamDoc := []
deriving Repr

/-- Entries with a title. -/
structure Manifest where
  title : Option String := none
  entries : List Entry := []
deriving Repr

/-- The marks of an item. -/
structure Tags where
  hasWarning : Bool := false
  hasError : Bool := false
deriving DecidableEq, Repr

end EntryReport
