import EntryReport.Entry.Codec
import EntryReport.Text.Blank

/-!
# Description panels

`Panel.ofEntry` describes an entry: its documentation, the rows of its parameters and outputs,
and the warnings that follow from them.

* A declared parameter that is not used, and a used one that is not declared, is a warning.
* The columns of a test result are the keys of its first row. They are compared with the declared
  outputs, both ways, unless the run had an error.
* A missing description and a warning from reading the entry count as warnings too.

`Panel.warnings` lists the warnings in the order in which they are shown.
-/

namespace EntryReport

/-- What can be wrong with a row. -/
inductive RowWarning where
  | declaredNotUsed
  | usedNotDeclared
  | notInResult
  | notDescribed
deriving DecidableEq, Repr

/-- The wording of a warning. -/
def RowWarning.message : RowWarning → String
  | .declaredNotUsed => "Declared and not used"
  | .usedNotDeclared => "Used but not declared"
  | .notInResult => "Field not found in test result"
  | .notDescribed => "Field found in test result but not described"

/-- A row of a panel. -/
structure Row where
  name : String
  description : String
  warning : Option RowWarning
deriving DecidableEq, Repr

/-- The description of one entry; `id` is the path of its item. -/
structure Panel where
  id : String
  name : String
  description : String
  inputs : List Row
  outputs : List Row
  loadTime : Option String
  timeout : String
  parseWarning : Option String
  testDuration : Option String
  testResult : Option String
  testPass : TestPass
  testParams : List Row
  error : Option String
  tags : Tags
deriving DecidableEq, Repr

namespace Panel

/-- The text, unless it is empty. -/
def nonempty (s : Option String) : Option String :=
  s.filter fun s => !s.isEmpty

/-- The rows of the declared parameters. -/
def declaredRows (inputs : List ParamDoc) (used : List String) : List Row :=
  inputs.map fun p =>
    ⟨p.key, p.description, if p.key ∈ used then none else some .declaredNotUsed⟩

/-- The rows with one more for each used name that has none yet. -/
def addUndeclared (inputs : List ParamDoc) (rows : List Row) : List String → List Row
  | [] => rows
  | u :: used =>
    if inputs.any (·.key == u) || rows.any (·.name == u) then addUndeclared inputs rows used
    else addUndeclared inputs (rows ++ [⟨u, "", some .usedNotDeclared⟩]) used

/-- The rows of the parameters. -/
def inputRows (e : Entry) : List Row :=
  addUndeclared e.inputs (declaredRows e.inputs e.used) e.used

/-- The columns of a test result: the keys of its first row. -/
def columns? : Option Json → Option (List String)
  | some (.arr (.obj members :: _)) => some (members.map (·.1))
  | _ => none

/-- The columns that the outputs are compared with: none if the run had an error. -/
def checkedColumns? (e : Entry) : Option (List String) :=
  if (nonempty e.error).isSome then none else columns? e.testResult

/-- The rows of the outputs. -/
def outputRows (e : Entry) : List Row :=
  match checkedColumns? e with
  | none => e.outputs.map fun p => ⟨p.key, p.description, none⟩
  | some columns =>
    (e.outputs.map fun p =>
      ⟨p.key, p.description, if p.key ∈ columns then none else some .notInResult⟩) ++
    (columns.filter fun c => !e.outputs.any (·.key == c)).map fun c => ⟨c, "", some .notDescribed⟩

/-- The last segment of a path. -/
def lastSegment (id : String) : String :=
  String.ofList (id.toList.reverse.takeWhile (· ≠ '/')).reverse

/-- The description of an entry whose item has the path `id`. -/
def ofEntry (id : String) (e : Entry) : Panel :=
  let inputs := inputRows e
  let outputs := outputRows e
  let parseWarning := nonempty e.parseWarning
  let error := nonempty e.error
  { id
    name := lastSegment id
    description := e.description
    inputs
    outputs
    loadTime := e.loadedAt.map Timestamp.panelText
    timeout := e.timeout.getD "Default"
    parseWarning
    testDuration := e.testDuration
    testResult := e.testResult.map Json.pretty
    testPass := e.testPass
    testParams := e.testParams.map fun p => ⟨p.key, p.description, none⟩
    error
    tags :=
      { hasWarning := Text.allBlank e.description || inputs.any (·.warning.isSome) ||
          outputs.any (·.warning.isSome) || parseWarning.isSome
        hasError := error.isSome } }

/-- The warning of a row, with its name. -/
def rowWarning? (r : Row) : Option String :=
  r.warning.map fun w => r.name ++ ": " ++ w.message

/-- The warnings in the order in which they are shown. -/
def warnings (d : Panel) : List String :=
  (if Text.allBlank d.description then ["Missing description"] else []) ++
    (d.inputs ++ d.outputs).filterMap rowWarning? ++ d.parseWarning.toList

/-! ## As JSON -/

/-- A row as an object. -/
def rowJson (r : Row) : Json :=
  .obj ([("name", .str r.name), ("description", .str r.description)] ++
    Json.member? "warning" (fun w => .str w.message) r.warning)

/-- The panel as an object. -/
def toJson (d : Panel) : Json :=
  .obj
    [("id", .str d.id), ("name", .str d.name), ("description", .str d.description),
      ("inputs", .arr (d.inputs.map rowJson)), ("outputs", .arr (d.outputs.map rowJson)),
      ("loadTime", Json.optional .str d.loadTime), ("timeout", .str d.timeout),
      ("parseWarning", Json.optional .str d.parseWarning),
      ("testDuration", Json.optional .str d.testDuration),
      ("testResult", Json.optional .str d.testResult), ("testPass", .str d.testPass.name),
      ("testParams", .arr (d.testParams.map rowJson)), ("error", Json.optional .str d.error),
      ("tags", d.tags.toJson)]

end Panel

end EntryReport
