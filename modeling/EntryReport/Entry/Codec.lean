import EntryReport.Entry.Basic
import EntryReport.Json.Decode
import EntryReport.Time.Reading

/-!
# Entries and manifests as JSON

For each type a `Json.Record` that reads it and a function `toJson` that writes it. Fields that
are absent or empty take their defaults when they are read; optional fields without a value are
left out when they are written, and so are test parameters if there are none.

`Entry.ofText` and `Manifest.ofText` read whole texts.
-/

namespace EntryReport

open Json (Doc Decoder Problem Record reject within)

/-! ## Parameters -/

/-- The fields of a parameter that were met. -/
structure ParamDoc.Draft where
  key : Option String := none
  description : Option String := none

/-- How a parameter is read; its key has to be there. -/
def ParamDoc.record : Record ParamDoc.Draft ParamDoc where
  label := "struct ParamDoc"
  fields := ["key", "description"]
  draft := {}
  put d name v :=
    match name with
    | "key" => do return { d with key := ← Decoder.once name d.key Decoder.text v }
    | "description" => do
      return { d with description := ← Decoder.once name d.description Decoder.text v }
    | _ => .ok d
  build fault d :=
    match d.key with
    | none => .error (fault "key")
    | some key => .ok ⟨key, d.description.getD ""⟩

/-- The parameter as an object. -/
def ParamDoc.toJson (p : ParamDoc) : Json :=
  .obj [("key", .str p.key), ("description", .str p.description)]

/-! ## Conditions and timestamps -/

/-- The condition of a name. -/
def TestPass.named (s : String) : Except Fault TestPass :=
  match ofName? s with
  | some p => .ok p
  | none => .error (.unknownVariant s (all.map name))

/-- Nothing: the value null. -/
def Decoder.unit : Decoder Unit
  | .null => .ok ()
  | d => d.mismatch "unit"

/-- The value of the only member of an object that names a condition. -/
def TestPass.only (key : String) (value : Doc) (rest : Json.Members) :
    Except Problem TestPass := do
  let p ← (named key).mapError fun fault => ⟨[], .misnamed fault⟩
  Decoder.unit value
  match rest with
  | .closed => return p
  | _ => reject .notLast

/-- A condition is given by its name, or by an object with its name as the only key and null for
a value. -/
def TestPass.decode (room : Nat) : Decoder TestPass
  | .string (some s) => (named s).mapError fun fault => ⟨[], .unfit fault⟩
  | .string none => reject .unreadable
  | .obj members =>
    if room = 0 then reject .tooDeep
    else
      match members with
      | .member (some s) v rest => within (.member 0) (only s v rest)
      | .member none _ _ => within (.member 0) (reject .unreadableKey)
      | _ => reject .unnamedChoice
  | .fault => reject (.brokenOff .choice)
  | _ => reject .noChoice

/-- A timestamp is given by a text. -/
def Timestamp.decode : Decoder Timestamp
  | .string (some s) =>
    (Timestamp.read s).mapError fun misfit => ⟨[], .unfit (.badTimestamp misfit)⟩
  | d => d.mismatch "an RFC 3339 formatted date and time string"

/-! ## Entries -/

/-- The fields of an entry that were met. -/
structure Entry.Draft where
  name : Option String := none
  description : Option String := none
  inputs : Option (List ParamDoc) := none
  outputs : Option (List ParamDoc) := none
  used : Option (List String) := none
  testResult : Option (Option Json) := none
  testDuration : Option (Option String) := none
  timeout : Option (Option String) := none
  parseWarning : Option (Option String) := none
  error : Option (Option String) := none
  loadedAt : Option (Option Timestamp) := none
  testPass : Option TestPass := none
  testParams : Option (List ParamDoc) := none

namespace Entry

/-- The fields in their order. -/
def fieldNames : List String :=
  ["name", "description", "in", "out", "used", "testResult", "testDuration", "timeout",
    "parseWarning", "error", "loadedAt", "testPass", "testParams"]

/-- A field with the value that stands there; `room` more levels may be nested in it. -/
def Draft.put (room : Nat) (d : Draft) (name : String) (v : Doc) : Except Problem Draft :=
  let params := Decoder.list (ParamDoc.record.decode (room - 1))
  let optionalText := Decoder.optional Decoder.text
  match name with
  | "name" => do return { d with name := ← Decoder.once name d.name Decoder.text v }
  | "description" => do
    return { d with description := ← Decoder.once name d.description Decoder.text v }
  | "in" => do return { d with inputs := ← Decoder.once name d.inputs params v }
  | "out" => do return { d with outputs := ← Decoder.once name d.outputs params v }
  | "used" => do
    return { d with used := ← Decoder.once name d.used (Decoder.list Decoder.text) v }
  | "testResult" => do
    return { d with
      testResult := ← Decoder.once name d.testResult (Decoder.optional (Doc.value room)) v }
  | "testDuration" => do
    return { d with testDuration := ← Decoder.once name d.testDuration optionalText v }
  | "timeout" => do return { d with timeout := ← Decoder.once name d.timeout optionalText v }
  | "parseWarning" => do
    return { d with parseWarning := ← Decoder.once name d.parseWarning optionalText v }
  | "error" => do return { d with error := ← Decoder.once name d.error optionalText v }
  | "loadedAt" => do
    return { d with
      loadedAt := ← Decoder.once name d.loadedAt (Decoder.optional Timestamp.decode) v }
  | "testPass" => do
    return { d with testPass := ← Decoder.once name d.testPass (TestPass.decode room) v }
  | "testParams" => do return { d with testParams := ← Decoder.once name d.testParams params v }
  | _ => .ok d

/-- The entry of a draft: no field has to be there. -/
def Draft.entry (d : Draft) : Entry where
  name := d.name.getD ""
  description := d.description.getD ""
  inputs := d.inputs.getD []
  outputs := d.outputs.getD []
  used := d.used.getD []
  testResult := d.testResult.getD none
  testDuration := d.testDuration.getD none
  timeout := d.timeout.getD none
  parseWarning := d.parseWarning.getD none
  error := d.error.getD none
  loadedAt := d.loadedAt.getD none
  testPass := d.testPass.getD .noError
  testParams := d.testParams.getD []

/-- How an entry is read, with `room` more levels to nest in it. -/
def record (room : Nat) : Record Draft Entry where
  label := "struct Entry"
  fields := fieldNames
  draft := {}
  put := Draft.put room
  build _ d := .ok d.entry

/-- An entry, with `room` more levels to nest. -/
def decode (room : Nat) : Decoder Entry :=
  (record (room - 1)).decode room

/-- The entry in a text. -/
def ofText (s : String) : Except TextFault Entry :=
  (decode Json.nestingLimit).run s

/-- The entry as an object. -/
def toJson (e : Entry) : Json :=
  .obj <|
    [("name", .str e.name), ("description", .str e.description),
      ("in", .arr (e.inputs.map ParamDoc.toJson)), ("out", .arr (e.outputs.map ParamDoc.toJson)),
      ("used", .strs e.used)] ++
    Json.member? "testResult" id e.testResult ++
    Json.member? "testDuration" .str e.testDuration ++
    Json.member? "timeout" .str e.timeout ++
    Json.member? "parseWarning" .str e.parseWarning ++
    Json.member? "error" .str e.error ++
    Json.member? "loadedAt" (fun t => .str t.isoText) e.loadedAt ++
    [("testPass", .str e.testPass.name)] ++
    match e.testParams with
    | [] => []
    | params => [("testParams", .arr (params.map ParamDoc.toJson))]

end Entry

/-! ## Manifests -/

/-- The fields of a manifest that were met. -/
structure Manifest.Draft where
  title : Option (Option String) := none
  entries : Option (List Entry) := none

namespace Manifest

/-- How a manifest is read, with `room` more levels to nest in it. -/
def record (room : Nat) : Record Draft Manifest where
  label := "struct Manifest"
  fields := ["title", "entries"]
  draft := {}
  put d name v :=
    match name with
    | "title" => do
      return { d with title := ← Decoder.once name d.title (Decoder.optional Decoder.text) v }
    | "entries" => do
      return { d with
        entries := ← Decoder.once name d.entries (Decoder.list (Entry.decode (room - 1))) v }
    | _ => .ok d
  build _ d := .ok ⟨d.title.getD none, d.entries.getD []⟩

/-- A manifest, with `room` more levels to nest. -/
def decode (room : Nat) : Decoder Manifest :=
  (record (room - 1)).decode room

/-- The manifest in a text. -/
def ofText (s : String) : Except TextFault Manifest :=
  (decode Json.nestingLimit).run s

/-- The manifest as an object. -/
def toJson (m : Manifest) : Json :=
  .obj [("title", Json.optional .str m.title), ("entries", .arr (m.entries.map Entry.toJson))]

end Manifest

/-- The tags as an object. -/
def Tags.toJson (t : Tags) : Json :=
  .obj [("hasWarning", .bool t.hasWarning), ("hasError", .bool t.hasError)]

end EntryReport
