import EntryReport.View
import EntryReport.Entry.Codec

/-!
# Configurations

A `Config` says how reports are made. Every setting may be absent; `Config.withBase` fills what a
configuration leaves open from the one it extends, and puts the other's ignore patterns in front
of its own.

* `Config.ofText`, `Config.toJson`: configurations as JSON;
* `Config.renderOptions`, `Config.rootText`: the settings with their defaults;
* `Config.initial`: the configuration that a new file is written with.
-/

namespace EntryReport

open Json (Decoder Record)

/-- How reports are made. -/
structure Config where
  /-- The configuration that fills in what this one leaves open, by its path. -/
  base : Option String := none
  title : Option String := none
  rootName : Option String := none
  /-- The patterns of entry files that are left out. -/
  ignore : List String := []
  expandAll : Option Bool := none
  hideEmptyFolders : Option Bool := none
  highlight : Option Highlight := none
  failOnError : Option Bool := none
deriving DecidableEq, Repr

/-! ## Reading -/

/-- The fields of a highlight that were met. -/
structure Highlight.Draft where
  background : Option String := none
  foreground : Option String := none

/-- How a highlight is read; both colours have to be there. -/
def Highlight.record : Record Highlight.Draft Highlight where
  label := "struct Highlight"
  fields := ["background", "foreground"]
  draft := {}
  put d name v :=
    match name with
    | "background" => do
      return { d with background := ← Decoder.once name d.background Decoder.text v }
    | "foreground" => do
      return { d with foreground := ← Decoder.once name d.foreground Decoder.text v }
    | _ => .ok d
  build fault d :=
    match d.background, d.foreground with
    | none, _ => .error (fault "background")
    | some _, none => .error (fault "foreground")
    | some background, some foreground => .ok ⟨background, foreground⟩

/-- The fields of a configuration that were met. -/
structure Config.Draft where
  base : Option (Option String) := none
  title : Option (Option String) := none
  rootName : Option (Option String) := none
  ignore : Option (List String) := none
  expandAll : Option (Option Bool) := none
  hideEmptyFolders : Option (Option Bool) := none
  highlight : Option (Option Highlight) := none
  failOnError : Option (Option Bool) := none

namespace Config

/-- The fields in their order. -/
def fieldNames : List String :=
  ["extends", "title", "rootName", "ignore", "expandAll", "hideEmptyFolders", "highlight",
    "failOnError"]

/-- A field with the value that stands there; `room` more levels may be nested in it. -/
def Draft.put (room : Nat) (d : Draft) (name : String) (v : Json.Doc) :
    Except Json.Problem Draft :=
  let optionalText := Decoder.optional Decoder.text
  let optionalFlag := Decoder.optional Decoder.flag
  let optionalHighlight := Decoder.optional (Highlight.record.decode room)
  match name with
  | "extends" => do return { d with base := ← Decoder.once name d.base optionalText v }
  | "title" => do return { d with title := ← Decoder.once name d.title optionalText v }
  | "rootName" => do return { d with rootName := ← Decoder.once name d.rootName optionalText v }
  | "ignore" => do
    return { d with ignore := ← Decoder.once name d.ignore (Decoder.list Decoder.text) v }
  | "expandAll" => do return { d with expandAll := ← Decoder.once name d.expandAll optionalFlag v }
  | "hideEmptyFolders" => do
    return { d with hideEmptyFolders := ← Decoder.once name d.hideEmptyFolders optionalFlag v }
  | "highlight" => do
    return { d with highlight := ← Decoder.once name d.highlight optionalHighlight v }
  | "failOnError" => do
    return { d with failOnError := ← Decoder.once name d.failOnError optionalFlag v }
  | _ => .ok d

/-- The configuration of a draft: no field has to be there. -/
def Draft.config (d : Draft) : Config where
  base := d.base.getD none
  title := d.title.getD none
  rootName := d.rootName.getD none
  ignore := d.ignore.getD []
  expandAll := d.expandAll.getD none
  hideEmptyFolders := d.hideEmptyFolders.getD none
  highlight := d.highlight.getD none
  failOnError := d.failOnError.getD none

/-- How a configuration is read, with `room` more levels to nest in it. -/
def record (room : Nat) : Record Draft Config where
  label := "struct Config"
  fields := fieldNames
  draft := {}
  put := Draft.put room
  build _ d := .ok d.config

/-- A configuration, with `room` more levels to nest. -/
def decode (room : Nat) : Decoder Config :=
  (record (room - 1)).decode room

/-- The configuration in a text. -/
def ofText (s : String) : Except TextFault Config :=
  (decode Json.nestingLimit).run s

/-! ## Writing -/

/-- The configuration as an object; settings that are absent are left out. -/
def toJson (c : Config) : Json :=
  .obj <|
    Json.member? "extends" .str c.base ++
    Json.member? "title" .str c.title ++
    Json.member? "rootName" .str c.rootName ++
    [("ignore", .strs c.ignore)] ++
    Json.member? "expandAll" .bool c.expandAll ++
    Json.member? "hideEmptyFolders" .bool c.hideEmptyFolders ++
    Json.member? "highlight" Highlight.toJson c.highlight ++
    Json.member? "failOnError" .bool c.failOnError

/-! ## Combining -/

/-- The configuration, with what it leaves open taken from `base`. -/
def withBase (c base : Config) : Config where
  base := c.base.or base.base
  title := c.title.or base.title
  rootName := c.rootName.or base.rootName
  ignore := base.ignore ++ c.ignore
  expandAll := c.expandAll.or base.expandAll
  hideEmptyFolders := c.hideEmptyFolders.or base.hideEmptyFolders
  highlight := c.highlight.or base.highlight
  failOnError := c.failOnError.or base.failOnError

/-- The configuration with two settings switched on where they are asked for. -/
def withFlags (c : Config) (expandAll failOnError : Bool) : Config :=
  { c with
    expandAll := if expandAll then some true else c.expandAll
    failOnError := if failOnError then some true else c.failOnError }

/-! ## Settings -/

/-- The name of a root that is given none. -/
def defaultRootName : String := "root"

/-- The name of the root. -/
def rootText (c : Config) : String :=
  c.rootName.getD defaultRootName

/-- The settings of the display. -/
def renderOptions (c : Config) : RenderOptions where
  emptyFolders := if c.hideEmptyFolders.getD false then .hidden else .shown
  highlight := c.highlight.getD {}

/-- The configuration that a new file is written with. -/
def initial : Config where
  title := some "Entry documentation"
  rootName := some defaultRootName
  ignore := ["**/drafts/**"]
  expandAll := some false
  hideEmptyFolders := some false
  highlight := some {}
  failOnError := some false

/-- The text of a new configuration file. -/
def initialText : String :=
  initial.toJson.pretty

end Config

end EntryReport
