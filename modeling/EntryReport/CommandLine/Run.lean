import EntryReport.CommandLine.Arguments
import EntryReport.CommandLine.Outcome
import EntryReport.Load
import EntryReport.Report.Data
import EntryReport.Report.Page

/-!
# Running a command

`run` carries out a command on a file system. For a report it finds the configuration, loads the
entries, builds the tree, brings the state of the display about that is asked for, and writes the
view: as a page into a file, as JSON, as text for a terminal or as nothing but the counts. Each
step may fail; what was left out before is still told.

`init` writes a configuration file where there is none.
-/

namespace EntryReport.CommandLine

open Files (FileSystem)

/-- What a run is told about its surroundings: whether to print in colour, and the time. -/
structure Surroundings where
  colors : Bool
  now : Timestamp
deriving DecidableEq, Repr

/-- The text about the version. -/
def versionText : String := "treedoc 0.3.1\n"

/-- The text about the arguments: the lines on its usage alone. What the program says about each
option is left out. -/
def helpText : String :=
  String.join
    ["Usage: treedoc [OPTIONS] [PATH]\n",
      "       treedoc init [--dir DIR]\n"]

/-! ## Settings -/

/-- Where the search for a configuration begins: the directory of a file, or the path itself. -/
def workDirectory (fs : FileSystem) (path : String) : String :=
  let directory :=
    if fs.isFile path then
      match Files.Path.parent? path with
      | none | some "" => "."
      | some parent => parent
    else path
  fs.canonical directory

/-- The configuration and the ignored files for a report on a path. -/
def Request.settings (r : Request) (fs : FileSystem) (path : String) :
    Except Failure (Config × IgnoreSet) := do
  let config ← Config.load fs (workDirectory fs path) r.config
  let config := config.withFlags (r.isSet .expandAll) (r.isSet .failOnError)
  return (config, ← IgnoreSet.ofPatterns config.ignore)

/-- The files that a report on a path reads its entries from. -/
def Request.inputs (r : Request) (fs : FileSystem) (path : String) : Except Failure (List String) :=
  if fs.isFile path then .ok [path]
  else do
    let (_, ignore) ← r.settings fs path
    return entryFiles fs path ignore

/-! ## The state of the display -/

/-- The state of an attempt that has to succeed. -/
def succeeding {α : Type} : UiState × Except TreeError α → Except TreeError (UiState × α)
  | (s, .ok a) => .ok (s, a)
  | (_, .error err) => .error err

/-- The state with the folders along each path expanded. -/
def expandPaths (t : Tree) (s : UiState) : List String → Except TreeError UiState
  | [] => .ok s
  | path :: paths => do
    let (s, _) ← succeeding (s.expandPath t path)
    expandPaths t s paths

/-- The state with the item at a path selected and displayed. -/
def selectAndReveal (t : Tree) (s : UiState) : Option String → Except TreeError UiState
  | none => .ok s
  | some path => do
    let (s, item) ← succeeding (s.selectPath t path)
    let (s, _) ← succeeding (s.reveal t item)
    return s

/-- The criteria that are asked for. -/
def Request.criteria (r : Request) : Criteria :=
  .new (r.isSet .warnings) (r.isSet .errors) (r.search.getD "")

/-- The state that is asked for. -/
def Request.uiState (r : Request) (config : Config) (t : Tree) : Except TreeError UiState := do
  let s := if config.expandAll.getD false then UiState.new.expandAll t else .new
  let s ← expandPaths t s r.expand
  let s ← selectAndReveal t s r.select
  return s.setCriteria r.criteria

/-! ## Writing -/

/-- Messages that are not wanted by those who want it quiet. -/
def Request.unlessQuiet (r : Request) (messages : List Message) : List Message :=
  if r.isSet .quiet then [] else messages

/-- The messages about what is left out. -/
def Request.warnings (r : Request) (skipped : List Skipped) : List Message :=
  r.unlessQuiet (skipped.map Message.ofSkipped)

/-- The files with the page that is asked for, and what to tell about it. -/
def Request.writePage (r : Request) (fs : FileSystem) (now : Timestamp) (title : String)
    (v : View) : Except Failure (FileSystem × List Message) :=
  match r.html with
  | none => .ok (fs, [])
  | some path =>
    match fs.writeText path (Page.report title v) now with
    | .ok fs => .ok (fs, r.unlessQuiet [⟨.info, "Wrote " ++ path⟩])
    | .error cause => .error (.unwritableReport path cause)

/-- What is printed about a view. -/
def Request.output (r : Request) (colors : Bool) (title : String) (v : View) : String :=
  if r.isSet .json then Data.report true (some title) v ++ "\n"
  else if r.isSet .quiet || r.html.isSome then Console.quietText colors v
  else Console.text colors (r.isSet .verbose) v

/-- The exit code of a report that was written. -/
def exitCode (config : Config) (v : View) : Nat :=
  if config.failOnError.getD false && 0 < v.summary.errors then Outcome.errorsFound
  else Outcome.success

/-! ## Runs -/

/-- The report on entries that were loaded. -/
def reportOn (fs : FileSystem) (env : Surroundings) (r : Request) (config : Config)
    (loaded : Loaded) : Outcome :=
  let (tree, skipped) := Tree.build config.rootText loaded.entries
  let warnings := r.warnings (loaded.skipped ++ skipped)
  match r.uiState config tree with
  | .error err => .failed fs warnings (.badTree err)
  | .ok state =>
    let view := View.render tree state config.renderOptions
    let title := (config.title.or loaded.title).getD Page.defaultTitle
    match r.writePage fs env.now title view with
    | .error err => .failed fs warnings err
    | .ok (fs, notes) =>
      { exitCode := exitCode config view
        output := r.output env.colors title view
        messages := warnings ++ notes
        files := fs }

/-- The report on the entries at a path. -/
def report (fs : FileSystem) (env : Surroundings) (r : Request) (path : String) : Outcome :=
  let loading : Except Failure (Config × Loaded) := do
    let (config, ignore) ← r.settings fs path
    return (config, ← Loaded.load fs path ignore)
  match loading with
  | .error err => .failed fs [] err
  | .ok (config, loaded) =>
    if loaded.entries.isEmpty then
      { exitCode := Outcome.noReport
        output := ""
        messages :=
          r.warnings loaded.skipped ++ [⟨.warning, "No entries found in " ++ path⟩]
        files := fs }
    else reportOn fs env r config loaded

/-- A new configuration file in a directory, or in the working directory. -/
def init (fs : FileSystem) (env : Surroundings) (directory : Option String) : Outcome :=
  let path :=
    Files.Path.join (directory.getD (FileSystem.pathOf fs.workingDirectory)) Config.fileName
  let done (message : Message) (fs : FileSystem) : Outcome :=
    ⟨Outcome.success, "", [message], fs⟩
  if fs.exists? path then
    done ⟨.warning,
      path ++ " already exists; use --dir to write elsewhere or remove it first"⟩ fs
  else
    match fs.writeText path Config.initialText env.now with
    | .ok fs => done ⟨.info, "Created " ++ path⟩ fs
    | .error cause => .failed fs [] (.unwritableConfig path cause)

/-- Carries out a command. -/
def run (fs : FileSystem) (env : Surroundings) : Command → Outcome
  | .report r =>
    match r.path with
    | none => .failed fs [] .missingPath
    | some path => report fs env r path
  | .init directory => init fs env directory
  | .version => ⟨Outcome.success, versionText, [], fs⟩
  | .help => ⟨Outcome.success, helpText, [], fs⟩

end EntryReport.CommandLine
