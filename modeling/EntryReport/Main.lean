import EntryReport.CommandLine.Run
import EntryReport.Fingerprint

/-!
# The program

`main` brings the files that a command may look at into a file system, runs the command there, and
carries what came of it back: the files that changed, the output, the messages and the exit code.
-/

namespace EntryReport

open CommandLine
open Files

namespace Program

/-! ## Bringing files in -/

/-- The file system with what stands at a location. -/
def bringIn (fs : FileSystem) (loc : Location) : IO FileSystem := do
  if (fs.node? loc).isSome then return fs
  try
    let path ← IO.FS.realPath (FileSystem.pathOf loc)
    let data ← path.metadata
    match data.type with
    | .dir => return fs.put loc .directory
    | .file =>
      let content ← IO.FS.readBinFile path
      let modified : Timestamp := ⟨data.modified.sec, data.modified.nsec.toNat⟩
      return fs.put loc (.file content.data.toList modified)
    | _ => return fs
  catch _ => return fs

/-- The file system with what stands along parts of a path. -/
def bringInParts (fs : FileSystem) (loc : Location) : List (List Char) → IO FileSystem
  | [] => return fs
  | part :: parts =>
    match fs.enter loc part with
    | .error _ => return fs
    | .ok loc => do bringInParts (← bringIn fs loc) loc parts

/-- The file system with what stands along a path. -/
def bringInPath (fs : FileSystem) (path : String) : IO FileSystem :=
  bringInParts fs (fs.start path) (Text.slashParts path.toList)

/-- The file system with everything at and below a location. -/
partial def bringInBelow (fs : FileSystem) (loc : Location) : IO FileSystem := do
  let mut fs ← bringIn fs loc
  if fs.isDirectoryAt loc then
    for entry in ← (← IO.FS.realPath (FileSystem.pathOf loc)).readDir do
      fs ← bringInBelow fs (loc ++ [entry.fileName])
  return fs

/-- The file system with the configurations that a report needs, brought in as they are missed. -/
partial def bringInBases (fs : FileSystem) (r : Request) (path : String) : IO FileSystem := do
  match r.settings fs path with
  | .error (.configNotFound missing) | .error (.baseNotFound missing _) =>
    let more ← bringInPath fs missing
    if more.nodes.length = fs.nodes.length then return fs else bringInBases more r path
  | _ => return fs

/-- The file system with the configuration files in a directory and in those above it. -/
def bringInConfigs (fs : FileSystem) (directory : String) : IO FileSystem :=
  (Path.ancestors directory).foldlM
    (fun fs above => bringInPath fs (Path.join above Config.fileName)) fs

/-- The files that a command may look at. -/
def filesFor (fs : FileSystem) : Command → IO FileSystem
  | .report r => do
    let mut fs := fs
    if let some path := r.path then
      fs ← bringInPath fs path
      if let some loc := fs.locate? path then
        fs ← bringInBelow fs loc
      fs ← bringInConfigs fs (workDirectory fs path)
      fs ← bringInBases fs r path
    if let some path := r.html then
      fs ← bringInPath fs path
    return fs
  | .init directory =>
    bringInPath fs (Path.join (directory.getD ".") Config.fileName)
  | _ => return fs

/-- The working directory and the directories above it. -/
def emptyFiles : IO FileSystem := do
  let directory ← IO.currentDir
  let loc := directory.toString.splitOn "/" |>.filter (· ≠ "")
  return { nodes := [], workingDirectory := loc : FileSystem }.makeDirectories loc

/-! ## Carrying results back -/

/-- Whether to print in colour: as it is asked for, or else if a person reads the output. -/
def colors : IO Bool := do
  let isOn (value : Option String) := value.any (· ≠ "0")
  if isOn (← IO.getEnv "CLICOLOR_FORCE") then return true
  if (← IO.getEnv "NO_COLOR").isSome then return false
  return (← (← IO.getStdout).isTty) && ((← IO.getEnv "CLICOLOR").all (· ≠ "0"))

/-- Writes, prints and tells what a run leaves behind. -/
def carryOut (before : FileSystem) (colors : Bool) (o : Outcome) : IO UInt32 := do
  for (loc, content) in before.changes o.files do
    IO.FS.writeBinFile (FileSystem.pathOf loc) ⟨content.toArray⟩
  IO.eprint (o.messageText colors)
  IO.print o.output
  return UInt32.ofNat o.exitCode

/-- Runs a command once. -/
def once (colors : Bool) (command : Command) : IO UInt32 := do
  let fs ← filesFor (← emptyFiles) command
  carryOut fs colors (run fs ⟨colors, ⟨0, 0⟩⟩ command)

/-- Makes a report again whenever its input has changed. -/
partial def watch (colors : Bool) (r : Request) (path : String) (d : ChangeDetector) :
    IO UInt32 := do
  let fs ← filesFor (← emptyFiles) (.report r)
  let (d, changed) := d.check fs ((r.inputs fs path).toOption.getD [])
  if changed then
    let _ ← carryOut fs colors (report fs ⟨colors, ⟨0, 0⟩⟩ r path)
  IO.sleep 200
  watch colors r path d

/-- Runs the command that the arguments ask for. -/
def runArguments (args : List String) : IO UInt32 := do
  let colors ← colors
  match Command.read args with
  | .error rejection =>
    IO.eprint (rejection.text colors)
    return UInt32.ofNat Outcome.noReport
  | .ok (.report r) =>
    match r.path with
    | some path =>
      if r.isSet .watch then
        IO.eprintln "Watching for changes... (Ctrl+C to stop)"
        watch colors r path .new
      else once colors (.report r)
    | none => once colors (.report r)
  | .ok command => once colors command

end Program

end EntryReport

/-- The program. -/
def main (args : List String) : IO UInt32 :=
  EntryReport.Program.runArguments args
