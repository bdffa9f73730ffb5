import EntryReport.Files.FileSystem
import EntryReport.Glob.Reading
import EntryReport.Json.Fault
import EntryReport.Tree.Basic

/-!
# Why a report cannot be made

`Failure` collects what can go wrong between the command line and a report. A failure has a
context and, where another error lies behind it, a cause; `Failure.message` puts a colon between
them.
-/

namespace EntryReport

/-- The documents that are read. -/
inductive DocumentKind where
  | config
  | manifest
  | entry
deriving DecidableEq, Repr

/-- The name of a kind of document. -/
def DocumentKind.name : DocumentKind → String
  | .config => "config"
  | .manifest => "manifest"
  | .entry => "entry"

/-- Why a report cannot be made. -/
inductive Failure where
  | unreadable (kind : DocumentKind) (path : String) (cause : Files.FileError)
  | invalid (kind : DocumentKind) (path : String) (cause : TextFault)
  | configNotFound (path : String)
  | circularConfig (path : String)
  | baseNotFound (path origin : String)
  | badPattern (pattern : String) (cause : Glob.Problem)
  | deepPattern (expression : Option String) (position : Nat)
  | pathNotFound (path : String)
  | missingPath
  | badTree (cause : TreeError)
  | unwritableReport (path : String) (cause : Files.FileError)
  | unwritableConfig (path : String) (cause : Files.FileError)
deriving DecidableEq, Repr

namespace Failure

/-- What was being done, or what is wrong. -/
def context : Failure → String
  | unreadable kind path _ => "Failed to read " ++ kind.name ++ ": " ++ path
  | invalid kind path _ => "Invalid JSON in " ++ kind.name ++ ": " ++ path
  | configNotFound path => "Config file not found: " ++ path
  | circularConfig path => "Circular extends detected in config: " ++ path
  | baseNotFound path origin =>
    "Extended config not found: " ++ path ++ " (referenced from " ++ origin ++ ")"
  | badPattern pattern _ => "Invalid ignore pattern: " ++ pattern
  | deepPattern none position => "error parsing pattern " ++ toString position
  | deepPattern (some expression) _ => "error parsing glob '" ++ expression ++ "'"
  | pathNotFound path => "Path does not exist: " ++ path
  | missingPath => "missing input path: pass a manifest file or an entry directory"
  | badTree cause => cause.message
  | unwritableReport path _ => "Failed to write report: " ++ path
  | unwritableConfig path _ => "Failed to write " ++ path

/-- The error behind the failure. -/
def cause? : Failure → Option String
  | unreadable _ _ cause => some cause.message
  | invalid _ _ cause => some cause.message
  | badPattern pattern cause => some (cause.message pattern)
  | deepPattern (some _) position => some ("error parsing pattern " ++ toString position)
  | unwritableReport _ cause => some cause.message
  | unwritableConfig _ cause => some cause.message
  | _ => none

/-- The failure in words. -/
def message (f : Failure) : String :=
  match f.cause? with
  | some cause => f.context ++ ": " ++ cause
  | none => f.context

end Failure

end EntryReport
