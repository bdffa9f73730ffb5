import EntryReport.Failure
import EntryReport.Report.Console
import EntryReport.Tree.Build

/-!
# What a run leaves behind

An `Outcome` is the exit code of a run, what it prints and what it tells the user, and the files
after it. `Message`s are for the user and do not belong to the output.
-/

namespace EntryReport.CommandLine

open Console (Style)
open Files (FileSystem)

/-- How much a message matters. -/
inductive Severity where
  | info
  | warning
  | error
deriving DecidableEq, Repr

/-- The word in front of a message. -/
def Severity.label : Severity → Console.Segment
  | .info => ⟨.notice, "Info"⟩
  | .warning => ⟨.warning, "Warning"⟩
  | .error => ⟨.alarm, "Error"⟩

/-- A message to the user. -/
structure Message where
  severity : Severity
  text : String
deriving DecidableEq, Repr

/-- The message as a line. -/
def Message.line (m : Message) : Console.Line :=
  [m.severity.label, Console.plain (": " ++ m.text)]

/-- The message about something that is left out. -/
def Message.ofSkipped (s : Skipped) : Message :=
  ⟨.warning, "Skipped " ++ s.source ++ ": " ++ s.reason⟩

/-- What a run leaves behind. -/
structure Outcome where
  exitCode : Nat
  output : String
  messages : List Message
  files : FileSystem
deriving Repr

namespace Outcome

/-- Everything went well. -/
def success : Nat := 0

/-- The report was made, and an entry has an error. -/
def errorsFound : Nat := 1

/-- There is no report. -/
def noReport : Nat := 2

/-- A run that ends with a failure, after some messages. -/
def failed (fs : FileSystem) (before : List Message) (err : Failure) : Outcome where
  exitCode := noReport
  output := ""
  messages := before ++ [⟨.error, err.message⟩]
  files := fs

/-- The messages as text, with or without colours. -/
def messageText (o : Outcome) (colors : Bool) : String :=
  Console.linesText colors (o.messages.map Message.line)

end Outcome

end EntryReport.CommandLine
