import EntryReport.CommandLine.Parameter

/-!
# Rejected arguments

A `Rejection` says why arguments cannot be read: the `Mistake`, a `Tip` what may be meant, and a
`Usage` that reminds of how the command is called. `Rejection.text` puts it into words, with or
without colours.

The usage of a command in general lists its parameters; one that comes from certain parameters
names these, or else all of the command as alternatives.
-/

namespace EntryReport.CommandLine

/-- What is wrong with the arguments. -/
inductive Mistake where
  | unexpected (argument : String)
  | unneededValue (value : String) (parameter : Parameter)
  | missingValue (parameter : Parameter)
  | repeated (parameter : Parameter)
  | unknownCommand (name : String)
  | lateCommand (name : String) (given : List Parameter)
deriving DecidableEq, Repr

/-- What may be meant. -/
inductive Tip where
  | similar (option : Parameter)
  | elsewhere (command option : String)
  | plain (argument : String)
deriving DecidableEq, Repr

/-- How the command is called. -/
inductive Usage where
  | general
  | naming (parameters : List Parameter)
  | choosing (others : List Parameter)
deriving DecidableEq, Repr

/-- Why arguments cannot be read as those of a command. -/
structure Rejection where
  scope : Scope
  mistake : Mistake
  tip : Option Tip := none
  usage : Option Usage := some .general
deriving DecidableEq, Repr

/-! ## Phrases -/

/-- The look of a phrase. -/
inductive Emphasis where
  | none
  | literal
  | heading
  | alarm
  | wrong
  | right
deriving DecidableEq, Repr

/-- The numbers of the codes that begin a look. -/
def Emphasis.codes : Emphasis → List String
  | .none => []
  | .literal => ["1"]
  | .heading => ["1", "4"]
  | .alarm => ["1", "31"]
  | .wrong => ["33"]
  | .right => ["32"]

/-- A part of a line in one look. -/
structure Phrase where
  emphasis : Emphasis
  text : String
deriving DecidableEq, Repr

/-- A text without a look. -/
def unmarked (s : String) : Phrase := ⟨.none, s⟩

/-- The phrase with or without colours. -/
def Phrase.render (colors : Bool) (p : Phrase) : String :=
  if colors && p.emphasis ≠ .none then
    String.join (p.emphasis.codes.map fun code => "\x1b[" ++ code ++ "m") ++ p.text ++ "\x1b[0m"
  else p.text

/-- A phrase between quotation marks. -/
def quoted (emphasis : Emphasis) (s : String) : List Phrase :=
  [unmarked "'", ⟨emphasis, s⟩, unmarked "'"]

/-! ## Parameters -/

/-- What follows the name of an option that has a value. -/
def Parameter.valueText (p : Parameter) : String :=
  match p.valueName? with
  | some value => " <" ++ value ++ ">"
  | none => ""

/-- The parameter as it is written. -/
def Parameter.label (p : Parameter) : String :=
  if p = .path then "[" ++ p.name ++ "]" else "--" ++ p.name ++ p.valueText

/-- The option in a usage. -/
def Parameter.optionPhrases (p : Parameter) : List Phrase :=
  [unmarked " ", ⟨.literal, "--" ++ p.name⟩, unmarked p.valueText]

/-- The alternatives of a command in one word. -/
def Scope.alternatives (scope : Scope) : String :=
  let labels := scope.parameters.map fun p => if p = .path then p.name else p.label
  "<" ++ "|".intercalate labels ++ ">"

/-! ## Usage -/

/-- How the command is called in general. -/
def Scope.generalUsage : Scope → List (List Phrase)
  | .report =>
    [[⟨.literal, Scope.report.title⟩, unmarked " [OPTIONS] [PATH]"],
      [unmarked "       ", ⟨.literal, Scope.report.title⟩, unmarked " <COMMAND>"]]
  | .init => [[⟨.literal, Scope.init.title⟩, unmarked " [OPTIONS]"]]
  | .help => [[⟨.literal, Scope.help.title⟩, unmarked " [COMMAND]..."]]

/-- The path in a usage that names it, or that does not. -/
def Scope.pathPhrases (scope : Scope) (named : Bool) : List Phrase :=
  if !scope.takesPath then []
  else [unmarked (if named then " <PATH>" else " [PATH]")]

/-- The lines of a usage. -/
def Usage.lines (scope : Scope) : Usage → List (List Phrase)
  | .general => scope.generalUsage
  | .naming parameters =>
    [⟨.literal, scope.title⟩ ::
      (((parameters.filter (· ≠ .path)).flatMap Parameter.optionPhrases) ++
        scope.pathPhrases (parameters.contains .path))]
  | .choosing others =>
    [⟨.literal, scope.title⟩ ::
      (others.flatMap Parameter.optionPhrases ++ [unmarked (" " ++ scope.alternatives)])]

/-- The lines with the heading in front. -/
def withHeading : List (List Phrase) → List (List Phrase)
  | [] => []
  | line :: lines => (⟨.heading, "Usage:"⟩ :: unmarked " " :: line) :: lines

/-! ## Wording -/

/-- The parameters that something goes not with: one in the same line, or a line for each. -/
def besides : List Parameter → List Phrase × List (List Phrase)
  | [p] => (unmarked " " :: quoted .wrong p.label, [])
  | ps => ([unmarked ":"], ps.map fun p => [unmarked "  ", ⟨.wrong, p.label⟩])

/-- The mistake in words: a line, and lines that belong to it. -/
def Mistake.phrases : Mistake → List Phrase × List (List Phrase)
  | .unexpected argument =>
    (unmarked "unexpected argument " :: quoted .wrong argument ++ [unmarked " found"], [])
  | .unneededValue value p =>
    (unmarked "unexpected value " :: quoted .wrong value ++
      unmarked " for " :: quoted .literal p.label ++
      [unmarked " found; no more were expected"], [])
  | .missingValue p =>
    (unmarked "a value is required for " :: quoted .wrong p.label ++
      [unmarked " but none was supplied"], [])
  | .repeated p =>
    (unmarked "the argument " :: quoted .wrong p.label ++
      [unmarked " cannot be used multiple times"], [])
  | .unknownCommand name => (unmarked "unrecognized subcommand " :: quoted .wrong name, [])
  | .lateCommand name given =>
    let (rest, more) := besides given
    (unmarked "the subcommand " :: quoted .wrong name ++ unmarked " cannot be used with" :: rest,
      more)

/-- The tip in words. -/
def Tip.phrases : Tip → List Phrase
  | .similar option =>
    unmarked "a similar argument exists: " :: quoted .right ("--" ++ option.name)
  | .elsewhere command option =>
    quoted .right (command ++ " --" ++ option) ++ [unmarked " exists"]
  | .plain argument =>
    unmarked "to pass " :: quoted .wrong argument ++
      unmarked " as a value, use " :: quoted .right ("-- " ++ argument)

/-- Where to look for more. A command that answers no questions has no such place. -/
def Scope.furtherHelp (scope : Scope) : List (List Phrase) :=
  if scope.questions.contains .help then
    [[], unmarked "For more information, try " :: quoted .literal "--help" ++ [unmarked "."]]
  else []

namespace Rejection

/-- The rejection as lines. -/
def lines (r : Rejection) : List (List Phrase) :=
  let tip :=
    match r.tip with
    | some tip => [[], unmarked "  " :: ⟨.right, "tip:"⟩ :: unmarked " " :: tip.phrases]
    | none => []
  let usage :=
    match r.usage with
    | some usage => [] :: withHeading (usage.lines r.scope)
    | none => []
  let (mistake, more) := r.mistake.phrases
  [⟨.alarm, "error:"⟩ :: unmarked " " :: mistake] ++ more ++ tip ++ usage ++ r.scope.furtherHelp

/-- The rejection in words, each line with its end. -/
def text (colors : Bool) (r : Rejection) : String :=
  String.join (r.lines.map fun line => String.join (line.map (Phrase.render colors)) ++ "\n")

end Rejection

end EntryReport.CommandLine
