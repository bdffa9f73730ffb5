/-!
# Parameters of the command line

A `Parameter` is what an argument can stand for: the path, an option without a value (`Switch`), an
option with one (`Setting`), or a question about the program. A `Scope` is a command with
parameters of its own: the report, the new configuration file, and the help on commands.

* `Scope.options`: the options of a command, in their order;
* `Parameter.name`, `Parameter.valueName?`, `Parameter.letter?`: how they are written.
-/

namespace EntryReport.CommandLine

/-- The options without a value. -/
inductive Switch where
  | json
  | warnings
  | errors
  | expandAll
  | failOnError
  | quiet
  | verbose
  | parallel
  | watch
deriving DecidableEq, Repr

/-- The options with a value. -/
inductive Setting where
  | html
  | search
  | select
  | expand
  | config
  | directory
deriving DecidableEq, Repr

/-- What an argument can stand for. -/
inductive Parameter where
  | path
  | switch (s : Switch)
  | setting (s : Setting)
  | help
  | version
deriving DecidableEq, Repr

/-- The name of a switch. -/
def Switch.name : Switch → String
  | .json => "json"
  | .warnings => "warn"
  | .errors => "err"
  | .expandAll => "expand-all"
  | .failOnError => "fail-on-error"
  | .quiet => "quiet"
  | .verbose => "verbose"
  | .parallel => "parallel"
  | .watch => "watch"

/-- The name of a setting. -/
def Setting.name : Setting → String
  | .html => "html"
  | .search => "search"
  | .select => "select"
  | .expand => "expand"
  | .config => "config"
  | .directory => "dir"

/-- The name of what a setting is set to. -/
def Setting.valueName : Setting → String
  | .html => "FILE"
  | .search => "TEXT"
  | .select => "PATH"
  | .expand => "PATH"
  | .config => "CONFIG"
  | .directory => "DIR"

namespace Parameter

/-- The name of a parameter; that of an option stands behind two dashes. -/
def name : Parameter → String
  | .path => "PATH"
  | .switch s => s.name
  | .setting s => s.name
  | .help => "help"
  | .version => "version"

/-- The name of the value of an option that has one. -/
def valueName? : Parameter → Option String
  | .setting s => some s.valueName
  | _ => none

/-- The letter of an option that stands behind a single dash. -/
def letter? : Parameter → Option Char
  | .switch .json => some 'j'
  | .switch .quiet => some 'q'
  | .switch .verbose => some 'v'
  | .help => some 'h'
  | .version => some 'V'
  | _ => none

/-- The parameter may be given more than once. -/
def isRepeatable (p : Parameter) : Bool := p = .setting .expand

/-- The value of the parameter is a path of a file or directory, which is never empty. -/
def isFilePath : Parameter → Bool
  | .path => true
  | .setting .html => true
  | .setting .config => true
  | .setting .directory => true
  | _ => false

end Parameter

/-- A command with parameters of its own. -/
inductive Scope where
  | report
  | init
  | help
deriving DecidableEq, Repr

namespace Scope

/-- How the command is called. -/
def title : Scope → String
  | .report => "treedoc"
  | .init => "treedoc init"
  | .help => "treedoc help"

/-- The parameters for what the command does, in their order. -/
def parameters : Scope → List Parameter
  | .report =>
    [.path, .setting .html, .switch .json, .switch .warnings, .switch .errors, .setting .search,
      .setting .select, .setting .expand, .switch .expandAll, .switch .failOnError,
      .setting .config, .switch .quiet, .switch .verbose, .switch .parallel, .switch .watch]
  | .init => [.setting .directory]
  | .help => []

/-- The questions that the command answers. -/
def questions : Scope → List Parameter
  | .report => [.help, .version]
  | .init => [.help]
  | .help => []

/-- The command takes a path. -/
def takesPath (scope : Scope) : Bool := scope.parameters.contains .path

/-- The options of the command, in their order. -/
def options (scope : Scope) : List Parameter :=
  scope.parameters.filter (· ≠ .path) ++ scope.questions

/-- The option of a name. -/
def option? (scope : Scope) (name : String) : Option Parameter :=
  scope.options.find? (·.name = name)

/-- The option of a letter. -/
def optionOf? (scope : Scope) (letter : Char) : Option Parameter :=
  scope.options.find? (·.letter? = some letter)

/-- The commands below a command, by their names. -/
def commands : Scope → List (String × Scope)
  | .report => [("init", .init), ("help", .help)]
  | _ => []

end Scope

end EntryReport.CommandLine
