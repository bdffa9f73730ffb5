import EntryReport.CommandLine.Rejection
import EntryReport.Text.Similarity

/-!
# The arguments of the command line

`Command.read` says what a list of arguments asks for: a report, a new configuration file, or a
text about the program; or else why it cannot be read.

An argument is a `Word`: `--name` or `--name=value`, letters behind one dash, or plain; after `--`
all are plain. A `Reading` collects the parameters that were `Given`, each with its values.

An option with its value in the next argument, and the path, wait until something else comes: only
then it shows that one is given twice or lacks its value. If what comes is a mistake itself, it is
that mistake which is told. A question about the program ends the reading; what stands behind it is
not looked at.
-/

namespace EntryReport.CommandLine

/-- What a report is asked for. -/
structure Request where
  path : Option String := none
  switches : List Switch := []
  html : Option String := none
  search : Option String := none
  select : Option String := none
  expand : List String := []
  config : Option String := none
deriving DecidableEq, Repr

/-- The switch is set. -/
def Request.isSet (r : Request) (s : Switch) : Bool :=
  r.switches.contains s

/-- What the program is asked for. -/
inductive Command where
  | report (request : Request)
  | init (directory : Option String)
  | version
  | help
deriving DecidableEq, Repr

/-! ## Words -/

/-- How an argument is written. -/
inductive Word where
  | noMoreOptions
  | option (name : String) (value : Option String)
  | letters (letters : List Char)
  | plain (text : String)
deriving DecidableEq, Repr

/-- The word of an argument. -/
def Word.ofArgument (argument : String) : Word :=
  match argument.toList with
  | ['-', '-'] => .noMoreOptions
  | '-' :: '-' :: cs =>
    let name := String.ofList (cs.takeWhile (· ≠ '='))
    match cs.dropWhile (· ≠ '=') with
    | _ :: value => .option name (some (.ofList value))
    | [] => .option name none
  | '-' :: c :: cs => .letters (c :: cs)
  | _ => .plain argument

/-! ## Parameters that were given -/

/-- The parameters that were given, with their values. -/
abbrev Given := List (Parameter × List String)

namespace Given

/-- The parameter was given. -/
def has (g : Given) (p : Parameter) : Bool := g.any (·.1 = p)

/-- The values of a parameter. -/
def values (g : Given) (p : Parameter) : List String :=
  ((g.find? (·.1 = p)).map (·.2)).getD []

/-- The parameters with one value more, or with one parameter more. -/
def add (g : Given) (p : Parameter) (values : List String) : Given :=
  if g.has p then g.map fun (q, old) => (q, if q = p then old ++ values else old)
  else g ++ [(p, values)]

/-- The parameters with one more and its value, if it has one; or else the mistake and what stays:
of a parameter that is given twice nothing, of an empty path the parameter. -/
def put (g : Given) (p : Parameter) (value : Option String) : Except (Given × Mistake) Given :=
  if g.has p && !p.isRepeatable then .error (g.filter (·.1 ≠ p), .repeated p)
  else if p.isFilePath && value = some "" then .error (g.add p [], .missingValue p)
  else .ok (g.add p value.toList)

/-- The request that the parameters make. -/
def request (g : Given) : Request where
  path := (g.values .path).head?
  switches := g.filterMap fun
    | (.switch s, _) => some s
    | _ => none
  html := (g.values (.setting .html)).head?
  search := (g.values (.setting .search)).head?
  select := (g.values (.setting .select)).head?
  expand := g.values (.setting .expand)
  config := (g.values (.setting .config)).head?

end Given

/-! ## Reading -/

/-- What was read so far. -/
structure Reading where
  given : Given := []
  /-- The parameter whose value comes next, or came last. -/
  waiting : Option (Parameter × Option String) := none

/-- What comes of an argument: reading goes on, or ends with a command. -/
inductive Next where
  | go (r : Reading)
  | stop (c : Command)

namespace Reading

/-- The parameters with the one that was waiting, or else its mistake and what stays. -/
def settle (r : Reading) : Except (Given × Mistake) Given :=
  match r.waiting with
  | none => .ok r.given
  | some (p, none) => .error (r.given, .missingValue p)
  | some (p, value) => r.given.put p value

/-- The parameters with the one that was waiting, or what stays if that is a mistake. -/
def settled (r : Reading) : Given :=
  match r.settle with
  | .ok given => given
  | .error (given, _) => given

/-- The path was given. -/
def hasPath (r : Reading) : Bool :=
  r.given.has .path || (r.waiting.map (·.1)) = some .path

end Reading

/-- The mistake with what is told about it. -/
def Mistake.reject (scope : Scope) (mistake : Mistake) : Rejection :=
  match mistake with
  | .missingValue _ => { scope, mistake, usage := none }
  | _ => { scope, mistake }

namespace Scope

variable (scope : Scope)

/-- The result without what stays after a mistake. -/
def checked (result : Except (Given × Mistake) Given) : Except Rejection Given :=
  result.mapError fun (_, mistake) => mistake.reject scope

/-- The reading with one parameter more and its value. -/
def put (given : Given) (p : Parameter) (value : Option String) : Except Rejection Next := do
  return .go { given := ← scope.checked (given.put p value) }

/-- An option that needs no value. -/
def takeSwitch (r : Reading) (p : Parameter) : Except Rejection Next := do
  let given ← scope.checked r.settle
  match p with
  | .help => return .stop .help
  | .version => return .stop .version
  | p => scope.put given p none

/-- The usage after certain parameters. -/
def usageOf (parameters : List Parameter) : Usage :=
  if parameters.isEmpty then .general else .naming parameters

/-- The rejection of an option with a name that is not known, in front of other arguments. -/
def unknownOption (given : Given) (name : String) (rest : List String) : Rejection :=
  let parameters := given.map (·.1)
  let mistake : Mistake := .unexpected ("--" ++ name)
  match (Text.mostSimilar? name (scope.options.map (·.name))).bind scope.option? with
  | some p =>
    let parameters := if p ∈ parameters then parameters else parameters ++ [p]
    { scope, mistake, tip := some (.similar p), usage := some (usageOf parameters) }
  | none =>
    let elsewhere := scope.commands.findSome? fun (command, other) =>
      if command ∈ rest then
        (Text.mostSimilar? name (other.options.map (·.name))).map (Tip.elsewhere command)
      else none
    let plain := if scope.takesPath then some (Tip.plain ("--" ++ name)) else none
    { scope, mistake, tip := elsewhere.or plain, usage := some (usageOf parameters) }

/-- The rejection of a value that an option does not take. -/
def unneededValue (given : Given) (p : Parameter) (value : String) : Rejection :=
  let usage : Usage :=
    if given.isEmpty then .naming [p]
    else .choosing (if p ∈ scope.parameters then [] else [p])
  { scope, mistake := .unneededValue value p, usage := some usage }

/-- An option behind two dashes, in front of other arguments. -/
def takeOption (r : Reading) (name : String) (value : Option String) (rest : List String) :
    Except Rejection Next :=
  match scope.option? name with
  | none => .error (scope.unknownOption r.settled name rest)
  | some p =>
    match p.valueName?, value with
    | none, none => scope.takeSwitch r p
    | none, some value => .error (scope.unneededValue r.given p value)
    | some _, none => do return .go ⟨← scope.checked r.settle, some (p, none)⟩
    | some _, some value => do scope.put (← scope.checked r.settle) p (some value)

/-- Letters behind one dash; none of them takes a value. -/
def takeLetters (r : Reading) : List Char → Except Rejection Next
  | [] => .ok (.go r)
  | c :: cs =>
    match scope.optionOf? c with
    | none =>
      let argument := String.ofList ['-', c]
      let tip := if scope.takesPath then some (Tip.plain argument) else none
      .error { scope, mistake := .unexpected argument, tip }
    | some p => do
      match ← scope.takeSwitch r p with
      | .go r => takeLetters r cs
      | .stop command => return .stop command

/-- The rejection of an argument that nothing is left for. Where there are commands, it is taken
for the name of one, which has to stand in front. -/
def unexpected (r : Reading) (text : String) : Rejection :=
  if scope.commands.isEmpty then { scope, mistake := .unexpected text }
  else { scope, mistake := .lateCommand text (r.settled.map (·.1)) }

/-- An argument that stands for the path. -/
def takePath (r : Reading) (text : String) : Except Rejection Reading :=
  if scope.takesPath && !r.hasPath then do
    return ⟨← scope.checked r.settle, some (.path, some text)⟩
  else .error (scope.unexpected r text)

/-- A plain argument: a value that comes next, or else the path. -/
def takePlain (r : Reading) (text : String) : Except Rejection Reading :=
  match r.waiting with
  | some (p, none) => .ok { r with waiting := some (p, some text) }
  | _ => scope.takePath r text

/-- What the parameters ask for. -/
def command (given : Given) : Command :=
  match scope with
  | .report => .report given.request
  | .init => .init (given.values (.setting .directory)).head?
  | .help => .help

/-- What was read at the end of the arguments. -/
def finish (r : Reading) : Except Rejection Command := do
  return scope.command (← scope.checked r.settle)

/-- Reads arguments of a command. -/
def read (r : Reading) : List String → Except Rejection Command
  | [] => scope.finish r
  | argument :: rest =>
    match Word.ofArgument argument with
    | .noMoreOptions => do scope.finish (← rest.foldlM scope.takePath r)
    | .plain text => do read (← scope.takePlain r text) rest
    | .option name value => do
      match ← scope.takeOption r name value rest with
      | .go r => read r rest
      | .stop command => return command
    | .letters letters => do
      match ← scope.takeLetters r letters with
      | .go r => read r rest
      | .stop command => return command

/-- Reads the names of commands that help is asked on. -/
def readHelp (scope : Scope) : List String → Except Rejection Command
  | [] => .ok .help
  | name :: names =>
    match scope.commands.lookup name with
    | some below => below.readHelp names
    | none => .error { scope, mistake := .unknownCommand name }

end Scope

/-- What arguments ask for. The name of a command stands in front. -/
def Command.read : List String → Except Rejection Command
  | "init" :: args => Scope.init.read {} args
  | "help" :: names => Scope.report.readHelp names
  | args => Scope.report.read {} args

end EntryReport.CommandLine
