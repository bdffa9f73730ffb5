import EntryReport.Glob.Basic

/-!
# Reading patterns

`Glob.read` reads a pattern: `?` is any byte, `*` any run of bytes, `[a-z]` and `[!a-z]` a set,
`{a,b}` a choice, which may be nested, and a backslash takes the next character as it is. `**` next
to slashes, or at an end, stands for directories; anywhere else it is two stars.

The tokens read so far are kept latest first, and so are the groups that are open.
-/

namespace EntryReport

namespace Glob

/-- What is wrong with a pattern. -/
inductive Problem where
  | unclosedSet
  | invalidRange (first last : Char)
  | unopenedGroup
  | unclosedGroup
  | danglingEscape
deriving DecidableEq, Repr

/-- The problem in words. -/
def Problem.text : Problem → String
  | .unclosedSet => "unclosed character class; missing ']'"
  | .invalidRange first last =>
    "invalid range; '" ++ String.singleton first ++ "' > '" ++ String.singleton last ++ "'"
  | .unopenedGroup =>
    "unopened alternate group; missing '\x7b' (maybe escape '\x7d' with '[\x7d]'?)"
  | .unclosedGroup =>
    "unclosed alternate group; missing '\x7d' (maybe escape '\x7b' with '[\x7b]'?)"
  | .danglingEscape => "dangling '\\'"

/-- The problem of a pattern in words. -/
def Problem.message (pattern : String) (p : Problem) : String :=
  "error parsing glob '" ++ pattern ++ "': " ++ p.text

/-! ## Sets -/

/-- The ranges with the character `c` as the end of the latest. -/
def extendRange (ranges : List (Char × Char)) (c : Char) : Except Problem (List (Char × Char)) :=
  match ranges with
  | [] => .ok [(c, c)]
  | (first, _) :: rest =>
    if c < first then .error (.invalidRange first c) else .ok ((first, c) :: rest)

/-- The ranges of a set, latest first, and what follows its closing bracket. `inRange` says that a
hyphen waits for the end of a range. A bracket or a hyphen that comes first stands for itself, and
so does a hyphen that comes last. -/
def readRanges (ranges : List (Char × Char)) (inRange : Bool) :
    List Char → Except Problem (List (Char × Char) × List Char)
  | [] => .error .unclosedSet
  | c :: cs =>
    if c = ']' && !ranges.isEmpty then
      .ok (if inRange then ('-', '-') :: ranges else ranges, cs)
    else if inRange then do readRanges (← extendRange ranges c) false cs
    else if c = '-' && !ranges.isEmpty then readRanges ranges true cs
    else readRanges ((c, c) :: ranges) false cs

/-- The set after an opening bracket, and what follows it. -/
def readSet (cs : List Char) : Except Problem (Token × List Char) := do
  let (negated, cs) := match cs with
    | '!' :: rest => (true, rest)
    | '^' :: rest => (true, rest)
    | _ => (false, cs)
  let (ranges, rest) ← readRanges [] false cs
  return (.set negated ranges.reverse, rest)

/-! ## Tokens -/

/-- A group that is open: the tokens before it and its finished patterns, latest first. -/
structure Group where
  before : List Token
  finished : List (List Token)

/-- The tokens of the pattern that is being read, latest first, and the open groups. -/
structure Reading where
  tokens : List Token := []
  groups : List Group := []

/-- One more token. -/
def Reading.push (r : Reading) (t : Token) : Reading :=
  { r with tokens := t :: r.tokens }

/-- Directories in place of the token before them, which is the slash, as a rule. -/
def Reading.pushTree (r : Reading) (t : Token) : Reading :=
  match r.tokens with
  | .treeStart :: _ => r
  | .treeEnd :: _ => r
  | _ :: before => { r with tokens := t :: before }
  | [] => r.push t

/-- A closing brace ends the innermost group. -/
def Reading.closeGroup (r : Reading) : Except Problem Reading :=
  match r.groups with
  | [] => .error .unopenedGroup
  | g :: groups =>
    .ok ⟨.oneOf (r.tokens.reverse :: g.finished).reverse :: g.before, groups⟩

/-- A comma ends a pattern of the innermost group. -/
def Reading.comma (r : Reading) : Reading :=
  match r.groups with
  | [] => r.push (.literal ',')
  | g :: groups => ⟨[], { g with finished := r.tokens.reverse :: g.finished } :: groups⟩

/-- Two stars after the character `prev`, and what follows them. -/
def Reading.twoStars (r : Reading) (prev : Option Char) (cs : List Char) :
    Reading × Option Char × List Char :=
  let stars := (r.push .anyRun).push .anyRun
  let inGroup := !r.groups.isEmpty
  if r.tokens.isEmpty then
    match cs with
    | [] => (r.push .treeStart, some '*', [])
    | '/' :: rest => (r.push .treeStart, some '/', rest)
    | _ => (stars, some '*', cs)
  else if prev ≠ some '/' && !(inGroup && (prev = some ',' || prev = some '\x7b')) then
    (stars, some '*', cs)
  else
    match cs with
    | [] => (r.pushTree .treeEnd, some '*', [])
    | '/' :: rest => (r.pushTree .treeInside, some '/', rest)
    | c :: _ =>
      if inGroup && (c = ',' || c = '\x7d') then (r.pushTree .treeEnd, some '*', cs)
      else (stars, some '*', cs)

/-- Reads on after the character `prev`, at most `limit` tokens. -/
def readFrom : (limit : Nat) → Reading → Option Char → List Char → Except Problem Reading
  | 0, r, _, _ => .ok r
  | _ + 1, r, _, [] => .ok r
  | limit + 1, r, prev, c :: cs =>
    if c = '?' then readFrom limit (r.push .anyByte) (some c) cs
    else if c = '*' then
      match cs with
      | '*' :: rest =>
        let (r, prev, rest) := r.twoStars prev rest
        readFrom limit r prev rest
      | _ => readFrom limit (r.push .anyRun) (some c) cs
    else if c = '[' then do
      let (t, rest) ← readSet cs
      readFrom limit (r.push t) (some ']') rest
    else if c = '\x7b' then
      readFrom limit ⟨[], ⟨r.tokens, []⟩ :: r.groups⟩ (some c) cs
    else if c = '\x7d' then do readFrom limit (← r.closeGroup) (some c) cs
    else if c = ',' then readFrom limit r.comma (some c) cs
    else if c = '\\' then
      match cs with
      | [] => .error .danglingEscape
      | e :: rest => readFrom limit (r.push (.literal e)) (some e) rest
    else readFrom limit (r.push (.literal c)) (some c) cs

/-- The pattern in a text. -/
def read (pattern : String) : Except Problem Glob := do
  let cs := pattern.toList
  let r ← readFrom cs.length {} none cs
  if r.groups.isEmpty then .ok ⟨r.tokens.reverse⟩ else .error .unclosedGroup

end Glob

end EntryReport
