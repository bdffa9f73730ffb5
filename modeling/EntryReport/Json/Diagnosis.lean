import EntryReport.Json.Problem

/-!
# Finding the place of a problem

`Problem.diagnose` finds in a text what a decoder objects to: the fault in words, and the position
at which it shows. The trail of the problem is followed from token to token (`tokenOf`); where the
text is malformed the `Breach` at that place says how.

A fault shows after a scalar, in front of an array or object, and after the end of an object or
array that lacks something.
-/

namespace EntryReport.Json

open EntryReport.Text (Position byteLength)

/-! ## Tokens on the way -/

/-- How much deeper a token leads. -/
def Token.descent : Token → Int
  | .openArr | .openObj => 1
  | .closeArr | .closeObj => -1
  | _ => 0

/-- The number of tokens up to the end of a value, with `depth` open arrays and objects. -/
def tokensToEnd (depth : Int) : List Token → Nat
  | [] => 0
  | t :: ts =>
    let depth := depth + t.descent
    if depth ≤ 0 then 1 else 1 + tokensToEnd depth ts

/-- The number of tokens of the value at the front. -/
def valueLength (ts : List Token) : Nat := tokensToEnd 0 ts

/-- The number of tokens of the first items of an array, with their commas. -/
def itemsLength : (count : Nat) → List Token → Nat
  | 0, _ => 0
  | count + 1, ts =>
    let length := valueLength ts + 1
    length + itemsLength count (ts.drop length)

/-- The number of tokens of the first members of an object, with their commas. -/
def membersLength : (count : Nat) → List Token → Nat
  | 0, _ => 0
  | count + 1, ts =>
    let length := 2 + valueLength (ts.drop 2) + 1
    length + membersLength count (ts.drop length)

/-- The number of tokens in front of the part of a value that a trail leads to. -/
def tokenOf : List Step → List Token → Nat
  | [], _ => 0
  | .item index :: trail, ts =>
    let before := 1 + itemsLength index (ts.drop 1)
    before + tokenOf trail (ts.drop before)
  | .member index :: trail, ts =>
    let before := 1 + membersLength index (ts.drop 1) + 2
    before + tokenOf trail (ts.drop before)

/-- The text from the token on that comes after `count` others. -/
def textFrom : (count : Nat) → List Char → List Char
  | 0, cs => cs.dropWhile isSpace
  | count + 1, cs =>
    match scanToken (cs.dropWhile isSpace) with
    | some (_, rest) => textFrom count rest
    | none => []

/-- What follows the token at the front of a text. -/
def textAfter (cs : List Char) : List Char :=
  ((scanToken cs).map (·.2)).getD []

/-! ## Faults and their places -/

/-- A fault, and the text in front of which it shows, but for some bytes. -/
structure Finding where
  fault : Fault
  rest : List Char
  bytes : Nat := 0

/-- A breach in a text. -/
def Finding.ofBreach (rest : List Char) (b : Breach) : Finding :=
  ⟨.malformed b.how, rest, b.offset⟩

/-- A value at the front of a text that does not fit. -/
def Finding.unfit (fault : Fault) (cs : List Char) : Finding :=
  match scanToken cs with
  | some (.openArr, _) | some (.openObj, _) | none => ⟨fault, cs, 0⟩
  | some (_, rest) => ⟨fault, rest, 0⟩

/-- An array that goes on, in a text that begins after its items. -/
def Finding.overlong (cs : List Char) : Finding :=
  match cs with
  | ',' :: more =>
    let more := more.dropWhile isSpace
    .ofBreach more <|
      if more.head? = some ']' then ⟨.commaAtEnd, 1⟩
      else breachAt .textAfterValue .textAfterValue more
  | cs => .ofBreach cs (breachAt .endInArray .textAfterValue cs)

/-- What the token stands for, if it begins a value. -/
def Token.found? : Token → Option Found
  | .null => some .null
  | .bool b => some (.bool b)
  | .number n => n.map .number
  | .string s => s.map .string
  | .openArr => some .sequence
  | .openObj => some .map
  | _ => none

/-- The name of a choice that has to be at the front of a text. -/
def Finding.noName (cs : List Char) : Finding :=
  match (scanToken cs).bind fun (t, _) => t.found? with
  | some found => .unfit (.wrongType found "variant identifier") cs
  | none => .ofBreach cs (valueBreach .value cs)

/-- What a text shows of a problem. -/
def Problem.find (cs : List Char) (p : Problem) : Finding :=
  let ts := tokens cs
  let value := tokenOf p.trail ts
  let length := valueLength (ts.drop value)
  let key := value - 2
  match p.complaint with
  | .unfit fault => .unfit fault (textFrom value cs)
  | .incomplete fault => ⟨fault, textAfter (textFrom (value + length - 1) cs), 0⟩
  | .repeated fault =>
    let rest := textFrom (key + 1) cs
    ⟨fault, rest, if rest.head? = some '\x7d' then 1 else 0⟩
  | .misnamed fault => ⟨fault, textAfter (textFrom key cs), 0⟩
  | .tooDeep => .ofBreach (textFrom value cs) ⟨.nestedTooDeep, 1⟩
  | .unreadable => .ofBreach (textFrom value cs) (valueBreach .value (textFrom value cs))
  | .unreadableKey => .ofBreach (textFrom key cs) (valueBreach .value (textFrom key cs))
  | .overlong count => .overlong (textFrom (value + itemsLength count (ts.drop (value + 1))) cs)
  | .noChoice => .ofBreach (textFrom value cs) (valueBreach .choice (textFrom value cs))
  | .unnamedChoice => .noName (textFrom (value + 1) cs)
  | .notLast =>
    let rest := textFrom (value + length) cs
    .ofBreach rest ⟨if rest.isEmpty then .endInObject else .noValue, 0⟩
  | .brokenOff purpose =>
    let (count, progress) := Progress.run (.reading .value []) 0 ts
    let rest := textFrom count cs
    .ofBreach rest (progress.breach purpose rest)

/-- The fault in a text that a problem amounts to, and its position. -/
def Problem.diagnose (s : String) (p : Problem) : TextFault :=
  let found := p.find s.toList
  let offset := byteLength s.toList - byteLength found.rest + found.bytes
  ⟨found.fault, .ofOffset s.toList offset⟩

end EntryReport.Json
