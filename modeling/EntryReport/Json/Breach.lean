import EntryReport.Json.Document
import EntryReport.Json.Fault

/-!
# Where reading breaks off

A `Breach` says how a text is malformed and how many bytes of it were read by then. That depends on
the `Purpose` for which the part was read. In a part that is skipped, numbers may be out of range
and halves of pairs may stand alone, and a few problems show in another way; a choice looks no
further than the first character of a value that cannot be one.

* `stringBreach`, `numberBreach`, `wordBreach`: in a scalar;
* `valueBreach`: where a value has to stand;
* `Progress.breach`: where a document cannot go on.
-/

namespace EntryReport.Json

open EntryReport.Text (byteLength)

/-- What a part of a text is read for. -/
inductive Purpose where
  | value
  | choice
  | skipping
deriving DecidableEq, Repr

/-- How a text is malformed, and how many bytes stand before the place where that shows. -/
structure Breach where
  how : Malformation
  offset : Nat
deriving DecidableEq, Repr

/-- The breach, seen from some bytes before. -/
def Breach.after (bytes : Nat) (b : Breach) : Breach :=
  { b with offset := bytes + b.offset }

/-- The end of the text, or else the byte that comes next, is not what has to stand there. -/
def breachAt (atEnd how : Malformation) : List Char → Breach
  | [] => ⟨atEnd, 0⟩
  | _ => ⟨how, 1⟩

/-! ## Strings -/

/-- Four bytes that are no hexadecimal digits, or fewer. -/
def hexBreach (cs : List Char) : Breach :=
  let bytes := byteLength (cs.take 4)
  if bytes < 4 then ⟨.endInString, bytes⟩ else ⟨.badEscape, 4⟩

/-- Four hexadecimal digits and what follows. -/
def takeHexWord (cs : List Char) : Except Breach (Nat × List Char) :=
  match cs with
  | a :: b :: c :: d :: rest =>
    match hexWord? a b c d with
    | some n => .ok (n, rest)
    | none => .error (hexBreach cs)
  | _ => .error (hexBreach cs)

/-- What follows the second half of a pair. -/
def afterSecondHalf (cs : List Char) : Except Breach (List Char) :=
  match cs with
  | '\\' :: 'u' :: cs =>
    match takeHexWord cs with
    | .ok (n, rest) => if isLow n then .ok rest else .error ⟨.unpairedHalf, 6⟩
    | .error b => .error (b.after 2)
  | '\\' :: cs => .error ((breachAt .endInString .noSecondHalf cs).after 1)
  | cs => .error (breachAt .endInString .noSecondHalf cs)

/-- How many bytes an escape has without its backslash, and what follows. In a string that is
skipped the halves of pairs need not pair up. -/
def afterEscape (purpose : Purpose) : List Char → Except Breach (Nat × List Char)
  | 'u' :: cs =>
    match takeHexWord cs with
    | .error b => .error (b.after 1)
    | .ok (n, rest) =>
      if purpose = .skipping then .ok (5, rest)
      else if isLow n then .error ⟨.unpairedHalf, 5⟩
      else if isHigh n then
        match afterSecondHalf rest with
        | .ok rest => .ok (11, rest)
        | .error b => .error (b.after 5)
      else .ok (5, rest)
  | c :: cs => if (shortEscape? c).isSome then .ok (1, cs) else .error ⟨.badEscape, 1⟩
  | [] => .error ⟨.endInString, 0⟩

/-- The breach in a string of which some bytes are read, within `limit` characters and escapes. -/
def stringBreach (purpose : Purpose) : (limit bytes : Nat) → List Char → Breach
  | 0, bytes, _ => ⟨.endInString, bytes⟩
  | _ + 1, bytes, [] => ⟨.endInString, bytes⟩
  | limit + 1, bytes, c :: cs =>
    if c = '\\' then
      match afterEscape purpose cs with
      | .ok (more, rest) => stringBreach purpose limit (bytes + 1 + more) rest
      | .error b => b.after (bytes + 1)
    else if c.toNat < 0x20 then
      ⟨.controlCharacter, if purpose = .skipping then bytes else bytes + 1⟩
    else stringBreach purpose limit (bytes + c.utf8Size) cs

/-! ## Numbers -/

/-- The breach where digits have to follow. At the end of the text it depends on whether the number
is skipped. -/
def noDigits (purpose : Purpose) (cs : List Char) : Breach :=
  breachAt (if purpose = .skipping then .badNumber else .endInValue) .badNumber cs

/-- How many digits an exponent has, up to the one with which it is too large to be read. -/
def readDigits (value count : Nat) : List Nat → Nat
  | [] => count
  | d :: ds =>
    let next := value * 10 + d
    if Numeral.exponentMax < next then count + 1 else readDigits next (count + 1) ds

/-- The breach in a number that is out of range: at its end, or in an exponent that is too large. -/
def rangeBreach (n : Numeral) (length : Nat) : Breach :=
  match n.exponent with
  | some e =>
    if e.negative then ⟨.numberOutOfRange, length⟩
    else ⟨.numberOutOfRange, length - (e.digits.length - readDigits 0 0 e.digits)⟩
  | none => ⟨.numberOutOfRange, length⟩

/-- The breach in the exponent of a number, whose letter is left off. -/
def exponentBreach (purpose : Purpose) (cs : List Char) : Breach :=
  let rest := (scanSign cs).2
  (noDigits purpose rest).after (cs.length - rest.length)

/-- The breach after the whole digits of a number that is malformed. -/
def fractionBreach (purpose : Purpose) (cs : List Char) : Breach :=
  match cs with
  | '.' :: cs =>
    match scanDigits cs with
    | ([], _) => (noDigits purpose cs).after 1
    | (digits, rest) => (exponentBreach purpose (rest.drop 1)).after (2 + digits.length)
  | cs => (exponentBreach purpose (cs.drop 1)).after 1

/-- The breach in a number without its sign. -/
def numeralBreach (purpose : Purpose) (cs : List Char) : Breach :=
  match scanNumeral false cs with
  | some (n, rest) => rangeBreach n (cs.length - rest.length)
  | none =>
    match scanDigits cs with
    | ([], _) => noDigits purpose cs
    | (0 :: _ :: _, _) => ⟨.badNumber, 2⟩
    | (digits, rest) => (fractionBreach purpose rest).after digits.length

/-- The breach in a number. -/
def numberBreach (purpose : Purpose) : List Char → Breach
  | '-' :: cs => (numeralBreach purpose cs).after 1
  | cs => numeralBreach purpose cs

/-! ## Values -/

/-- The breach where the letters of a word have to follow. -/
def wordBreach : (word : List Char) → List Char → Breach
  | w :: word, c :: cs => if w = c then (wordBreach word cs).after 1 else ⟨.noWord, 1⟩
  | _, cs => breachAt .endInValue .noWord cs

/-- The breach in a value that is no string. -/
def plainBreach (purpose : Purpose) (cs : List Char) : Breach :=
  match cs with
  | 'n' :: rest => (wordBreach "ull".toList rest).after 1
  | 't' :: rest => (wordBreach "rue".toList rest).after 1
  | 'f' :: rest => (wordBreach "alse".toList rest).after 1
  | c :: _ => if c = '-' || c.isDigit then numberBreach purpose cs else ⟨.noValue, 1⟩
  | [] => ⟨.endInValue, 0⟩

/-- The breach where a value has to stand. -/
def valueBreach (purpose : Purpose) (cs : List Char) : Breach :=
  match cs with
  | '"' :: rest => stringBreach purpose (rest.length + 1) 1 rest
  | cs =>
    if purpose = .choice then breachAt .endInValue .noValue cs else plainBreach purpose cs

/-- The breach where a key has to stand. -/
def keyBreach (purpose : Purpose) (cs : List Char) : Breach :=
  match cs with
  | '"' :: _ => valueBreach purpose cs
  | cs => breachAt .endInObject .keyNotString cs

/-! ## Documents -/

/-- The innermost open part is an array. -/
def inArray : List Open → Bool
  | .arr _ :: _ => true
  | _ => false

/-- The breach in front of the text that follows, where a document cannot go on. A comma before the
end of an array or object is told as such only where it is read. -/
def Progress.breach (purpose : Purpose) (cs : List Char) : Progress → Breach
  | .reading .value stack =>
    if inArray stack && cs.head? = some ']' && purpose ≠ .skipping then ⟨.commaAtEnd, 1⟩
    else valueBreach purpose cs
  | .reading .itemOrEnd _ => if cs.isEmpty then ⟨.endInArray, 0⟩ else valueBreach purpose cs
  | .reading .keyOrEnd _ => keyBreach purpose cs
  | .reading .key _ =>
    if purpose = .skipping then keyBreach purpose cs
    else if cs.isEmpty then ⟨.endInValue, 0⟩
    else if cs.head? = some '\x7d' then ⟨.commaAtEnd, 1⟩
    else keyBreach purpose cs
  | .reading .colon _ => breachAt .endInObject .noColon cs
  | .reading .commaOrEnd stack =>
    if inArray stack then breachAt .endInArray .noCommaInArray cs
    else breachAt .endInObject .noCommaInObject cs
  | _ => ⟨.textAfterValue, 1⟩

/-- How far tokens can be read: the number of those before the first that does not fit, or of all of
them, and what the document amounts to by then. -/
def Progress.run (progress : Progress) (count : Nat) : List Token → Nat × Progress
  | [] => (count, progress)
  | t :: ts =>
    match progress.step t with
    | .broken _ => (count, progress)
    | next => next.run (count + 1) ts

end EntryReport.Json
