import EntryReport.Json.Basic

/-!
# Tokens of a JSON text

`tokens` cuts a text into tokens; blanks between them are skipped. Where no token can be read the
list ends with `Token.fault`.

A string whose escapes do not pair up to characters, and a number out of range, are still tokens:
they hold no value, which matters only where a value is asked for.

* `scanString`: what stands between quotation marks, as pieces;
* `joinPieces`: the characters of the pieces, where two halves of a pair make one character;
* `scanNumeral`: the longest numeral at the front of a text.
-/

namespace EntryReport.Json

/-- A token of a JSON text. -/
inductive Token where
  | openArr
  | closeArr
  | openObj
  | closeObj
  | comma
  | colon
  | null
  | bool (value : Bool)
  | number (value : Option Number)
  | string (value : Option String)
  | fault
deriving DecidableEq, Repr

/-- The blanks of JSON. -/
def isSpace (c : Char) : Bool :=
  c = ' ' || c = '\n' || c = '\r' || c = '\t'

/-! ## Strings -/

/-- A part of a string: a character, or the number that a `\u` escape gives. -/
inductive Piece where
  | char (c : Char)
  | unit (n : Nat)
deriving DecidableEq, Repr

/-- The value of a hexadecimal digit. -/
def hexValue? (c : Char) : Option Nat :=
  if '0' ≤ c && c ≤ '9' then some (c.toNat - 48)
  else if 'a' ≤ c && c ≤ 'f' then some (c.toNat - 87)
  else if 'A' ≤ c && c ≤ 'F' then some (c.toNat - 55)
  else none

/-- The value of four hexadecimal digits. -/
def hexWord? (a b c d : Char) : Option Nat := do
  return (((← hexValue? a) * 16 + (← hexValue? b)) * 16 + (← hexValue? c)) * 16 + (← hexValue? d)

/-- The character that a backslash and `c` stand for. -/
def shortEscape? (c : Char) : Option Char :=
  if c = '"' then some '"'
  else if c = '\\' then some '\\'
  else if c = '/' then some '/'
  else if c = 'b' then some '\x08'
  else if c = 'f' then some '\x0c'
  else if c = 'n' then some '\n'
  else if c = 'r' then some '\r'
  else if c = 't' then some '\t'
  else none

/-- The string up to its closing quotation mark, and what follows; `none` if it is malformed. -/
def scanString : List Char → Option (List Piece × List Char)
  | [] => none
  | '"' :: rest => some ([], rest)
  | '\\' :: 'u' :: a :: b :: c :: d :: rest => do
    let n ← hexWord? a b c d
    let (pieces, rest) ← scanString rest
    return (.unit n :: pieces, rest)
  | '\\' :: e :: rest => do
    let c ← shortEscape? e
    let (pieces, rest) ← scanString rest
    return (.char c :: pieces, rest)
  | c :: rest =>
    if c.toNat < 0x20 || c = '\\' then none
    else do
      let (pieces, rest) ← scanString rest
      return (.char c :: pieces, rest)

/-- The first half of a pair. -/
def isHigh (n : Nat) : Bool := 0xD800 ≤ n && n ≤ 0xDBFF

/-- The second half of a pair. -/
def isLow (n : Nat) : Bool := 0xDC00 ≤ n && n ≤ 0xDFFF

/-- The characters of the pieces; `none` if a half of a pair stands alone. -/
def joinPieces : List Piece → Option (List Char)
  | [] => some []
  | .char c :: rest => (joinPieces rest).map (c :: ·)
  | .unit h :: .unit l :: rest =>
    if isHigh h && isLow l then
      (joinPieces rest).map (Char.ofNat ((h - 0xD800) * 0x400 + (l - 0xDC00) + 0x10000) :: ·)
    else if isHigh h || isLow h then none
    else (joinPieces (.unit l :: rest)).map (Char.ofNat h :: ·)
  | .unit n :: rest =>
    if isHigh n || isLow n then none else (joinPieces rest).map (Char.ofNat n :: ·)

/-! ## Numbers -/

/-- The value of a decimal digit. -/
def digitValue (c : Char) : Nat := c.toNat - 48

/-- The digits at the front of a text, and what follows. -/
def scanDigits (cs : List Char) : List Nat × List Char :=
  ((cs.takeWhile Char.isDigit).map digitValue, cs.dropWhile Char.isDigit)

/-- The digits before the point: a single zero, or digits that do not begin with one. -/
def scanWhole (cs : List Char) : Option (List Nat × List Char) :=
  match scanDigits cs with
  | ([], _) => none
  | (0 :: _ :: _, _) => none
  | found => some found

/-- The point and the digits after it, if there is a point. -/
def scanDecimals : List Char → Option (List Nat × List Char)
  | '.' :: cs =>
    match scanDigits cs with
    | ([], _) => none
    | found => some found
  | cs => some ([], cs)

/-- The sign of an exponent. -/
def scanSign : List Char → Bool × List Char
  | '+' :: cs => (false, cs)
  | '-' :: cs => (true, cs)
  | cs => (false, cs)

/-- The exponent part, if there is one. -/
def scanExponent : List Char → Option (Option Exponent × List Char)
  | [] => some (none, [])
  | c :: cs =>
    if c = 'e' || c = 'E' then
      let (negative, cs) := scanSign cs
      match scanDigits cs with
      | ([], _) => none
      | (digits, rest) => some (some ⟨negative, digits⟩, rest)
    else some (none, c :: cs)

/-- The numeral after its sign, and what follows; `none` if it is malformed. -/
def scanNumeral (negative : Bool) (cs : List Char) : Option (Numeral × List Char) := do
  let (whole, cs) ← scanWhole cs
  let (decimals, cs) ← scanDecimals cs
  let (exponent, cs) ← scanExponent cs
  return (⟨negative, whole, decimals, exponent⟩, cs)

/-! ## Tokens -/

/-- The numeral as a token. -/
def numberToken (found : Option (Numeral × List Char)) : Option (Token × List Char) :=
  found.map fun (n, rest) => (.number n.value, rest)

/-- The token at the front of a text that does not begin with a blank, and what follows. -/
def scanToken : List Char → Option (Token × List Char)
  | [] => none
  | '[' :: cs => some (.openArr, cs)
  | ']' :: cs => some (.closeArr, cs)
  | '\x7b' :: cs => some (.openObj, cs)
  | '\x7d' :: cs => some (.closeObj, cs)
  | ',' :: cs => some (.comma, cs)
  | ':' :: cs => some (.colon, cs)
  | 'n' :: 'u' :: 'l' :: 'l' :: cs => some (.null, cs)
  | 't' :: 'r' :: 'u' :: 'e' :: cs => some (.bool true, cs)
  | 'f' :: 'a' :: 'l' :: 's' :: 'e' :: cs => some (.bool false, cs)
  | '"' :: cs =>
    (scanString cs).map fun (pieces, rest) => (.string ((joinPieces pieces).map .ofList), rest)
  | '-' :: cs => numberToken (scanNumeral true cs)
  | cs => numberToken (scanNumeral false cs)

/-- The tokens of a text, of which at most `limit` are read. -/
def tokensUpTo : Nat → List Char → List Token
  | 0, _ => []
  | limit + 1, cs =>
    match cs.dropWhile isSpace with
    | [] => []
    | c :: rest =>
      match scanToken (c :: rest) with
      | none => [.fault]
      | some (t, rest) => t :: tokensUpTo limit rest

/-- The tokens of a text: each takes at least one character. -/
def tokens (cs : List Char) : List Token :=
  tokensUpTo cs.length cs

end EntryReport.Json
