import EntryReport.Json.Basic
import EntryReport.Number.Shortest
import EntryReport.Text.Quoted

/-!
# Writing JSON

`Json.write` puts the text of a value in front of other text, so that a value of any size is
written in one pass. A `Layout` says how: `Layout.compact` on one line without blanks,
`Layout.pretty` with each item and member on a line of its own, two spaces a level; an empty array
or object stays closed up.

In a text only the quotation mark, the backslash and the controls below U+0020 are escaped.
-/

namespace EntryReport

namespace Json

/-- How a value is laid out: what stands before an item at a depth, and after a colon. -/
structure Layout where
  lineBreak : Nat → List Char
  afterColon : List Char

/-- Everything on one line, without blanks. -/
def Layout.compact : Layout := ⟨fun _ => [], []⟩

/-- One item or member a line, two spaces a level. -/
def Layout.pretty : Layout := ⟨fun depth => '\n' :: List.replicate (2 * depth) ' ', [' ']⟩

/-- A hexadecimal digit. -/
def hexDigit (n : Nat) : Char :=
  "0123456789abcdef".toList.getD n '0'

/-- One character of a text. -/
def escapeChar (c : Char) : List Char :=
  if c = '"' then ['\\', '"']
  else if c = '\\' then ['\\', '\\']
  else if c = '\n' then ['\\', 'n']
  else if c = '\r' then ['\\', 'r']
  else if c = '\t' then ['\\', 't']
  else if c = '\x08' then ['\\', 'b']
  else if c = '\x0c' then ['\\', 'f']
  else if c.toNat < 0x20 then
    ['\\', 'u', '0', '0', hexDigit (c.toNat / 16), hexDigit (c.toNat % 16)]
  else [c]

/-- The characters of a text, escaped, in front of `rest`. -/
def writeChars : List Char → List Char → List Char
  | [], rest => rest
  | c :: cs, rest => escapeChar c ++ writeChars cs rest

/-- A text between quotation marks, in front of `rest`. -/
def writeText (s : String) (rest : List Char) : List Char :=
  '"' :: writeChars s.toList ('"' :: rest)

/-- The text of an integer. -/
def intText (n : Int) : List Char :=
  if n < 0 then '-' :: Nat.toDigits 10 n.natAbs else Nat.toDigits 10 n.natAbs

/-- The text of a number. -/
def numberText : Number → List Char
  | .int n => intText n
  | .float x => x.text

mutual
/-- The text of a value at a depth, in front of `rest`. -/
def write (layout : Layout) (depth : Nat) : Json → List Char → List Char
  | .null, rest => "null".toList ++ rest
  | .bool true, rest => "true".toList ++ rest
  | .bool false, rest => "false".toList ++ rest
  | .num n, rest => numberText n ++ rest
  | .str s, rest => writeText s rest
  | .arr [], rest => '[' :: ']' :: rest
  | .arr (x :: xs), rest =>
    '[' :: (layout.lineBreak (depth + 1) ++ write layout (depth + 1) x
      (writeItems layout (depth + 1) xs (layout.lineBreak depth ++ ']' :: rest)))
  | .obj [], rest => '\x7b' :: '\x7d' :: rest
  | .obj ((k, v) :: ms), rest =>
    '\x7b' :: (layout.lineBreak (depth + 1) ++ writeText k (':' :: (layout.afterColon ++
      write layout (depth + 1) v
        (writeMembers layout (depth + 1) ms (layout.lineBreak depth ++ '\x7d' :: rest)))))

/-- Further items, each after a comma. -/
def writeItems (layout : Layout) (depth : Nat) : List Json → List Char → List Char
  | [], rest => rest
  | x :: xs, rest =>
    ',' :: (layout.lineBreak depth ++ write layout depth x (writeItems layout depth xs rest))

/-- Further members, each after a comma. -/
def writeMembers (layout : Layout) (depth : Nat) :
    List (String × Json) → List Char → List Char
  | [], rest => rest
  | (k, v) :: ms, rest =>
    ',' :: (layout.lineBreak depth ++ writeText k (':' :: (layout.afterColon ++
      write layout depth v (writeMembers layout depth ms rest))))
end

/-- The text of a value. -/
def text (layout : Layout) (j : Json) : String :=
  String.ofList (write layout 0 j [])

/-- The text of a value on one line. -/
def compact (j : Json) : String := j.text .compact

/-- The text of a value over several lines. -/
def pretty (j : Json) : String := j.text .pretty

end Json

end EntryReport
