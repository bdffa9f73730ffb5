import EntryReport.Json.Printer
import EntryReport.Text.Position
import EntryReport.Text.Quoted
import EntryReport.Time.Reading

/-!
# Why a text cannot be decoded

A `Fault` is a problem in a text: the text is malformed, and `Malformation` says how, or it is well
formed and does not fit the type that is read. `Fault.message` gives the wording. A `TextFault` is
the first fault of a text with the position at which it shows.
-/

namespace EntryReport

/-- What stands where something else was expected. -/
inductive Found where
  | null
  | bool (value : Bool)
  | number (value : Number)
  | string (value : String)
  | sequence
  | map
deriving DecidableEq, Repr

/-- How a text is malformed. -/
inductive Malformation where
  | endInValue
  | endInString
  | endInArray
  | endInObject
  | noValue
  | noWord
  | badNumber
  | numberOutOfRange
  | badEscape
  | controlCharacter
  | unpairedHalf
  | noSecondHalf
  | keyNotString
  | noColon
  | noCommaInArray
  | noCommaInObject
  | commaAtEnd
  | textAfterValue
  | nestedTooDeep
deriving DecidableEq, Repr

/-- A problem in a text. -/
inductive Fault where
  | malformed (how : Malformation)
  | wrongType (found : Found) (expected : String)
  | missingField (name : String)
  | duplicateField (name : String)
  | unknownVariant (found : String) (known : List String)
  | tooShort (length : Nat) (expected : String)
  | badTimestamp (misfit : Timestamp.Misfit)
deriving DecidableEq, Repr

/-- The text between backquotes. -/
def ticked (s : String) : String :=
  "\x60" ++ s ++ "\x60"

/-- What stands there, in a message. -/
def Found.text : Found → String
  | .null => "null"
  | .bool b => "boolean " ++ ticked (if b then "true" else "false")
  | .number (.int n) => "integer " ++ ticked (String.ofList (Json.intText n))
  | .number (.float x) => "floating point " ++ ticked (String.ofList x.text)
  | .string s => "string " ++ Text.quote s
  | .sequence => "sequence"
  | .map => "map"

/-- The known names of a choice, in a message. -/
def choiceText : List String → String
  | [a, b] => ticked a ++ " or " ++ ticked b
  | names => "one of " ++ ", ".intercalate (names.map ticked)

/-- The malformation in words. -/
def Malformation.message : Malformation → String
  | endInValue => "EOF while parsing a value"
  | endInString => "EOF while parsing a string"
  | endInArray => "EOF while parsing a list"
  | endInObject => "EOF while parsing an object"
  | noValue => "expected value"
  | noWord => "expected ident"
  | badNumber => "invalid number"
  | numberOutOfRange => "number out of range"
  | badEscape => "invalid escape"
  | controlCharacter =>
    "control character (\\u0000-\\u001F) found while parsing a string"
  | unpairedHalf => "lone leading surrogate in hex escape"
  | noSecondHalf => "unexpected end of hex escape"
  | keyNotString => "key must be a string"
  | noColon => "expected " ++ ticked ":"
  | noCommaInArray => "expected " ++ ticked "," ++ " or " ++ ticked "]"
  | noCommaInObject => "expected " ++ ticked "," ++ " or " ++ ticked "\x7d"
  | commaAtEnd => "trailing comma"
  | textAfterValue => "trailing characters"
  | nestedTooDeep => "recursion limit exceeded"

/-- The problem in words. -/
def Fault.message : Fault → String
  | .malformed how => how.message
  | .wrongType found expected => "invalid type: " ++ found.text ++ ", expected " ++ expected
  | .missingField name => "missing field " ++ ticked name
  | .duplicateField name => "duplicate field " ++ ticked name
  | .unknownVariant found known =>
    "unknown variant " ++ ticked found ++ ", expected " ++ choiceText known
  | .tooShort length expected =>
    "invalid length " ++ toString length ++ ", expected " ++ expected
  | .badTimestamp misfit => misfit.message

/-- The first fault of a text, and where it shows. -/
structure TextFault where
  fault : Fault
  position : Text.Position
deriving DecidableEq, Repr

/-- The fault in words, with its place. -/
def TextFault.message (f : TextFault) : String :=
  f.fault.message ++ " at line " ++ toString f.position.line ++
    " column " ++ toString f.position.column

end EntryReport
