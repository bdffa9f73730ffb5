/-!
# Markup

`Html` is a piece of a page as a tree; `Html.write` is the only place where it becomes text, and
`escape` is applied there to every text and attribute value.

* `escape`: the five characters that mean something in markup, as entities;
* `escapeForScript`: JSON text that may stand inside a script element.
-/

namespace EntryReport

namespace Html

/-- A character of a text or an attribute value. -/
def escapeChar (c : Char) : List Char :=
  if c = '&' then "&amp;".toList
  else if c = '<' then "&lt;".toList
  else if c = '>' then "&gt;".toList
  else if c = '"' then "&quot;".toList
  else if c = '\'' then "&#39;".toList
  else [c]

/-- A text or an attribute value. -/
def escapeChars (cs : List Char) : List Char :=
  cs.flatMap escapeChar

/-- A text or an attribute value. -/
def escape (s : String) : String :=
  String.ofList (escapeChars s.toList)

/-- A character of JSON inside a script: those that mean something in markup occur in strings
only, where an escape stands for the same character. -/
def escapeScriptChar (c : Char) : List Char :=
  if c = '<' then "\\u003c".toList
  else if c = '>' then "\\u003e".toList
  else if c = '&' then "\\u0026".toList
  else [c]

/-- JSON text that may stand inside a script element. -/
def escapeForScript (s : String) : String :=
  String.ofList (s.toList.flatMap escapeScriptChar)

end Html

/-- An attribute: a name with a value, or a name alone. -/
inductive Attribute where
  | value (name value : String)
  | flag (name : String)
deriving DecidableEq, Repr

/-- A piece of a page: text, an element, or an element that cannot hold anything. -/
inductive Html where
  | text (s : String)
  | element (tag : String) (attributes : List Attribute) (children : List Html)
  | void (tag : String) (attributes : List Attribute)

namespace Html

/-- An attribute, in front of `rest`. -/
def writeAttribute (a : Attribute) (rest : List Char) : List Char :=
  match a with
  | .value name value =>
    ' ' :: (name.toList ++ '=' :: '"' :: (escapeChars value.toList ++ '"' :: rest))
  | .flag name => ' ' :: (name.toList ++ rest)

/-- The tag that begins an element, in front of `rest`. -/
def writeTag (tag : String) (attributes : List Attribute) (rest : List Char) : List Char :=
  '<' :: (tag.toList ++ attributes.foldr writeAttribute ('>' :: rest))

mutual
/-- The text of a piece, in front of `rest`. -/
def write : Html → List Char → List Char
  | .text s, rest => escapeChars s.toList ++ rest
  | .element tag attributes children, rest =>
    writeTag tag attributes
      (writeAll children ('<' :: '/' :: (tag.toList ++ '>' :: rest)))
  | .void tag attributes, rest => writeTag tag attributes rest

/-- The text of pieces one after the other, in front of `rest`. -/
def writeAll : List Html → List Char → List Char
  | [], rest => rest
  | h :: hs, rest => h.write (writeAll hs rest)
end

/-- An element with a class. -/
def classed (tag className : String) (children : List Html) : Html :=
  .element tag [.value "class" className] children

end Html

end EntryReport
