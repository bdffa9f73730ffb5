import EntryReport.Json.Token

/-!
# Documents

A `Doc` is a JSON value as it stands in a text, as far as the text could be read: arrays and
objects keep everything up to the first fault and end `broken` there. Members keep their order and
their repetitions. A reader of values (`Decode`) walks through a document in the order of the text
and so meets a wrong value and a fault in the order in which they stand.

`Document.ofTokens` builds a document with the arrays and objects that are still open on a stack,
one step a token. `Doc.ofJson` is the document of a value that is at hand.
-/

namespace EntryReport.Json

mutual
/-- A value as it stands in a text. -/
inductive Doc where
  | null
  | bool (value : Bool)
  | number (value : Option Number)
  | string (value : Option String)
  | arr (items : Items)
  | obj (members : Members)
  | fault

/-- The items of an array, up to its end or to a fault. -/
inductive Items where
  | closed
  | broken
  | item (value : Doc) (rest : Items)

/-- The members of an object, up to its end or to a fault. -/
inductive Members where
  | closed
  | broken
  | member (key : Option String) (value : Doc) (rest : Members)
end

mutual
/-- The document of a value. -/
def Doc.ofJson : Json → Doc
  | .null => .null
  | .bool b => .bool b
  | .num n => .number (some n)
  | .str s => .string (some s)
  | .arr values => .arr (Items.ofJson values)
  | .obj members => .obj (Members.ofJson members)

/-- The items of a list of values. -/
def Items.ofJson : List Json → Items
  | [] => .closed
  | value :: rest => .item (Doc.ofJson value) (Items.ofJson rest)

/-- The members of a list of keys and values. -/
def Members.ofJson : List (String × Json) → Members
  | [] => .closed
  | (key, value) :: rest => .member (some key) (Doc.ofJson value) (Members.ofJson rest)
end

/-- The items in front of `ending`; the last comes first in the list. -/
def Items.ofReversed (items : List Doc) (ending : Items) : Items :=
  items.foldl (fun rest value => .item value rest) ending

/-- The members in front of `ending`; the last comes first in the list. -/
def Members.ofReversed (members : List (Option String × Doc)) (ending : Members) : Members :=
  members.foldl (fun rest (key, value) => .member key value rest) ending

/-- An array or object that is still open, with what it holds so far, the last first. An object
has the key whose value comes next. -/
inductive Open where
  | arr (items : List Doc)
  | obj (members : List (Option String × Doc))
  | value (members : List (Option String × Doc)) (key : Option String)

/-- What may come next. -/
inductive Expected where
  | value
  | itemOrEnd
  | keyOrEnd
  | key
  | colon
  | commaOrEnd
deriving DecidableEq, Repr

/-- A text that was read: its value, and whether the text ended there. -/
structure Document where
  root : Doc
  closed : Bool

/-- How far a text was read. -/
inductive Progress where
  | reading (expected : Expected) (stack : List Open)
  | complete (root : Doc)
  | broken (root : Doc)

/-- The innermost open part, given up at a fault. -/
def Open.abandon (inner : Option Doc) : Open → Doc
  | .arr items => .arr (.ofReversed (inner.toList ++ items) .broken)
  | .obj members => .obj (.ofReversed members .broken)
  | .value members key => .obj (.ofReversed ((key, inner.getD .fault) :: members) .broken)

/-- Everything that is open, given up at a fault. -/
def abandonAll (inner : Option Doc) : List Open → Doc
  | [] => inner.getD .fault
  | o :: stack => abandonAll (some (o.abandon inner)) stack

/-- A value is complete: it goes into the innermost open part. -/
def settle (value : Doc) : List Open → Progress
  | [] => .complete value
  | .arr items :: stack => .reading .commaOrEnd (.arr (value :: items) :: stack)
  | .obj members :: stack => .reading .commaOrEnd (.obj members :: stack)
  | .value members key :: stack => .reading .commaOrEnd (.obj ((key, value) :: members) :: stack)

/-- A token that begins a value. -/
def beginValue (stack : List Open) : Token → Progress
  | .null => settle .null stack
  | .bool b => settle (.bool b) stack
  | .number n => settle (.number n) stack
  | .string s => settle (.string s) stack
  | .openArr => .reading .itemOrEnd (.arr [] :: stack)
  | .openObj => .reading .keyOrEnd (.obj [] :: stack)
  | _ => .broken (abandonAll (some .fault) stack)

/-- A token that is the key of a member. -/
def beginMember (stack : List Open) (token : Token) : Progress :=
  match token, stack with
  | .string key, .obj members :: stack => .reading .colon (.value members key :: stack)
  | _, _ => .broken (abandonAll none stack)

/-- A token after a value: a comma, or the end of the array or object. -/
def continueAfter (stack : List Open) (token : Token) : Progress :=
  match token, stack with
  | .comma, .arr items :: stack => .reading .value (.arr items :: stack)
  | .comma, .obj members :: stack => .reading .key (.obj members :: stack)
  | .closeArr, .arr items :: stack => settle (.arr (.ofReversed items .closed)) stack
  | .closeObj, .obj members :: stack => settle (.obj (.ofReversed members .closed)) stack
  | _, _ => .broken (abandonAll none stack)

/-- The next token. -/
def Progress.step (progress : Progress) (token : Token) : Progress :=
  match progress with
  | .broken root => .broken root
  | .complete root => .broken root
  | .reading .value stack => beginValue stack token
  | .reading .itemOrEnd stack =>
    if token = .closeArr then continueAfter stack token else beginValue stack token
  | .reading .keyOrEnd stack =>
    if token = .closeObj then continueAfter stack token else beginMember stack token
  | .reading .key stack => beginMember stack token
  | .reading .colon stack =>
    if token = .colon then .reading .value stack else .broken (abandonAll none stack)
  | .reading .commaOrEnd stack => continueAfter stack token

/-- The text ends. -/
def Progress.finish : Progress → Document
  | .complete root => ⟨root, true⟩
  | .broken root => ⟨root, false⟩
  | .reading .value stack => ⟨abandonAll (some .fault) stack, false⟩
  | .reading _ stack => ⟨abandonAll none stack, false⟩

/-- The document that the tokens of a text make. -/
def Document.ofTokens (ts : List Token) : Document :=
  (ts.foldl Progress.step (.reading .value [])).finish

/-- The document in a text. -/
def Document.ofText (s : String) : Document :=
  .ofTokens (tokens s.toList)

end EntryReport.Json
