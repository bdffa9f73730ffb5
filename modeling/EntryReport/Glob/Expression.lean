import EntryReport.Glob.Kind

/-!
# Expressions of patterns

A pattern that is not decided by comparing characters is compiled from its `Expression`, a regular
expression over bytes. Parts of an expression may not be nested deeper than `depthLimit`.

* `Glob.expression`: the expression of a pattern;
* `Expression.depth`: how deep its parts are nested;
* `Expression.text`: how it is written.
-/

namespace EntryReport

namespace Glob

/-- A regular expression over bytes; several in a row are a sequence. -/
inductive Expression where
  | byte (b : UInt8)
  | anyByte
  | set (negated : Bool) (ranges : List (UInt8 × UInt8))
  | optional (e : Expression)
  | repeated (e : Expression)
  | group (branches : List (List Expression))
deriving Repr

namespace Expression

/-! ## From patterns -/

/-- The bytes of a character, one after the other. -/
def ofChar (c : Char) : List Expression :=
  (String.utf8EncodeChar c).map .byte

/-- A slash. -/
def ofSlash : Expression := .byte slash

/-- Any run of bytes. -/
def anyRun : Expression := .repeated .anyByte

mutual
/-- The sequence that a token stands for. A group has no branches for patterns that stand for
nothing, and is nothing itself if no branch is left. -/
def ofToken : Token → List Expression
  | .literal c => ofChar c
  | .anyByte => [.anyByte]
  | .anyRun => [anyRun]
  | .treeStart => [.group [[.optional ofSlash], [anyRun, ofSlash]]]
  | .treeInside => [.group [[ofSlash], [ofSlash, anyRun, ofSlash]]]
  | .treeEnd => [ofSlash, anyRun]
  | .set negated ranges => [.set negated (ranges.flatMap byteRanges)]
  | .oneOf alternatives =>
    match ofAlternatives alternatives with
    | [] => []
    | branches => [.group branches]

/-- The sequence that tokens stand for. -/
def ofTokens : List Token → List Expression
  | [] => []
  | t :: ts => ofToken t ++ ofTokens ts

/-- The branches that are not empty. -/
def ofAlternatives : List (List Token) → List (List Expression)
  | [] => []
  | tokens :: rest =>
    match ofTokens tokens with
    | [] => ofAlternatives rest
    | sequence => sequence :: ofAlternatives rest
end

/-! ## Depth -/

/-- How deep parts may be nested. -/
def depthLimit : Nat := 250

/-- The depth of `count` parts in a row, or side by side, the deepest of which is `deepest` deep. -/
def depthOfParts (count deepest : Nat) : Nat :=
  if count ≤ 1 then deepest else deepest + 1

mutual
/-- The depth of an expression; a byte has none. -/
def depth : Expression → Nat
  | .byte _ => 0
  | .anyByte => 0
  | .set _ ranges => depthOfParts ranges.length 1
  | .optional e => e.depth + 1
  | .repeated e => e.depth + 1
  | .group branches => depthOfParts branches.length (deepestBranch branches) + 1

/-- The depth of the deepest expression. -/
def deepest : List Expression → Nat
  | [] => 0
  | e :: rest => max e.depth (deepest rest)

/-- The depth of the deepest sequence. -/
def deepestBranch : List (List Expression) → Nat
  | [] => 0
  | sequence :: rest =>
    max (depthOfParts sequence.length (deepest sequence)) (deepestBranch rest)
end

/-! ## Text -/

/-- The bytes that have a meaning of their own in an expression. -/
def specials : List Char :=
  "\\.+*?()|[]\x7b\x7d^$#&-~".toList

/-- A byte: as it is, after a backslash, or by its number if it is not ASCII. -/
def byteText (b : UInt8) : List Char :=
  let c := Char.ofNat b.toNat
  if 0x7F < b.toNat then '\\' :: 'x' :: Nat.toDigits 16 b.toNat
  else if specials.contains c then ['\\', c]
  else [c]

/-- A range of bytes; a single byte stands for itself. -/
def rangeText (range : UInt8 × UInt8) : List Char :=
  if range.1 = range.2 then byteText range.1
  else byteText range.1 ++ '-' :: byteText range.2

mutual
/-- An expression as it is written. -/
def text : Expression → List Char
  | .byte b => byteText b
  | .anyByte => ['.']
  | .set negated ranges =>
    '[' :: ((if negated then ['^'] else []) ++ ranges.flatMap rangeText ++ [']'])
  | .optional e => e.text ++ ['?']
  | .repeated e => e.text ++ ['*']
  | .group branches => '(' :: '?' :: ':' :: (branchesText branches ++ [')'])

/-- A sequence as it is written. -/
def sequenceText : List Expression → List Char
  | [] => []
  | e :: rest => e.text ++ sequenceText rest

/-- Branches as they are written, with a bar between two. -/
def branchesText : List (List Expression) → List Char
  | [] => []
  | [sequence] => sequenceText sequence
  | sequence :: rest => sequenceText sequence ++ '|' :: branchesText rest
end

end Expression

/-! ## Whole patterns -/

/-- The expression of a pattern. -/
def expression (g : Glob) : List Expression :=
  match g.tokens with
  | [.treeStart] => [Expression.anyRun]
  | tokens => Expression.ofTokens tokens

/-- The expression as it is written: of bytes, from the beginning of a path to its end. -/
def expressionText (g : Glob) : String :=
  String.ofList ("(?-u)^".toList ++ Expression.sequenceText g.expression ++ ['$'])

/-- The depth of the expression, which is a sequence with a beginning and an end. -/
def depth (g : Glob) : Nat :=
  Expression.deepest g.expression + 1

/-- The expression cannot be compiled: its parts are nested too deep. -/
def isTooDeep (g : Glob) : Bool :=
  Expression.depthLimit < g.depth

end Glob

end EntryReport
