/-!
# Patterns of paths

A `Glob` is a pattern that a whole path has to match, byte by byte. Its tokens stand for

* a character, any byte, any run of bytes (slashes included), a byte of a set;
* `treeStart`, `treeInside`, `treeEnd`: any directories before, between and below;
* one of several patterns.

`inRanges` says which bytes a set holds, `vacuous` which patterns stand for nothing.
-/

namespace EntryReport

/-- A token of a pattern. -/
inductive Glob.Token where
  | literal (c : Char)
  | anyByte
  | anyRun
  | treeStart
  | treeInside
  | treeEnd
  | set (negated : Bool) (ranges : List (Char × Char))
  | oneOf (alternatives : List (List Glob.Token))
deriving Repr

/-- A pattern of paths. -/
structure Glob where
  tokens : List Glob.Token
deriving Repr

namespace Glob

/-- The bytes of a text. -/
def bytes (cs : List Char) : List UInt8 :=
  cs.flatMap String.utf8EncodeChar

/-- The byte of a slash. -/
def slash : UInt8 := 47

/-- The ranges of bytes that a range of characters stands for: its ends are taken byte by byte,
and the range lies between the last byte of one and the first of the other. -/
def byteRanges (range : Char × Char) : List (UInt8 × UInt8) :=
  let low := String.utf8EncodeChar range.1
  let high := String.utf8EncodeChar range.2
  if range.1 = range.2 then low.map fun b => (b, b)
  else
    low.dropLast.map (fun b => (b, b)) ++ [(low.getLastD 0, high.headD 0)] ++
      (high.drop 1).map fun b => (b, b)

/-- The byte lies in one of the ranges. -/
def inRanges (ranges : List (Char × Char)) (b : UInt8) : Bool :=
  (ranges.flatMap byteRanges).any fun (low, high) => low ≤ b && b ≤ high

mutual
/-- The pattern stands for nothing at all: it is made of groups without alternatives. -/
def vacuous : List Token → Bool
  | [] => true
  | .oneOf alternatives :: rest => allVacuous alternatives && vacuous rest
  | _ :: _ => false

/-- All the patterns stand for nothing at all. -/
def allVacuous : List (List Token) → Bool
  | [] => true
  | tokens :: rest => vacuous tokens && allVacuous rest
end

end Glob

end EntryReport
