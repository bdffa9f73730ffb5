/-!
# Positions in a text

A `Position` is a line, from 1 on, and the number of bytes that stand before it on that line.
`Position.ofOffset` finds the position that a number of bytes of a text stand in front of; it may
lie inside a character.
-/

namespace EntryReport.Text

/-- A place in a text. -/
structure Position where
  line : Nat
  column : Nat
deriving DecidableEq, Repr

namespace Position

/-- The place in front of a text. -/
def start : Position := ⟨1, 0⟩

/-- The place after a character. -/
def next (p : Position) (c : Char) : Position :=
  if c = '\n' then ⟨p.line + 1, 0⟩ else ⟨p.line, p.column + c.utf8Size⟩

/-- The place a number of bytes further on in the characters that follow. -/
def advance (p : Position) : List Char → (offset : Nat) → Position
  | [], _ => p
  | c :: cs, offset =>
    if c.utf8Size ≤ offset then advance (p.next c) cs (offset - c.utf8Size)
    else ⟨p.line, p.column + offset⟩

/-- The place that a number of bytes stand in front of. -/
def ofOffset (cs : List Char) (offset : Nat) : Position :=
  start.advance cs offset

/-- No byte stands in front of the start. -/
theorem ofOffset_zero (cs : List Char) : ofOffset cs 0 = start := by
  cases cs with
  | nil => rfl
  | cons c cs => simp [ofOffset, advance, start, Nat.not_le.2 c.utf8Size_pos]

end Position

/-- The number of bytes of a text. -/
def byteLength : List Char → Nat
  | [] => 0
  | c :: cs => c.utf8Size + byteLength cs

end EntryReport.Text
