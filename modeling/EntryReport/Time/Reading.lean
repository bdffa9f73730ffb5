import EntryReport.Time.Timestamp
import EntryReport.Text.Blank

/-!
# Reading timestamps

`Timestamp.read` reads a date, a time of day and an offset from universal time:
`2024-03-09T14:05:00.25+01:00`. Blanks may stand around every part, numbers need no zeros in
front, and a year with a sign may have any number of digits. The date and the time are set apart
by `T`, `t` or one space. The offset is `Z`, `z`, `UTC` in any case, or a sign, two digits of
hours, colons or blanks, and two digits of minutes; it is less than a day.

Second 60 is a leap second. Decimals past the ninth are dropped.

Each reader takes its part off the front of the characters and gives the rest, or the first problem
(`Timestamp.Misfit`). Months, days, hours, minutes and seconds are checked as they are read; whether
the date exists shows when everything is read.
-/

namespace EntryReport.Timestamp

open EntryReport.Text

/-- Why a text is no timestamp. -/
inductive Misfit where
  | tooShort
  | tooLong
  | badCharacter
  | outOfRange
  | beyondTime
deriving DecidableEq, Repr

/-- The problem in words. -/
def Misfit.message : Misfit → String
  | tooShort => "premature end of input"
  | tooLong => "trailing input"
  | badCharacter => "input contains invalid characters"
  | outOfRange => "input is out of range"
  | beyondTime => "no possible date and time matching input"

/-- Takes a part off the front of the characters. -/
abbrev Reader (α : Type) := List Char → Except Misfit (α × List Char)

/-- The problem with characters that do not begin with what is expected. -/
def unexpected {α : Type} : List Char → Except Misfit α
  | [] => .error .tooShort
  | _ => .error .badCharacter

/-- The number of a list of decimal digits. -/
def digitsValue (ds : List Char) : Nat :=
  ds.foldl (fun n c => n * 10 + (c.toNat - 48)) 0

/-- The digits at the front, up to a number of them. -/
def takeDigits (most : Nat) (cs : List Char) : List Char :=
  (cs.take most).takeWhile Char.isDigit

/-- The number, if it lies between two others. -/
def within (least greatest n : Int) : Except Misfit Int :=
  if least ≤ n && n ≤ greatest then .ok n else .error .outOfRange

/-- A number of one up to `most` digits, of at most 63 bits. -/
def number (most : Nat) : Reader Nat := fun cs =>
  match takeDigits most cs with
  | [] => unexpected cs
  | ds =>
    if digitsValue ds < Nat.pow 2 63 then .ok (digitsValue ds, cs.drop ds.length)
    else .error .outOfRange

/-- A number of two digits at most between two others, after blanks. -/
def field (least greatest : Nat) : Reader Nat := fun cs => do
  let (n, rest) ← number 2 (trimStart cs)
  if least ≤ n && n ≤ greatest then return (n, rest) else throw .outOfRange

/-- A year after blanks: four digits at most, or any number of them after a sign. It has at most
31 bits. -/
def year : Reader Int := fun cs => do
  let (n, rest) ←
    match trimStart cs with
    | '-' :: cs => (number cs.length cs).map fun (n, rest) => (-(n : Int), rest)
    | '+' :: cs => (number cs.length cs).map fun (n, rest) => ((n : Int), rest)
    | cs => (number 4 cs).map fun (n, rest) => ((n : Int), rest)
  return (← within (-2147483648) 2147483647 n, rest)

/-- The character `c`, with blanks around it. -/
def separator (c : Char) (cs : List Char) : Except Misfit (List Char) :=
  match trimStart cs with
  | [] => .error .tooShort
  | d :: rest => if c = d then .ok (trimStart rest) else .error .badCharacter

/-- A date. -/
def dateParts : Reader (Int × Nat × Nat) := fun cs => do
  let (y, cs) ← year cs
  let cs ← separator '-' cs
  let (m, cs) ← field 1 12 cs
  let cs ← separator '-' cs
  let (d, cs) ← field 1 31 cs
  return ((y, m, d), cs)

/-- What sets the time apart from the date. -/
def timeMark : List Char → Except Misfit (List Char)
  | c :: rest => if c = 'T' || c = 't' || c = ' ' then .ok rest else .error .badCharacter
  | [] => .error .tooShort

/-- The decimals of a second in nanoseconds, if there are any. -/
def fraction : Reader Nat
  | '.' :: cs =>
    match takeDigits 9 cs with
    | [] => unexpected cs
    | ds => .ok (digitsValue ds * Nat.pow 10 (9 - ds.length), cs.dropWhile Char.isDigit)
  | cs => .ok (0, cs)

/-- A time of day: hour, minute, second and nanoseconds. -/
def timeParts : Reader (Nat × Nat × Nat × Nat) := fun cs => do
  let (h, cs) ← field 0 23 cs
  let cs ← separator ':' cs
  let (m, cs) ← field 0 59 cs
  let cs ← separator ':' cs
  let (s, cs) ← field 0 60 cs
  let (n, cs) ← fraction cs
  return ((h, m, s, n), cs)

/-- Two digits. A single character is too short for them only if it takes a single byte. -/
def twoDigits : Reader Nat
  | [] => .error .tooShort
  | [c] => .error (if c.utf8Size = 1 then .tooShort else .badCharacter)
  | a :: b :: rest =>
    if a.isDigit && b.isDigit then .ok (digitsValue [a, b], rest) else .error .badCharacter

/-- The sign of an offset. -/
def offsetSign : Reader Int
  | '+' :: rest => .ok (1, rest)
  | '-' :: rest => .ok (-1, rest)
  | '−' :: rest => .ok (-1, rest)
  | cs => unexpected cs

/-- The word `UTC` at the front, in any case. -/
def afterUtc? : List Char → Option (List Char)
  | a :: b :: c :: rest => if [a, b, c].map Char.toUpper = ['U', 'T', 'C'] then some rest else none
  | _ => none

/-- An offset in seconds. -/
def offset : Reader Int := fun cs =>
  match afterUtc? cs with
  | some rest => .ok (0, rest)
  | none =>
    match cs with
    | 'Z' :: rest => .ok (0, rest)
    | 'z' :: rest => .ok (0, rest)
    | _ => do
      let (sign, cs) ← offsetSign cs
      let (h, cs) ← twoDigits cs
      let (m, cs) ← twoDigits (cs.dropWhile fun c => c = ':' || isBlank c)
      if m < 60 then return (sign * (h * 3600 + m * 60 : Nat), cs) else throw .outOfRange

/-- The instant of a date and a time of day at an offset. -/
def ofParts (date : Date) (h m s n : Nat) (offset : Int) : Except Misfit Timestamp :=
  if offset.natAbs < 86400 then
    let seconds := date.dayNumber * daySeconds + (h * 3600 + m * 60 + min s 59 : Nat) - offset
    let t : Timestamp := ⟨seconds, if s = 60 then n + second else n⟩
    if Date.yearInRange t.date.year then .ok t else .error .beyondTime
  else .error .outOfRange

/-- The instant that a text gives. -/
def read (s : String) : Except Misfit Timestamp := do
  let ((y, mo, d), cs) ← dateParts s.toList
  let cs ← timeMark cs
  let ((h, mi, sec, n), cs) ← timeParts cs
  let (off, cs) ← offset (trimStart cs)
  if !(trimStart cs).isEmpty then throw .tooLong
  match Date.ofParts? y mo d with
  | some date => ofParts date h mi sec n off
  | none => throw .outOfRange

end EntryReport.Timestamp
