import EntryReport.Number.Binary64

/-!
# Numerals

A numeral is a sign, the digits before and after the point, and an exponent. Its value is an
integer where the numeral has neither point nor exponent and the integer fits in 64 bits, and a
floating point number otherwise.

The digits of a long numeral are kept as long as they fit in 64 bits; the others only move the
point. The number is then one multiplication or division by a power of ten away, which rounds a
second time. A numeral past the greatest number has no value.
-/

namespace EntryReport

/-- The value of a numeral. -/
inductive Number where
  | int (value : Int)
  | float (value : Binary64)
deriving DecidableEq, Repr

/-- The exponent part of a numeral. -/
structure Exponent where
  negative : Bool
  digits : List Nat
deriving DecidableEq, Repr

/-- A number as it is written: digits are between 0 and 9, and a numeral without a point has no
digits after it. -/
structure Numeral where
  negative : Bool
  whole : List Nat
  decimals : List Nat
  exponent : Option Exponent
deriving DecidableEq, Repr

namespace Numeral

/-- The largest integer of 64 bits. -/
def wordMax : Nat := Nat.pow 2 64 - 1

/-- The digits appended to `start` as long as the result fits in 64 bits, and the digits left. -/
def keep (start : Nat) : List Nat → Nat × List Nat
  | [] => (start, [])
  | d :: ds => if start * 10 + d ≤ wordMax then keep (start * 10 + d) ds else (start, d :: ds)

/-- The number of a list of digits. -/
def ofDigits (ds : List Nat) : Nat :=
  ds.foldl (fun n d => n * 10 + d) 0

/-- The power of ten as a floating point number. -/
def powerOfTen (k : Nat) : Magnitude :=
  (Magnitude.nearest (Nat.pow 10 k) 1).getD Magnitude.zero

/-- The value `x · 10 ^ exponent`. Exponents past 308 are taken in steps: downwards until the
number is zero, upwards never, as only zero stays in range. -/
def scale (x : Magnitude) (exponent : Int) : Option Magnitude :=
  if 308 < exponent then if x.significand = 0 then some x else none
  else if 0 ≤ exponent then x.mul (powerOfTen exponent.toNat)
  else if -308 ≤ exponent then x.div (powerOfTen (-exponent).toNat)
  else if x.significand = 0 then some x
  else do scale (← x.div (powerOfTen 308)) (exponent + 308)
termination_by exponent.natAbs
decreasing_by omega

/-- The largest exponent that is read as such. -/
def exponentMax : Nat := Nat.pow 2 31 - 1

/-- The magnitude `significand · 10 ^ shift` times the exponent part. -/
def magnitude (significand : Nat) (shift : Int) : Option Exponent → Option Magnitude
  | none => do scale (← Magnitude.nearest significand 1) shift
  | some e =>
    let n := ofDigits e.digits
    if exponentMax < n then
      if significand ≠ 0 && !e.negative then none else some Magnitude.zero
    else do
      scale (← Magnitude.nearest significand 1) (if e.negative then shift - n else shift + n)

/-- The value of a numeral; `none` if it is out of range. -/
def value (n : Numeral) : Option Number :=
  let (whole, dropped) := keep 0 n.whole
  let integral := dropped.isEmpty && n.decimals.isEmpty && n.exponent.isNone
  if integral && !n.negative then some (.int whole)
  else if integral && 0 < whole && whole ≤ Nat.pow 2 63 then some (.int (-whole))
  else
    let (significand, left) := keep whole n.decimals
    let shift : Int := (dropped.length : Int) - (n.decimals.length - left.length : Nat)
    (magnitude significand shift n.exponent).map fun m => .float ⟨n.negative, m⟩

end Numeral

end EntryReport
