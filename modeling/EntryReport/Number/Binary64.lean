/-!
# Binary floating point numbers of 64 bits

`Binary64` is a finite number `± significand · 2 ^ exponent` with a significand below `2 ^ 53`.
Arithmetic is exact on the fractions behind the numbers and rounds once, to the nearest number and
to the even significand on a tie.

* `roundDiv`: a quotient rounded to the nearest integer;
* `Magnitude.nearest`: the number nearest to a fraction, if it is in range;
* `Magnitude.add`, `Magnitude.mul`, `Magnitude.div`: the rounded sum, product and quotient;
* `Magnitude.below`: the order of the numbers.
-/

namespace EntryReport

/-- The integer nearest to `n / d`, the even one of two. -/
def roundDiv (n d : Nat) : Nat :=
  let q := n / d
  let twice := 2 * (n % d)
  if d < twice || (twice == d && q % 2 == 1) then q + 1 else q

/-- A number without its sign: `significand · 2 ^ exponent`. -/
structure Magnitude where
  significand : Nat
  exponent : Int
deriving DecidableEq, Repr

namespace Magnitude

/-- The least exponent; zero is written with it. -/
def leastExponent : Int := -1074

/-- The greatest exponent of a finite number. -/
def greatestExponent : Int := 971

/-- Zero. -/
def zero : Magnitude := ⟨0, leastExponent⟩

/-- The number as a fraction: numerator and denominator. -/
def fraction (x : Magnitude) : Nat × Nat :=
  if 0 ≤ x.exponent then (x.significand * Nat.pow 2 x.exponent.toNat, 1)
  else (x.significand, Nat.pow 2 (-x.exponent).toNat)

/-- The multiple of `2 ^ exponent` nearest to `num / den`, as a count. -/
def countAt (num den : Nat) (exponent : Int) : Nat :=
  if 0 ≤ exponent then roundDiv num (den * Nat.pow 2 exponent.toNat)
  else roundDiv (num * Nat.pow 2 (-exponent).toNat) den

/-- Whether `num / den` lies below `2 ^ 52` multiples of `2 ^ exponent`. -/
def belowNormal (num den : Nat) (exponent : Int) : Bool :=
  if 0 ≤ exponent then num < den * Nat.pow 2 exponent.toNat * Nat.pow 2 52
  else num * Nat.pow 2 (-exponent).toNat < den * Nat.pow 2 52

/-- The exponent at which `num / den` has a significand of 53 bits, or the least one. -/
def exponentFor (num den : Nat) : Int :=
  let guess : Int := (num.log2 : Int) - den.log2 - 52
  max leastExponent (if belowNormal num den guess then guess - 1 else guess)

/-- The number nearest to `num / den`; `none` if that is past the greatest number. -/
def nearest (num den : Nat) : Option Magnitude :=
  if num = 0 then some zero
  else
    let e := exponentFor num den
    let q := countAt num den e
    let x : Magnitude := if q = Nat.pow 2 53 then ⟨Nat.pow 2 52, e + 1⟩ else ⟨q, e⟩
    if x.significand = 0 then some zero
    else if greatestExponent < x.exponent then none
    else some x

/-- The rounded sum. -/
def add (x y : Magnitude) : Option Magnitude :=
  nearest (x.fraction.1 * y.fraction.2 + y.fraction.1 * x.fraction.2)
    (x.fraction.2 * y.fraction.2)

/-- The rounded product. -/
def mul (x y : Magnitude) : Option Magnitude :=
  nearest (x.fraction.1 * y.fraction.1) (x.fraction.2 * y.fraction.2)

/-- The rounded quotient. -/
def div (x y : Magnitude) : Option Magnitude :=
  nearest (x.fraction.1 * y.fraction.2) (x.fraction.2 * y.fraction.1)

/-- The one number is less than the other. -/
def below (x y : Magnitude) : Bool :=
  x.fraction.1 * y.fraction.2 < y.fraction.1 * x.fraction.2

end Magnitude

/-- A finite floating point number of 64 bits. Zero has both signs. -/
structure Binary64 where
  negative : Bool
  magnitude : Magnitude
deriving DecidableEq, Repr

end EntryReport
