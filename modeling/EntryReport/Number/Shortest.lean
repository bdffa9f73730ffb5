import EntryReport.Number.Binary64

/-!
# The shortest decimal text of a floating point number

`Magnitude.shortest` finds the fewest decimal digits that read back as the number: on the grid of
numbers with `n` digits it tests the two neighbours of the number, for `n = 1, 2, …`; of two that
read back it takes the nearer, and the even one on a tie.

`Binary64.text` lays the digits out: positional from `1e-5` up to below `1e16`, always with a digit
after the point; otherwise one digit before the point and an exponent with its sign.
-/

namespace EntryReport

/-- Decimal digits with the place of the point: `0.d₁d₂… · 10 ^ point`. -/
structure Decimal where
  digits : Nat
  point : Int
deriving DecidableEq, Repr

namespace Magnitude

/-- The interval of reals that round to the number, over four times its denominator: low end, the
number, high end, denominator. The gap below a power of two is half as wide. -/
def interval (x : Magnitude) : Nat × Nat × Nat × Nat :=
  let below := if x.significand = Nat.pow 2 52 && leastExponent < x.exponent then 1 else 2
  let scaled (n : Nat) : Nat := if 0 ≤ x.exponent then n * Nat.pow 2 x.exponent.toNat else n
  let den := if 0 ≤ x.exponent then 4 else 4 * Nat.pow 2 (-x.exponent).toNat
  (scaled (4 * x.significand - below), scaled (4 * x.significand),
    scaled (4 * x.significand + 2), den)

/-- The sides of comparing `num / den` with `count · 10 ^ unit`, as integers. -/
def crossed (num den count : Nat) (unit : Int) : Nat × Nat :=
  if 0 ≤ unit then (num, count * Nat.pow 10 unit.toNat * den)
  else (num * Nat.pow 10 (-unit).toNat, count * den)

/-- The decimal point stands so that `num / den` is below `10 ^ point` and not below a tenth of
it. -/
def pointFor (num den : Nat) : Int :=
  let least : Int := (((num.log2 : Int) - den.log2 - 1) * 30103).fdiv 100000
  let below (k : Int) : Bool := let (n, bound) := crossed num den 1 k; n < bound
  ([least, least + 1, least + 2].find? below).getD (least + 3)

/-- Whether `count · 10 ^ unit` rounds to the number. -/
def readsBack (x : Magnitude) (count : Nat) (unit : Int) : Bool :=
  let (low, _, high, den) := x.interval
  let (l, c) := crossed low den count unit
  let (h, _) := crossed high den count unit
  if x.significand % 2 = 0 then l ≤ c && c ≤ h else l < c && c < h

/-- The decimal with `n` digits that reads back, if there is one. -/
def withDigits (x : Magnitude) (point : Int) (n : Nat) : Option Nat :=
  let (_, value, _, den) := x.interval
  let unit : Int := point - n
  let (v, one) := crossed value den 1 unit
  let below := v / one
  match x.readsBack below unit, x.readsBack (below + 1) unit with
  | true, true =>
    let rest := 2 * (v % one)
    some (if rest < one || (rest == one && below % 2 == 0) then below else below + 1)
  | true, false => some below
  | false, true => some (below + 1)
  | false, false => none

/-- The digits without the zeros at their end, from at most `n` digits. -/
def dropZeros : Nat → Nat → Nat
  | 0, digits => digits
  | n + 1, digits => if digits != 0 && digits % 10 == 0 then dropZeros n (digits / 10) else digits

/-- The shortest decimal that reads back as the number. -/
def shortest (x : Magnitude) : Decimal :=
  let (_, value, _, den) := x.interval
  let point := pointFor value den
  match (List.range' 1 17).findSome? fun n => (x.withDigits point n).map fun c => (n, c) with
  | some (n, c) => ⟨dropZeros n c, if c = Nat.pow 10 n then point + 1 else point⟩
  | none => ⟨0, 0⟩

end Magnitude

/-- The text of a decimal that is not zero. -/
def Decimal.text (d : Decimal) : List Char :=
  let digits := Nat.toDigits 10 d.digits
  let count : Int := digits.length
  if 0 < d.point && d.point ≤ 16 then
    if count ≤ d.point then digits ++ List.replicate (d.point - count).toNat '0' ++ ['.', '0']
    else digits.take d.point.toNat ++ '.' :: digits.drop d.point.toNat
  else if -5 < d.point && d.point ≤ 0 then
    ['0', '.'] ++ List.replicate (-d.point).toNat '0' ++ digits
  else
    let exponent := d.point - 1
    let fraction := match digits.drop 1 with
      | [] => []
      | rest => '.' :: rest
    digits.take 1 ++ fraction ++ ['e', if exponent < 0 then '-' else '+'] ++
      Nat.toDigits 10 exponent.natAbs

/-- The shortest text that reads back as the number. -/
def Binary64.text (x : Binary64) : List Char :=
  let plain := if x.magnitude.significand = 0 then ['0', '.', '0'] else x.magnitude.shortest.text
  if x.negative then '-' :: plain else plain

end EntryReport
