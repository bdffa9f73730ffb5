import EntryReport.Time.Date

/-!
# Timestamps

A `Timestamp` is an instant in universal time, to the nanosecond. A leap second is the second
before it with a second more of nanoseconds.

* `Timestamp.isoText`: the form in documents, `2024-03-09T14:05:00Z`, with as many groups of three
  decimals as the nanoseconds need;
* `Timestamp.panelText`: the form in panels, `2024-03-09 14:05:00`.

A year outside 0 to 9999 has a sign.
-/

namespace EntryReport

/-- An instant: seconds from 1970-01-01T00:00:00Z, and nanoseconds, up to two seconds of them. -/
structure Timestamp where
  seconds : Int
  nanos : Nat
deriving DecidableEq, Repr

namespace Timestamp

/-- Nanoseconds in a second. -/
def second : Nat := 1000000000

/-- Seconds in a day. -/
def daySeconds : Int := 86400

/-- The day of the instant. -/
def date (t : Timestamp) : Date :=
  Date.ofDayNumber (t.seconds / daySeconds)

/-- The seconds since the day began. -/
def secondOfDay (t : Timestamp) : Nat :=
  (t.seconds % daySeconds).toNat

/-- The number with at least `width` digits. -/
def padded (width n : Nat) : List Char :=
  let digits := Nat.toDigits 10 n
  List.replicate (width - digits.length) '0' ++ digits

/-- The year, with four digits at least, and a sign outside 0 to 9999. -/
def yearText (year : Int) : List Char :=
  if 0 ≤ year && year ≤ 9999 then padded 4 year.toNat
  else (if year < 0 then '-' else '+') :: padded 4 year.natAbs

/-- The date and the time of day, with `separator` between them. -/
def dateTimeText (separator : Char) (t : Timestamp) : List Char :=
  let d := t.date
  let s := t.secondOfDay
  yearText d.year ++ '-' :: (padded 2 d.month ++ '-' :: (padded 2 d.day ++ separator ::
    (padded 2 (s / 3600) ++ ':' :: (padded 2 (s / 60 % 60) ++ ':' ::
      padded 2 (s % 60 + t.nanos / second)))))

/-- The decimals of the second, with the point: none, three, six or nine digits. -/
def fractionText (nanos : Nat) : List Char :=
  if nanos = 0 then []
  else if nanos % 1000000 = 0 then '.' :: padded 3 (nanos / 1000000)
  else if nanos % 1000 = 0 then '.' :: padded 6 (nanos / 1000)
  else '.' :: padded 9 nanos

/-- The form in documents. -/
def isoText (t : Timestamp) : String :=
  String.ofList (t.dateTimeText 'T' ++ fractionText (t.nanos % second) ++ ['Z'])

/-- The form in panels. -/
def panelText (t : Timestamp) : String :=
  String.ofList (t.dateTimeText ' ')

end Timestamp

end EntryReport
