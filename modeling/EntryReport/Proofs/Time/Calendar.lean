import EntryReport.Time.Date
import Mathlib.Tactic.IntervalCases

/-!
# Days and their dates

`Date.ofDayNumber` gives a date that exists (`ofParts?_ofDayNumber`), and `Date.dayNumber` counts
the days to it again (`dayNumber_ofDayNumber`).

Both follow the cycles of the calendar. A day of a cycle of 400 years lies in one of its four
centuries, one of the 25 times four years in that, and one of these (`CycleDay`); only the last
year of each has a 366th day. Years begin in March here.
-/

namespace EntryReport.Date

/-! ## Days of a cycle -/

/-- The day `n` of a cycle is the day `days` of a year, behind whole centuries, times of four years
and years. -/
structure CycleDay (n centuries fours years days : Nat) : Prop where
  eq : n = 36524 * centuries + 1461 * fours + 365 * years + days
  centuries_le : centuries ≤ 3
  fours_le : fours ≤ 24
  years_le : years ≤ 3
  days_le : days ≤ 365
  last : days = 365 → years = 3 ∧ (fours < 24 ∨ centuries = 3)

theorem exists_cycleDay {n : Nat} (h : n < 146097) : ∃ c f y d, CycleDay n c f y d := by
  obtain ⟨c, r, hn, hc, hr⟩ : ∃ c r, n = 36524 * c + r ∧ c ≤ 3 ∧
      (r < 36524 ∨ (c = 3 ∧ r = 36524)) :=
    ⟨min (n / 36524) 3, n - 36524 * min (n / 36524) 3, by omega, by omega, by omega⟩
  obtain ⟨f, s, hr', hs⟩ : ∃ f s, r = 1461 * f + s ∧ s < 1461 :=
    ⟨r / 1461, r % 1461, by omega, by omega⟩
  obtain ⟨y, d, hs', hy, hd⟩ : ∃ y d, s = 365 * y + d ∧ y ≤ 3 ∧ (d < 365 ∨ (y = 3 ∧ d = 365)) :=
    ⟨min (s / 365) 3, s - 365 * min (s / 365) 3, by omega, by omega, by omega⟩
  exact ⟨c, f, y, d, by omega, hc, by omega, hy, by omega, by omega⟩

variable {n c f y d : Nat}

/-- The year of a day. The corrections leave less than a year behind whole years: a day of the
year, less one if the leap days in front of it make up for it. -/
theorem CycleDay.yearOfCycle (h : CycleDay n c f y d) :
    (n - n / 1460 + n / 36524 - n / 146096) / 365 = 100 * c + 4 * f + y := by
  obtain ⟨hn, hc, hf, hy, hd, hlast⟩ := h
  have hfours : n / 1460 = 25 * c + f + (24 * c + f + 365 * y + d) / 1460 := by omega
  have hcenturies : n / 36524 - n / 146096 = c := by omega
  have hfew : n / 1460 ≤ n := by omega
  have hfewer : n / 146096 ≤ n / 36524 := by omega
  have hleft : (24 * c + f + 365 * y + d) / 1460 ≤ d := by omega
  have hless : d - (24 * c + f + 365 * y + d) / 1460 < 365 := by
    rcases Nat.lt_or_ge d 365 with hlt | hge
    · exact Nat.lt_of_le_of_lt (Nat.sub_le _ _) hlt
    · obtain rfl : d = 365 := by omega
      obtain rfl : y = 3 := (hlast rfl).1
      omega
  have hsum : n - n / 1460 + n / 36524 - n / 146096 =
      365 * (100 * c + 4 * f + y) + (d - (24 * c + f + 365 * y + d) / 1460) := by omega
  rw [hsum]
  omega

/-- The days of a cycle in front of a year. -/
theorem CycleDay.yearStart (h : CycleDay n c f y d) :
    365 * (100 * c + 4 * f + y) + (100 * c + 4 * f + y) / 4 - (100 * c + 4 * f + y) / 100 =
      36524 * c + 1461 * f + 365 * y := by
  obtain ⟨-, hc, hf, hy, -, -⟩ := h
  have hfours : (100 * c + 4 * f + y) / 4 = 25 * c + f := by omega
  have hhundreds : (100 * c + 4 * f + y) / 100 = c := by omega
  rw [hfours, hhundreds]
  omega

/-- The day in terms of its year. -/
theorem CycleDay.eq_of_year (h : CycleDay n c f y d) {yearOfCycle : Nat}
    (hy : 100 * c + 4 * f + y = yearOfCycle) :
    (n : Int) = yearOfCycle * 365 + yearOfCycle / 4 - yearOfCycle / 100 + d := by
  have heq := h.eq
  have hstart := h.yearStart
  rw [hy] at hstart
  omega

/-- Only a year that ends with a leap day has a 366th day. -/
theorem CycleDay.isLeap (h : CycleDay n c f y d) (cycle : Int) (hd : d = 365) :
    isLeap (cycle * 400 + (100 * c + 4 * f + y : Nat) + 1) = true := by
  obtain ⟨rfl, hcentury⟩ := h.last hd
  have hf := h.fours_le
  have hfour : (cycle * 400 + (100 * c + 4 * f + 3 : Nat) + 1) % 4 = 0 := by omega
  have hhundred : (cycle * 400 + (100 * c + 4 * f + 3 : Nat) + 1) % 100 ≠ 0 ∨
      (cycle * 400 + (100 * c + 4 * f + 3 : Nat) + 1) % 400 = 0 := by
    rcases Nat.lt_or_ge f 24 with hlt | hge
    · left
      omega
    · right
      obtain rfl : c = 3 := by omega
      obtain rfl : f = 24 := by omega
      omega
  simp only [Date.isLeap, hfour, beq_self_eq_true, Bool.true_and, Bool.or_eq_true, bne_iff_ne,
    beq_iff_eq]
  exact hhundred

/-! ## Days of a year -/

/-- The date of a day of a year that begins in March. -/
def ofDayOfYear (year : Int) (dayOfYear : Nat) : Date :=
  let monthFromMarch := (5 * dayOfYear + 2) / 153
  let month := if monthFromMarch < 10 then monthFromMarch + 3 else monthFromMarch - 9
  ⟨if month ≤ 2 then year + 1 else year, month, dayOfYear - (153 * monthFromMarch + 2) / 5 + 1⟩

variable {year : Int} {m : Nat}

/-- The day lies in one of twelve months from March. -/
theorem exists_month (year : Int) (hd : d ≤ 365) : ∃ m ≤ 11, (153 * m + 2) / 5 ≤ d ∧
    d < (153 * (m + 1) + 2) / 5 ∧ ofDayOfYear year d =
      ⟨if m < 10 then year else year + 1, if m < 10 then m + 3 else m - 9,
        d - (153 * m + 2) / 5 + 1⟩ := by
  refine ⟨(5 * d + 2) / 153, by omega, by omega, by omega, ?_⟩
  rcases Nat.lt_or_ge ((5 * d + 2) / 153) 10 with h | h
  · simp [ofDayOfYear, h]
  · have hlate : ¬ (5 * d + 2) / 153 < 10 := by omega
    have hearly : (5 * d + 2) / 153 - 9 ≤ 2 := by omega
    simp only [ofDayOfYear, if_neg hlate, if_pos hearly]

/-- No month is longer than it may be; February has a 29th day if the year has a 366th. -/
theorem day_le_monthLength (hm : m ≤ 11) (hd : d ≤ 365) (hnext : d < (153 * (m + 1) + 2) / 5)
    (hleap : d = 365 → isLeap (year + 1) = true) :
    d - (153 * m + 2) / 5 + 1 ≤
      monthLength (if m < 10 then year else year + 1) (if m < 10 then m + 3 else m - 9) := by
  rcases Nat.lt_or_ge m 11 with h | h
  · interval_cases m <;> simp [monthLength] <;> omega
  · obtain rfl : m = 11 := by omega
    by_cases hlast : d = 365
    · simp [monthLength, hlast, hleap hlast]
    · have hlength : 28 ≤ monthLength (year + 1) 2 := by
        unfold monthLength
        rw [if_pos rfl]
        split <;> decide
      have hday : d - (153 * 11 + 2) / 5 + 1 ≤ 28 := by omega
      exact Nat.le_trans hday hlength

/-- There is such a day, unless the year is out of range. -/
theorem ofParts?_ofDayOfYear (hd : d ≤ 365) (hleap : d = 365 → isLeap (year + 1) = true)
    (hrange : yearInRange (ofDayOfYear year d).year = true) :
    ofParts? (ofDayOfYear year d).year (ofDayOfYear year d).month (ofDayOfYear year d).day =
      some (ofDayOfYear year d) := by
  obtain ⟨m, hm, hstart, hnext, heq⟩ := exists_month year hd
  have hday := day_le_monthLength hm hd hnext hleap
  have hmonth : 1 ≤ (if m < 10 then m + 3 else m - 9) ∧ (if m < 10 then m + 3 else m - 9) ≤ 12 := by
    split <;> omega
  rw [heq] at hrange ⊢
  refine if_pos ?_
  simp [hrange, hmonth.1, hmonth.2, hday]

theorem dayNumber_ofDayOfYear (cycle : Int) {yearOfCycle : Nat} (hy : yearOfCycle < 400)
    (hd : d ≤ 365) :
    dayNumber (ofDayOfYear (cycle * 400 + yearOfCycle) d) =
      cycle * 146097 + (yearOfCycle * 365 + yearOfCycle / 4 - yearOfCycle / 100 + d) - 719468 := by
  obtain ⟨m, hm, hstart, hnext, heq⟩ := exists_month (cycle * 400 + yearOfCycle) hd
  have hyear : (if (if m < 10 then m + 3 else m - 9) ≤ 2 then
      (if m < 10 then cycle * 400 + yearOfCycle else cycle * 400 + yearOfCycle + 1) - 1
      else if m < 10 then cycle * 400 + yearOfCycle else cycle * 400 + yearOfCycle + 1) =
        cycle * 400 + yearOfCycle := by
    split <;> split <;> omega
  have hmonth : ((if m < 10 then m + 3 else m - 9) + 9) % 12 = m := by
    split <;> omega
  have hcycle : (cycle * 400 + yearOfCycle) / 400 = cycle := by omega
  have hmod : (cycle * 400 + yearOfCycle) % 400 = yearOfCycle := by omega
  have hday : (153 * (m : Int) + 2) / 5 + (d - (153 * m + 2) / 5 + 1 : Nat) - 1 = d := by omega
  rw [heq]
  simp only [dayNumber, hyear, hmonth, hcycle, hmod, hday]

/-- The month and the day of a date that exists. -/
theorem le_of_ofParts? {month day : Nat} {date : Date} (h : ofParts? year month day = some date) :
    (1 ≤ month ∧ month ≤ 12) ∧ 1 ≤ day ∧ day ≤ 31 := by
  have hlength : monthLength year month ≤ 31 := by
    unfold monthLength
    split
    · split <;> decide
    · split <;> decide
  unfold ofParts? at h
  split at h
  next hparts =>
    simp only [Bool.and_eq_true, decide_eq_true_eq] at hparts
    omega
  · cases h

/-! ## Days of all time -/

/-- A count of days is that of a day of a year. -/
theorem exists_dayOfYear (count : Int) : ∃ (cycle : Int) (yearOfCycle dayOfYear : Nat),
    yearOfCycle < 400 ∧ dayOfYear ≤ 365 ∧
    (dayOfYear = 365 → isLeap (cycle * 400 + yearOfCycle + 1) = true) ∧
    count = cycle * 146097 +
      (yearOfCycle * 365 + yearOfCycle / 4 - yearOfCycle / 100 + dayOfYear) - 719468 ∧
    ofDayNumber count = ofDayOfYear (cycle * 400 + yearOfCycle) dayOfYear := by
  obtain ⟨n, hn⟩ : ∃ n, n = ((count + 719468) % 146097).toNat := ⟨_, rfl⟩
  have hcount : count = (count + 719468) / 146097 * 146097 + n - 719468 := by omega
  obtain ⟨c, f, y, d, h⟩ := exists_cycleDay (n := n) (by omega)
  obtain ⟨yearOfCycle, hy⟩ : ∃ yearOfCycle, 100 * c + 4 * f + y = yearOfCycle := ⟨_, rfl⟩
  have hyear := h.yearOfCycle
  have hstart := h.yearStart
  have hleap := h.isLeap ((count + 719468) / 146097)
  rw [h.eq_of_year hy] at hcount
  obtain ⟨heq, hc, hf, hyears, hd, -⟩ := h
  have hless : yearOfCycle < 400 := by omega
  have hdays : n - (36524 * c + 1461 * f + 365 * y) = d := by omega
  rw [hy] at hyear hstart hleap
  refine ⟨(count + 719468) / 146097, yearOfCycle, d, hless, hd, hleap, hcount, ?_⟩
  simp only [ofDayNumber, ← hn, hyear, hstart, hdays]
  rfl

/-- **The day of every count exists,** unless its year is out of range. -/
theorem ofParts?_ofDayNumber {count : Int} (h : yearInRange (ofDayNumber count).year = true) :
    ofParts? (ofDayNumber count).year (ofDayNumber count).month (ofDayNumber count).day =
      some (ofDayNumber count) := by
  obtain ⟨cycle, yearOfCycle, d, -, hd, hleap, -, heq⟩ := exists_dayOfYear count
  rw [heq] at h ⊢
  exact ofParts?_ofDayOfYear hd hleap h

/-- **The days to the date of a count** are so many. -/
theorem dayNumber_ofDayNumber (count : Int) : dayNumber (ofDayNumber count) = count := by
  obtain ⟨cycle, yearOfCycle, d, hy, hd, -, hcount, heq⟩ := exists_dayOfYear count
  rw [heq, dayNumber_ofDayOfYear cycle hy hd, hcount]

/-- The leap day at the end of a cycle. -/
example : ofDayNumber 11016 = ⟨2000, 2, 29⟩ := by decide

end EntryReport.Date
