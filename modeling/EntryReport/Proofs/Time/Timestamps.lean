import EntryReport.Proofs.Results
import EntryReport.Proofs.Time.Calendar
import EntryReport.Proofs.Time.Digits
import Mathlib.Data.List.TakeWhile
import Mathlib.Tactic.Ring

/-!
# Timestamps that were read

A timestamp that was read is `Valid`: its year is in range, and only the last second of a minute
is a leap second (`valid_of_read`). Its form in documents is read as the same timestamp again
(`read_isoText`), with all decimals and in any year.
-/

namespace EntryReport.Timestamp

open EntryReport.Text

/-- An instant that a text can give. -/
structure Valid (t : Timestamp) : Prop where
  year : Date.yearInRange t.date.year = true
  nanos_lt : t.nanos < 2 * second
  leap : second ≤ t.nanos → t.seconds % 60 = 59

variable {cs rest : List Char}

/-! ## What is read is valid -/

theorem fraction_lt {n : Nat} (h : fraction cs = .ok (n, rest)) : n < second := by
  unfold fraction at h
  split at h
  next cs =>
    split at h
    · unfold unexpected at h
      split at h <;> cases h
    next ds hne =>
      cases h
      have hlength : (takeDigits 9 cs).length ≤ 9 := by
        unfold takeDigits
        exact Nat.le_trans (List.takeWhile_sublist _).length_le (List.length_take_le _ _)
      have hdigits : ∀ c ∈ takeDigits 9 cs, c.isDigit = true := fun c hc =>
        List.mem_takeWhile_imp hc
      have hvalue := digitsValue_lt hdigits
      have hsecond : second =
          10 ^ (takeDigits 9 cs).length * Nat.pow 10 (9 - (takeDigits 9 cs).length) := by
        rw [Nat.pow_eq, ← Nat.pow_add, Nat.add_sub_cancel' hlength]
        rfl
      rw [hsecond]
      exact Nat.mul_lt_mul_of_pos_right hvalue (Nat.pow_pos (by decide))
  · cases h
    decide

/-- The decimals of a time of day make less than a second. -/
theorem nanos_lt_of_timeParts {hour minute sec n : Nat}
    (h : timeParts cs = .ok ((hour, minute, sec, n), rest)) : n < second := by
  unfold timeParts at h
  obtain ⟨⟨_, _⟩, -, h⟩ := bind_eq_ok_iff.mp h
  obtain ⟨_, -, h⟩ := bind_eq_ok_iff.mp h
  obtain ⟨⟨_, _⟩, -, h⟩ := bind_eq_ok_iff.mp h
  obtain ⟨_, -, h⟩ := bind_eq_ok_iff.mp h
  obtain ⟨⟨_, _⟩, -, h⟩ := bind_eq_ok_iff.mp h
  obtain ⟨⟨_, _⟩, hn, h⟩ := bind_eq_ok_iff.mp h
  cases h
  exact fraction_lt hn

/-- An offset is so many minutes. -/
theorem offset_mod {seconds : Int} (h : offset cs = .ok (seconds, rest)) : seconds % 60 = 0 := by
  unfold offset at h
  split at h
  · cases h
    rfl
  · split at h
    · cases h
      rfl
    · cases h
      rfl
    · obtain ⟨⟨sign, _⟩, -, h⟩ := bind_eq_ok_iff.mp h
      obtain ⟨⟨hour, _⟩, -, h⟩ := bind_eq_ok_iff.mp h
      obtain ⟨⟨minute, _⟩, -, h⟩ := bind_eq_ok_iff.mp h
      simp only at h
      split at h
      · cases h
        refine Int.emod_eq_zero_of_dvd ⟨sign * (hour * 60 + minute), ?_⟩
        push_cast
        ring
      · cases h

theorem valid_of_ofParts {date : Date} {hour minute sec n : Nat} {offset : Int} {t : Timestamp}
    (hn : n < second) (hoffset : offset % 60 = 0)
    (h : ofParts date hour minute sec n offset = .ok t) : t.Valid := by
  unfold ofParts at h
  split at h
  · simp only at h
    split at h
    next hlast =>
      split at h
      next hyear =>
        cases h
        refine ⟨hyear, ?_, fun _ => ?_⟩
        · simp only
          omega
        · simp only [hlast, daySeconds]
          omega
      · cases h
    next hbefore =>
      split at h
      next hyear =>
        cases h
        refine ⟨hyear, ?_, fun hleap => ?_⟩
        · simp only
          omega
        · exact absurd hleap (Nat.not_le.mpr hn)
      · cases h
  · cases h

/-- **A timestamp that was read is valid.** -/
theorem valid_of_read {s : String} {t : Timestamp} (h : read s = .ok t) : t.Valid := by
  unfold read at h
  obtain ⟨⟨⟨y, mo, d⟩, cs₁⟩, hdate, h⟩ := bind_eq_ok_iff.mp h
  obtain ⟨cs₂, hmark, h⟩ := bind_eq_ok_iff.mp h
  obtain ⟨⟨⟨hour, minute, sec, n⟩, cs₃⟩, htime, h⟩ := bind_eq_ok_iff.mp h
  obtain ⟨⟨off, cs₄⟩, hoff, h⟩ := bind_eq_ok_iff.mp h
  simp only at h
  split at h
  · cases h
  · split at h
    next date _ => exact valid_of_ofParts (nanos_lt_of_timeParts htime) (offset_mod hoff) h
    · cases h

/-! ## Reading the parts back -/

theorem trimStart_padded (width n : Nat) (rest : List Char) :
    trimStart (padded width n ++ rest) = padded width n ++ rest :=
  trimStart_digits padded_ne_nil fun _ => isDigit_of_mem_padded

theorem field_padded {least greatest n : Nat} (hleast : least ≤ n) (hgreatest : n ≤ greatest)
    (h : n < 100) : field least greatest (padded 2 n ++ rest) = .ok (n, rest) := by
  have hlength : (padded 2 n).length = 2 := length_padded (by decide) h
  rw [field, trimStart_padded, number_padded (by omega) (by omega) (.inl hlength), ok_bind]
  exact if_pos (by simp [hleast, hgreatest])

theorem separator_padded {c : Char} (hc : isBlank c = false) (width n : Nat) :
    separator c (c :: (padded width n ++ rest)) = .ok (padded width n ++ rest) := by
  have htrim : trimStart (c :: (padded width n ++ rest)) = c :: (padded width n ++ rest) :=
    List.dropWhile_cons_of_neg (by simp [hc])
  rw [separator, htrim]
  simp only [if_true, trimStart_padded]

/-- Digits do not begin with a sign. -/
theorem padded_ne_cons {c : Char} (hc : c.isDigit = false) {width n : Nat} (tail : List Char) :
    padded width n ++ rest ≠ c :: tail := by
  intro h
  cases hdigits : padded width n with
  | nil => exact padded_ne_nil hdigits
  | cons d ds =>
    rw [hdigits] at h
    obtain rfl : d = c := (List.cons.inj h).1
    have : d.isDigit = true := isDigit_of_mem_padded (hdigits ▸ List.mem_cons_self)
    rw [hc] at this
    cases this

theorem year_yearText {y : Int} (hy : Date.yearInRange y = true) (rest : List Char) :
    year (yearText y ++ '-' :: rest) = .ok (y, '-' :: rest) := by
  simp only [Date.yearInRange, Bool.and_eq_true, decide_eq_true_eq] at hy
  have hdash : NoDigitHead ('-' :: rest) := noDigitHead_cons rfl
  have hwithin : within (-2147483648) 2147483647 y = .ok y := by
    unfold within
    exact if_pos (by simp; omega)
  unfold year
  by_cases hplain : 0 ≤ y ∧ y ≤ 9999
  · have hlength : (padded 4 y.toNat).length = 4 := length_padded (by decide) (by omega)
    rw [yearText, if_pos (by simp [hplain]), trimStart_padded]
    split
    next h => exact absurd h (padded_ne_cons rfl _)
    next h => exact absurd h (padded_ne_cons rfl _)
    · rw [number_padded (by omega) (by omega) (.inl hlength)]
      simp only [Except.map, ok_bind, Int.toNat_of_nonneg hplain.1, hwithin]
      rfl
  · have hnumber : ∀ most, (padded 4 y.natAbs).length ≤ most →
        number most (padded 4 y.natAbs ++ '-' :: rest) = .ok (y.natAbs, '-' :: rest) :=
      fun most hmost => number_padded (by omega) hmost (.inr hdash)
    have hroom : (padded 4 y.natAbs).length ≤ (padded 4 y.natAbs ++ '-' :: rest).length := by
      simp
    rw [yearText, if_neg (by simpa using hplain)]
    by_cases hneg : y < 0
    · have htrim : trimStart ('-' :: padded 4 y.natAbs ++ '-' :: rest) =
          '-' :: (padded 4 y.natAbs ++ '-' :: rest) := rfl
      have habs : -(y.natAbs : Int) = y := by omega
      rw [if_pos hneg, htrim]
      simp only [hnumber _ hroom, Except.map, ok_bind, habs, hwithin]
      rfl
    · have htrim : trimStart ('+' :: padded 4 y.natAbs ++ '-' :: rest) =
          '+' :: (padded 4 y.natAbs ++ '-' :: rest) := rfl
      have habs : (y.natAbs : Int) = y := by omega
      rw [if_neg hneg, htrim]
      simp only [hnumber _ hroom, Except.map, ok_bind, habs, hwithin]
      rfl

theorem fraction_padded {width k n : Nat} (hwidth : 0 < width) (hmost : width ≤ 9)
    (hk : k < 10 ^ width) (hn : k * 10 ^ (9 - width) = n) :
    fraction ('.' :: (padded width k ++ ['Z'])) = .ok (n, ['Z']) := by
  have hend : NoDigitHead ['Z'] := noDigitHead_cons rfl
  have hdigits : ∀ c ∈ padded width k, c.isDigit = true := fun _ => isDigit_of_mem_padded
  have hlength := length_padded hwidth hk
  have htake : takeDigits 9 (padded width k ++ ['Z']) = padded width k :=
    takeDigits_append hdigits (by omega) (.inr hend)
  simp only [fraction, htake]
  split
  next hnil => exact absurd hnil padded_ne_nil
  · rw [digitsValue_padded, hlength, dropWhile_digits hdigits hend, Nat.pow_eq, hn]

/-- The decimals that are left out are zeros. -/
theorem fraction_fractionText {n : Nat} (h : n < second) :
    fraction (fractionText n ++ ['Z']) = .ok (n, ['Z']) := by
  have hsecond : second = 1000000000 := rfl
  unfold fractionText
  split
  next hzero =>
    rw [hzero]
    rfl
  · split
    · exact fraction_padded (by decide) (by decide) (by omega) (by omega)
    · split
      · exact fraction_padded (by decide) (by decide) (by omega) (by omega)
      · exact fraction_padded (by decide) (by decide) (by omega) (by omega)

/-! ## Whole texts -/

theorem dateParts_text {y : Int} {month day : Nat} (hy : Date.yearInRange y = true)
    (hmonth : 1 ≤ month ∧ month ≤ 12) (hday : 1 ≤ day ∧ day ≤ 31) :
    dateParts (yearText y ++ '-' :: (padded 2 month ++ '-' :: (padded 2 day ++ rest))) =
      .ok ((y, month, day), rest) := by
  have hdash : isBlank '-' = false := rfl
  simp only [dateParts, year_yearText hy, separator_padded hdash,
    field_padded hmonth.1 hmonth.2 (by omega), field_padded hday.1 hday.2 (by omega), ok_bind]
  rfl

theorem timeParts_text (hour minute sec n : Nat) (hhour : hour ≤ 23) (hminute : minute ≤ 59)
    (hsec : sec ≤ 60) (hn : n < second) :
    timeParts (padded 2 hour ++ ':' :: (padded 2 minute ++ ':' :: (padded 2 sec ++
      (fractionText n ++ ['Z'])))) = .ok ((hour, minute, sec, n), ['Z']) := by
  have hcolon : isBlank ':' = false := rfl
  simp only [timeParts, separator_padded hcolon, field_padded (Nat.zero_le _) hhour (by omega),
    field_padded (Nat.zero_le _) hminute (by omega), field_padded (Nat.zero_le _) hsec (by omega),
    fraction_fractionText hn, ok_bind]
  rfl

theorem secondOfDay_lt (t : Timestamp) : t.secondOfDay < 86400 := by
  unfold secondOfDay daySeconds
  omega

/-- A minute has a second 60 only in a leap second. -/
theorem Valid.second_cases {t : Timestamp} (h : t.Valid) :
    (t.nanos / second = 0 ∧ t.nanos % second = t.nanos) ∨
    (t.nanos / second = 1 ∧ t.nanos % second + second = t.nanos ∧ t.secondOfDay % 60 = 59) := by
  have hlt := h.nanos_lt
  rcases Nat.lt_or_ge t.nanos second with hshort | hlong
  · exact Or.inl ⟨Nat.div_eq_of_lt hshort, Nat.mod_eq_of_lt hshort⟩
  · have hleap := h.leap hlong
    refine Or.inr ⟨?_, ?_, ?_⟩
    · unfold second at hlt hlong ⊢
      omega
    · unfold second at hlt hlong ⊢
      omega
    · unfold secondOfDay daySeconds
      omega

/-- The parts of an instant make that instant. -/
theorem ofParts_date {t : Timestamp} (h : t.Valid) :
    ofParts t.date (t.secondOfDay / 3600) (t.secondOfDay / 60 % 60)
      (t.secondOfDay % 60 + t.nanos / second) (t.nanos % second) 0 = .ok t := by
  have hday : t.date.dayNumber = t.seconds / daySeconds := Date.dayNumber_ofDayNumber _
  have hsecond : (t.secondOfDay : Int) = t.seconds % daySeconds := by
    unfold secondOfDay daySeconds
    omega
  have hsum : t.secondOfDay / 3600 * 3600 + t.secondOfDay / 60 % 60 * 60 +
      min (t.secondOfDay % 60 + t.nanos / second) 59 = t.secondOfDay := by
    rcases h.second_cases with ⟨hzero, -⟩ | ⟨hone, -, hlast⟩ <;> omega
  have hseconds : t.date.dayNumber * daySeconds + (t.secondOfDay : Int) - 0 = t.seconds := by
    rw [hday, hsecond, Int.sub_zero, Int.ediv_mul_add_emod]
  have hnanos : (if t.secondOfDay % 60 + t.nanos / second = 60 then t.nanos % second + second
      else t.nanos % second) = t.nanos := by
    rcases h.second_cases with ⟨hzero, hshort⟩ | ⟨hone, hlong, hlast⟩
    · rw [if_neg (by omega), hshort]
    · rw [if_pos (by omega), hlong]
  unfold ofParts
  simp only [hsum, hseconds, hnanos, h.year]
  rfl

/-- **A valid timestamp is read back** from its form in documents. -/
theorem read_isoText {t : Timestamp} (h : t.Valid) : read t.isoText = .ok t := by
  have hdate : Date.ofParts? t.date.year t.date.month t.date.day = some t.date :=
    Date.ofParts?_ofDayNumber h.year
  obtain ⟨hmonth, hday⟩ := Date.le_of_ofParts? hdate
  have hlt := t.secondOfDay_lt
  have hsec : t.secondOfDay % 60 + t.nanos / second ≤ 60 := by
    rcases h.second_cases with ⟨hzero, -⟩ | ⟨hone, -, hlast⟩ <;> omega
  have htime := timeParts_text (t.secondOfDay / 3600) (t.secondOfDay / 60 % 60) _ _
    (by omega) (by omega) hsec (Nat.mod_lt t.nanos (by decide : 0 < second))
  have htext : t.isoText.toList = yearText t.date.year ++ '-' :: (padded 2 t.date.month ++ '-' ::
      (padded 2 t.date.day ++ 'T' :: (padded 2 (t.secondOfDay / 3600) ++ ':' ::
        (padded 2 (t.secondOfDay / 60 % 60) ++ ':' ::
          (padded 2 (t.secondOfDay % 60 + t.nanos / second) ++
            (fractionText (t.nanos % second) ++ ['Z'])))))) := by
    simp only [isoText, dateTimeText, String.toList_ofList, List.append_assoc, List.cons_append]
  have hmark : ∀ cs, timeMark ('T' :: cs) = .ok cs := fun _ => rfl
  have hzone : offset (trimStart ['Z']) = .ok (0, []) := rfl
  rw [read, htext, dateParts_text h.year hmonth hday]
  simp only [ok_bind, hmark, htime, hzone, hdate, ofParts_date h]
  rfl

end EntryReport.Timestamp
