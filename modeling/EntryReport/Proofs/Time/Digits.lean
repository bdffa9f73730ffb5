import EntryReport.Proofs.Digits
import EntryReport.Time.Reading

/-!
# Numbers in timestamps

`padded` writes a number with zeros in front, and `number` reads it back: either it takes no more
digits than it finds, or something else follows.
-/

namespace EntryReport.Timestamp

open EntryReport.Text

variable {ds rest : List Char} {width n most : Nat}

/-! ## Padded numbers -/

theorem isDigit_of_mem_padded {c : Char} (h : c ∈ padded width n) : c.isDigit = true := by
  rcases List.mem_append.mp h with h | h
  · rw [(List.mem_replicate.mp h).2]
    rfl
  · exact isDigit_of_mem_toDigits h

theorem padded_ne_nil : padded width n ≠ [] :=
  List.append_ne_nil_of_right_ne_nil _ Nat.toDigits_ne_nil

theorem length_padded (hwidth : 0 < width) (h : n < 10 ^ width) :
    (padded width n).length = width := by
  have hlength := (Nat.length_toDigits_le_iff (by decide) hwidth).mpr h
  simp only [padded, List.length_append, List.length_replicate]
  omega

theorem digitsValue_eq (ds : List Char) : digitsValue ds = Nat.ofDigitChars 10 ds 0 := by
  simp only [digitsValue, Nat.ofDigitChars_eq_foldl, Nat.mul_comm 10]
  rfl

theorem digitsValue_padded : digitsValue (padded width n) = n := by
  rw [digitsValue_eq, padded, Nat.ofDigitChars_append, Nat.ofDigitChars_replicate_zero,
    Nat.mul_zero, Nat.ofDigitChars_ten_toDigits]

/-- Digits make a number that has no more of them. -/
theorem digitsValue_lt (hds : ∀ c ∈ ds, c.isDigit = true) : digitsValue ds < 10 ^ ds.length := by
  have h := ofDigitChars_lt hds 0
  rwa [Nat.zero_add, Nat.one_mul, ← digitsValue_eq] at h

/-! ## Reading them -/

theorem isBlank_of_isDigit {c : Char} (h : c.isDigit = true) : isBlank c = false := by
  have hc := Char.isDigit_iff_toNat.mp h
  have hzero : '0'.toNat = 48 := rfl
  have hnine : '9'.toNat = 57 := rfl
  simp only [isBlank, Ranges.contains, blankRanges, List.any_cons, List.any_nil, Bool.or_false,
    Bool.or_eq_false_iff, Bool.and_eq_false_iff, decide_eq_false_iff_not]
  omega

theorem trimStart_digits (hne : ds ≠ []) (hds : ∀ c ∈ ds, c.isDigit = true) :
    trimStart (ds ++ rest) = ds ++ rest := by
  cases ds with
  | nil => exact absurd rfl hne
  | cons c ds =>
    have hc := isBlank_of_isDigit (hds c List.mem_cons_self)
    exact List.dropWhile_cons_of_neg (by simp [hc])

/-- All digits are taken, and nothing else. -/
theorem takeDigits_append (hds : ∀ c ∈ ds, c.isDigit = true) (hmost : ds.length ≤ most)
    (hrest : ds.length = most ∨ NoDigitHead rest) : takeDigits most (ds ++ rest) = ds := by
  have htail : NoDigitHead (rest.take (most - ds.length)) := by
    rcases hrest with h | h
    · rw [h, Nat.sub_self, List.take_zero]
      exact noDigitHead_nil
    · exact h.take _
  rw [takeDigits, List.take_append, List.take_of_length_le hmost, takeWhile_digits hds htail]

theorem number_padded (hn : n < 2 ^ 63) (hmost : (padded width n).length ≤ most)
    (hrest : (padded width n).length = most ∨ NoDigitHead rest) :
    number most (padded width n ++ rest) = .ok (n, rest) := by
  unfold number
  rw [takeDigits_append (fun _ => isDigit_of_mem_padded) hmost hrest]
  split
  next h => exact absurd h padded_ne_nil
  next ds _ =>
    rw [digitsValue_padded, Nat.pow_eq, if_pos hn, List.drop_left]

end EntryReport.Timestamp
