import Mathlib.Data.Nat.Digits.Defs
import Mathlib.Tactic.IntervalCases

/-!
# Decimal digits

What the readers of numbers need to know of `Nat.toDigits 10`: digits in front of something else
can be told from it (`takeWhile_digits`), they do not begin with a zero, except for that of the
number zero, and the digits read so far are never worth more than all of them.
-/

namespace EntryReport

variable {ds rest : List Char} {n : Nat}

/-! ## Where digits end -/

/-- The text does not go on with a digit. -/
def NoDigitHead (cs : List Char) : Prop :=
  ∀ c ∈ cs.head?, c.isDigit = false

theorem noDigitHead_nil : NoDigitHead [] := by simp [NoDigitHead]

theorem noDigitHead_cons {c : Char} (h : c.isDigit = false) : NoDigitHead (c :: rest) := by
  simpa [NoDigitHead] using h

theorem NoDigitHead.take (h : NoDigitHead rest) (k : Nat) : NoDigitHead (rest.take k) := by
  cases k with
  | zero => exact noDigitHead_nil
  | succ k =>
    cases rest with
    | nil => exact noDigitHead_nil
    | cons c rest => exact noDigitHead_cons (h c rfl)

theorem takeWhile_of_noDigitHead (h : NoDigitHead rest) : rest.takeWhile Char.isDigit = [] := by
  cases rest with
  | nil => rfl
  | cons c rest => exact List.takeWhile_cons_of_neg (by simp [h c rfl])

theorem dropWhile_of_noDigitHead (h : NoDigitHead rest) : rest.dropWhile Char.isDigit = rest := by
  cases rest with
  | nil => rfl
  | cons c rest => exact List.dropWhile_cons_of_neg (by simp [h c rfl])

theorem takeWhile_digits (hds : ∀ c ∈ ds, c.isDigit = true) (hrest : NoDigitHead rest) :
    (ds ++ rest).takeWhile Char.isDigit = ds := by
  rw [List.takeWhile_append_of_pos hds, takeWhile_of_noDigitHead hrest, List.append_nil]

theorem dropWhile_digits (hds : ∀ c ∈ ds, c.isDigit = true) (hrest : NoDigitHead rest) :
    (ds ++ rest).dropWhile Char.isDigit = rest := by
  rw [List.dropWhile_append_of_pos hds, dropWhile_of_noDigitHead hrest]

/-! ## Digits of numbers -/

theorem isDigit_of_mem_toDigits {c : Char} (h : c ∈ Nat.toDigits 10 n) : c.isDigit = true :=
  Nat.isDigit_of_mem_toDigits (by decide) (by decide) h

/-- The digits of a number begin with a digit, and with a zero only for the number zero. -/
theorem toDigits_eq_cons (n : Nat) : ∃ d ds, d < 10 ∧ Nat.toDigits 10 n = Nat.digitChar d :: ds ∧
    (d = 0 → n = 0 ∧ ds = []) := by
  induction n using Nat.strongRecOn with
  | ind n ih =>
    rcases Nat.lt_or_ge n 10 with h | h
    · exact ⟨n, [], h, Nat.toDigits_of_lt_base h, fun hn => ⟨hn, rfl⟩⟩
    · obtain ⟨d, ds, hd, heq, hzero⟩ := ih (n / 10) (by omega)
      refine ⟨d, ds ++ [Nat.digitChar (n % 10)], hd, ?_, fun h0 => ?_⟩
      · rw [Nat.toDigits_of_base_le (by decide) h, heq, List.cons_append]
      · have := (hzero h0).1
        omega

/-- Further digits never make a number smaller. -/
theorem le_ofDigitChars (ds : List Char) (start : Nat) : start ≤ Nat.ofDigitChars 10 ds start := by
  induction ds generalizing start with
  | nil => simp
  | cons c ds ih =>
    rw [Nat.ofDigitChars_cons]
    exact Nat.le_trans (by omega) (ih _)

/-- Each digit makes a number ten times as large at most. -/
theorem ofDigitChars_lt (hds : ∀ c ∈ ds, c.isDigit = true) (start : Nat) :
    Nat.ofDigitChars 10 ds start < (start + 1) * 10 ^ ds.length := by
  induction ds generalizing start with
  | nil => simp
  | cons c ds ih =>
    have hc := Char.isDigit_iff_toNat.mp (hds c List.mem_cons_self)
    have hdigit : c.toNat - '0'.toNat < 10 := by
      have : '0'.toNat = 48 := rfl
      have : '9'.toNat = 57 := rfl
      omega
    rw [Nat.ofDigitChars_cons, List.length_cons]
    calc Nat.ofDigitChars 10 ds (10 * start + (c.toNat - '0'.toNat))
        < (10 * start + (c.toNat - '0'.toNat) + 1) * 10 ^ ds.length :=
          ih (fun d hd => hds d (List.mem_cons_of_mem _ hd)) _
      _ ≤ (10 * (start + 1)) * 10 ^ ds.length := Nat.mul_le_mul_right _ (by omega)
      _ = (start + 1) * 10 ^ (ds.length + 1) := by rw [Nat.pow_succ']; ring

end EntryReport
