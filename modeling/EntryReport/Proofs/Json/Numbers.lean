import EntryReport.Json.Printer
import EntryReport.Json.Token
import EntryReport.Proofs.Digits

/-!
# Integers in a text

An integer is written as a sign and digits, and read as the numeral of these (`scanToken_intText`),
provided that what follows cannot be taken for more of it. Between -2^63 and 2^64 - 1 the value of
the numeral is the integer again (`Number.asRead_of_integral`).
-/

namespace EntryReport

/-! ## The value of digits -/

/-- All digits of a number of 64 bits are kept. -/
theorem Numeral.keep_digits (ds : List Char) (start : Nat)
    (h : Nat.ofDigitChars 10 ds start ≤ wordMax) :
    keep start (ds.map Json.digitValue) = (Nat.ofDigitChars 10 ds start, []) := by
  induction ds generalizing start with
  | nil => simp [keep]
  | cons c ds ih =>
    have hstep : start * 10 + Json.digitValue c = 10 * start + (c.toNat - '0'.toNat) := by
      rw [Nat.mul_comm]
      rfl
    rw [Nat.ofDigitChars_cons] at h ⊢
    have hfits := Nat.le_trans (le_ofDigitChars ds (10 * start + (c.toNat - '0'.toNat))) h
    rw [List.map_cons, keep, hstep, if_pos hfits, ih _ h]

/-- The integers that a numeral can stand for. -/
def Number.Integral : Number → Prop
  | .int n => -(2 : Int) ^ 63 ≤ n ∧ n ≤ (2 : Int) ^ 64 - 1
  | .float _ => False

instance : (n : Number) → Decidable n.Integral
  | .int n => inferInstanceAs (Decidable (-(2 : Int) ^ 63 ≤ n ∧ n ≤ (2 : Int) ^ 64 - 1))
  | .float _ => inferInstanceAs (Decidable False)

/-- The numeral that an integer is written as. -/
def Numeral.ofInt (n : Int) : Numeral :=
  ⟨n < 0, (Nat.toDigits 10 n.natAbs).map Json.digitValue, [], none⟩

theorem Numeral.value_ofInt (n : Int) (hleast : -(2 : Int) ^ 63 ≤ n)
    (hgreatest : n ≤ (2 : Int) ^ 64 - 1) : (ofInt n).value = some (.int n) := by
  have hmax : n.natAbs ≤ wordMax := by
    simp only [wordMax, Nat.pow_eq]
    omega
  have hkeep := keep_digits (Nat.toDigits 10 n.natAbs) 0 (by rwa [Nat.ofDigitChars_ten_toDigits])
  rw [Nat.ofDigitChars_ten_toDigits] at hkeep
  simp only [ofInt, value, hkeep]
  by_cases hneg : n < 0
  · have hfits : 0 < n.natAbs ∧ n.natAbs ≤ Nat.pow 2 63 := by
      simp only [Nat.pow_eq]
      omega
    simp [hneg, hfits, Int.ofNat_natAbs_of_nonpos (Int.le_of_lt hneg)]
  · simp [hneg, Int.natAbs_of_nonneg (Int.not_lt.mp hneg)]

/-- What is read where a number was written. An integer that does not fit in 64 bits is read as a
number that is no integer. -/
def Number.asRead : Number → Option Number
  | .int n => (Numeral.ofInt n).value
  | .float x => some (.float x)

theorem Number.asRead_of_integral {n : Number} (h : n.Integral) : n.asRead = some n := by
  cases n with
  | int n => exact Numeral.value_ofInt n h.1 h.2
  | float x => exact h.elim

namespace Json

/-! ## What may follow a value -/

/-- Nothing, or something that cannot belong to a value in front of it. -/
def Boundary (cs : List Char) : Prop :=
  ∀ c ∈ cs.head?, c = ',' ∨ c = ']' ∨ c = '\x7d' ∨ isSpace c = true

theorem boundary_nil : Boundary [] := by simp [Boundary]

/-- The characters that may stand behind a value. -/
def followers : List Char := [',', ']', '\x7d', ' ', '\n', '\r', '\t']

theorem Boundary.head_mem {c : Char} {rest : List Char} (h : Boundary (c :: rest)) :
    c ∈ followers := by
  have := h c rfl
  simp only [isSpace, Bool.or_eq_true, decide_eq_true_eq] at this
  simp only [followers, List.mem_cons, List.not_mem_nil, or_false]
  tauto

/-- What holds of all of these holds of what follows. -/
theorem Boundary.head_of_all {c : Char} {rest : List Char} (h : Boundary (c :: rest))
    {p : Char → Bool} (hp : followers.all p = true) : p c = true :=
  List.all_eq_true.mp hp c h.head_mem

theorem Boundary.noDigitHead {rest : List Char} (h : Boundary rest) : NoDigitHead rest := by
  cases rest with
  | nil => exact noDigitHead_nil
  | cons c rest =>
    have hc := h.head_of_all (p := fun c => !c.isDigit) rfl
    exact noDigitHead_cons (by simpa using hc)

/-! ## Numerals -/

variable {rest : List Char}

theorem scanWhole_toDigits (n : Nat) (hrest : NoDigitHead rest) :
    scanWhole (Nat.toDigits 10 n ++ rest) =
      some ((Nat.toDigits 10 n).map digitValue, rest) := by
  have hds : ∀ c ∈ Nat.toDigits 10 n, c.isDigit = true := fun c => isDigit_of_mem_toDigits
  rw [scanWhole, scanDigits, takeWhile_digits hds hrest, dropWhile_digits hds hrest]
  obtain ⟨d, ds, hd, heq, hzero⟩ := toDigits_eq_cons n
  have hvalue : digitValue (Nat.digitChar d) = d := by
    rw [digitValue, Nat.toNat_digitChar_of_lt_ten hd]
    omega
  rw [heq, List.map_cons, hvalue]
  cases d with
  | zero => rw [(hzero rfl).2]; rfl
  | succ d => rfl

theorem scanDecimals_boundary (h : Boundary rest) : scanDecimals rest = some ([], rest) := by
  cases rest with
  | nil => rfl
  | cons c rest =>
    rw [scanDecimals]
    rintro cs hcs
    cases hcs
    exact absurd h.head_mem (by decide)

theorem scanExponent_boundary (h : Boundary rest) : scanExponent rest = some (none, rest) := by
  cases rest with
  | nil => rfl
  | cons c rest =>
    have hc := h.head_of_all (p := fun c => !(c = 'e' || c = 'E')) rfl
    simp only [Bool.not_eq_true'] at hc
    simp [scanExponent, hc]

theorem scanNumeral_toDigits (negative : Bool) (n : Nat) (h : Boundary rest) :
    scanNumeral negative (Nat.toDigits 10 n ++ rest) =
      some (⟨negative, (Nat.toDigits 10 n).map digitValue, [], none⟩, rest) := by
  simp only [scanNumeral, scanWhole_toDigits n h.noDigitHead, scanDecimals_boundary h,
    scanExponent_boundary h, Option.bind_eq_bind, Option.bind_some, Option.pure_def]

/-! ## Tokens -/

/-- A digit begins a numeral without a sign. -/
theorem scanToken_digits (n : Nat) :
    scanToken (Nat.toDigits 10 n ++ rest) =
      numberToken (scanNumeral false (Nat.toDigits 10 n ++ rest)) := by
  obtain ⟨d, ds, hd, heq, -⟩ := toDigits_eq_cons n
  rw [heq, List.cons_append]
  generalize ds ++ rest = tail
  interval_cases d <;> rfl

/-- **An integer is read** as one token, the value of its numeral. -/
theorem scanToken_intText (n : Int) (h : Boundary rest) :
    scanToken (intText n ++ rest) = some (.number (Number.int n).asRead, rest) := by
  rw [Number.asRead, Numeral.ofInt, intText]
  by_cases hneg : n < 0
  · rw [if_pos hneg, List.cons_append, scanToken, scanNumeral_toDigits true _ h, numberToken,
      Option.map_some]
    simp only [hneg, decide_true]
  · rw [if_neg hneg, scanToken_digits, scanNumeral_toDigits false _ h, numberToken,
      Option.map_some]
    simp only [hneg, decide_false]

end Json

end EntryReport
