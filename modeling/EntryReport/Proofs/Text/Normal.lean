import EntryReport.Proofs.Text.Lowercase
import EntryReport.Proofs.Text.Trimming
import Mathlib.Data.Nat.Bitwise

/-!
# Lowercase and trimmed texts

Lowercase letters are left alone by lowercasing, wherever they stand (`IsSmall`), and so are blanks
(`isSmall_of_isBlank`). It gives nothing else (`isSmall_of_mem_lowerBetween`), so that a second time
changes nothing (`lowercase_lowercase`). No letter becomes a blank
(`isBlank_lowerBetween_singleton`), and a blank ends a word as the end of the text does
(`lowerSigma_append`). So it does not matter whether a text is trimmed before or after
(`trim_lowercase`).

These are facts about the letter case data: no code point that is made is changed, and none is a
blank. Sets of code points are compared as numbers, whose bits they are (`bitsOf`).
-/

namespace EntryReport.Text

variable {c d : Char} {before cs after u v : List Char} {ns ms : List Nat} {n : Nat} {s : String}

/-! ## Sets of numbers as numbers -/

/-- The number whose bits are the numbers of a list. -/
def bitsOf (ns : List Nat) : Nat :=
  ns.foldr (fun n bits => 2 ^ n ||| bits) 0

theorem testBit_bitsOf : (bitsOf ns).testBit n = true ↔ n ∈ ns := by
  induction ns with
  | nil => simp [bitsOf]
  | cons m ns ih =>
    have hcons : bitsOf (m :: ns) = 2 ^ m ||| bitsOf ns := rfl
    rw [hcons, Nat.testBit_or, Bool.or_eq_true, ih, Nat.testBit_two_pow, decide_eq_true_eq,
      List.mem_cons, eq_comm]

theorem not_mem_of_land_eq_zero (h : bitsOf ns &&& bitsOf ms = 0) (hn : n ∈ ns) : n ∉ ms := by
  intro hm
  have hbit := Nat.testBit_and (bitsOf ns) (bitsOf ms) n
  rw [h, Nat.zero_testBit, testBit_bitsOf.mpr hn, testBit_bitsOf.mpr hm] at hbit
  exact Bool.false_ne_true hbit

/-! ## The letter case data -/

/-- The code points of a run. -/
def LowerRun.sources (r : LowerRun) : List Nat :=
  (List.range' r.first (r.last + 1 - r.first)).filter fun n => (n - r.first) % r.step == 0

/-- The code points of their lowercase forms. -/
def LowerRun.targets (r : LowerRun) : List Nat :=
  r.sources.map fun n => r.target + (n - r.first)

/-- The code points that lowercasing changes. -/
def capitals : List Nat :=
  List.range' 0x41 26 ++ 0x130 :: lowerRuns.flatMap LowerRun.sources

/-- The code points that it changes them to. -/
def smalls : List Nat :=
  List.range' 0x61 26 ++ 0x307 :: 0x3C2 :: 0x3C3 :: lowerRuns.flatMap LowerRun.targets

/-- The code points of blanks. -/
def blanks : List Nat :=
  blankRanges.flatMap fun (first, last) => List.range' first (last + 1 - first)

theorem capitals_land_smalls : bitsOf capitals &&& bitsOf smalls = 0 := by decide +kernel

theorem blanks_land_capitals : bitsOf blanks &&& bitsOf capitals = 0 := by decide +kernel

theorem blanks_land_smalls : bitsOf blanks &&& bitsOf smalls = 0 := by decide +kernel

theorem isValidChar_of_mem_targets :
    ∀ r ∈ lowerRuns, ∀ n ∈ r.targets, n.isValidChar := by decide +kernel

theorem mem_blanks (h : isBlank c = true) : c.toNat ∈ blanks := by
  obtain ⟨r, hr, hfirst, hlast⟩ := Ranges.contains_iff.mp h
  refine List.mem_flatMap.mpr ⟨r, hr, List.mem_range'_1.mpr ?_⟩
  omega

/-- A run that gives a code point has it among its own. -/
theorem of_runTarget? {m : Nat} (h : runTarget? n = some m) :
    ∃ r ∈ lowerRuns, n ∈ r.sources ∧ m ∈ r.targets := by
  obtain ⟨r, hr, rfl⟩ := Option.map_eq_some_iff.mp h
  have hin := List.find?_some hr
  simp only [Bool.and_eq_true, decide_eq_true_eq] at hin
  have hsource : n ∈ r.sources :=
    List.mem_filter.mpr ⟨List.mem_range'_1.mpr (by omega), hin.2⟩
  exact ⟨r, List.mem_of_find?_eq_some hr, hsource, List.mem_map_of_mem hsource⟩

/-- Lowercasing an ASCII character gives a lowercase letter, or leaves alone what is no capital. -/
theorem toLower_ascii : ∀ n < 0x80,
    n ∈ List.range' 0x41 26 ∧ (Char.ofNat n).toLower.toNat ∈ List.range' 0x61 26 ∨
      (Char.ofNat n).toLower = Char.ofNat n := by decide

theorem toNat_ofNat (h : n.isValidChar) : (Char.ofNat n).toNat = n := by
  unfold Char.ofNat
  rw [dif_pos h]
  rfl

/-! ## One character -/

/-- Lowercasing leaves the character alone, wherever it stands. -/
def IsSmall (c : Char) : Prop := c ≠ 'Σ' ∧ lowerChar c = [c]

/-- **What a character becomes**: it is one that changes and what it becomes does not, or it stays
as it is. -/
theorem lowerChar_cases (c : Char) :
    (c.toNat ∈ capitals ∧ lowerChar c ≠ [] ∧ ∀ d ∈ lowerChar c, d.toNat ∈ smalls) ∨
      lowerChar c = [c] := by
  unfold lowerChar
  split
  · next hascii =>
    have hcases := toLower_ascii c.toNat hascii
    rw [Char.ofNat_toNat] at hcases
    rcases hcases with ⟨hcapital, hsmall⟩ | hsame
    · exact Or.inl ⟨List.mem_append_left _ hcapital, by simp,
        List.forall_mem_singleton.mpr (List.mem_append_left _ hsmall)⟩
    · exact Or.inr (by rw [hsame])
  split
  · next hdotted =>
    subst hdotted
    exact Or.inl ⟨List.mem_append_right _ List.mem_cons_self, by simp,
      List.forall_mem_cons.mpr ⟨List.mem_append_left _ (by decide),
        List.forall_mem_singleton.mpr (List.mem_append_right _ List.mem_cons_self)⟩⟩
  split
  · next m hm =>
    obtain ⟨r, hr, hsource, htarget⟩ := of_runTarget? hm
    have hnat := toNat_ofNat (isValidChar_of_mem_targets r hr m htarget)
    refine Or.inl ⟨?_, by simp, List.forall_mem_singleton.mpr ?_⟩
    · exact List.mem_append_right _
        (List.mem_cons_of_mem _ (List.mem_flatMap.mpr ⟨r, hr, hsource⟩))
    · rw [hnat]
      exact List.mem_append_right _ (List.mem_cons_of_mem _ (List.mem_cons_of_mem _
        (List.mem_cons_of_mem _ (List.mem_flatMap.mpr ⟨r, hr, htarget⟩))))
  · exact Or.inr rfl

theorem isSmall_of_not_capital (h : c.toNat ∉ capitals) : IsSmall c := by
  refine ⟨?_, (lowerChar_cases c).resolve_left fun hcapital => h hcapital.1⟩
  rintro rfl
  exact h (testBit_bitsOf.mp (by decide +kernel))

theorem isSmall_of_mem_smalls (h : c.toNat ∈ smalls) : IsSmall c :=
  isSmall_of_not_capital fun hcapital => not_mem_of_land_eq_zero capitals_land_smalls hcapital h

theorem isSmall_of_isBlank (h : isBlank c = true) : IsSmall c :=
  isSmall_of_not_capital (not_mem_of_land_eq_zero blanks_land_capitals (mem_blanks h))

theorem isBlank_of_mem_smalls (h : c.toNat ∈ smalls) : isBlank c = false := by
  by_contra hblank
  rw [Bool.not_eq_false] at hblank
  exact not_mem_of_land_eq_zero blanks_land_smalls (mem_blanks hblank) h

/-- The small forms of a capital sigma. -/
theorem lowerSigma_mem_smalls (before after : List Char) :
    (lowerSigma before after).toNat ∈ smalls := by
  unfold lowerSigma
  split <;> exact List.mem_append_right _ (by simp)

/-- **A character where it stands** becomes what is left alone and is no blank, unless it is that
already. -/
theorem lowerBetween_singleton_cases (before : List Char) (c : Char) (after : List Char) :
    (lowerBetween before [c] after ≠ [] ∧
        ∀ d ∈ lowerBetween before [c] after, d.toNat ∈ smalls) ∨
      IsSmall c ∧ lowerBetween before [c] after = [c] := by
  have hone : lowerBetween before [c] after =
      if c = 'Σ' then [lowerSigma before after] else lowerChar c := by
    simp only [lowerBetween, List.nil_append, List.append_nil]
  rw [hone]
  split
  · exact Or.inl ⟨by simp, List.forall_mem_singleton.mpr (lowerSigma_mem_smalls before after)⟩
  · next hsigma =>
    rcases lowerChar_cases c with ⟨-, h⟩ | h
    · exact Or.inl h
    · exact Or.inr ⟨⟨hsigma, h⟩, h⟩

/-- What is no blank does not become one. -/
theorem isBlank_lowerBetween_singleton (hc : isBlank c = false) (before after : List Char) :
    lowerBetween before [c] after ≠ [] ∧
      ∀ d ∈ lowerBetween before [c] after, isBlank d = false := by
  rcases lowerBetween_singleton_cases before c after with ⟨hne, hsmall⟩ | ⟨-, hsame⟩
  · exact ⟨hne, fun d hd => isBlank_of_mem_smalls (hsmall d hd)⟩
  · rw [hsame]
    exact ⟨by simp, List.forall_mem_singleton.mpr hc⟩

/-! ## Texts -/

theorem lowerBetween_append (before cs ds after : List Char) :
    lowerBetween before (cs ++ ds) after =
      lowerBetween before cs (ds ++ after) ++ lowerBetween (cs.reverse ++ before) ds after := by
  have hleft := lowerFrom_append before (cs ++ ds) after
  rw [List.append_assoc, lowerFrom_append, lowerFrom_append, List.reverse_append,
    List.append_assoc ds.reverse, ← List.append_assoc (lowerBetween before cs _)] at hleft
  exact (List.append_cancel_right hleft).symm

/-- **Everything becomes small.** -/
theorem isSmall_of_mem_lowerBetween (hd : d ∈ lowerBetween before cs after) : IsSmall d := by
  induction cs generalizing before with
  | nil => cases hd
  | cons c cs ih =>
    rw [← List.singleton_append, lowerBetween_append] at hd
    rcases List.mem_append.mp hd with hd | hd
    · rcases lowerBetween_singleton_cases before c (cs ++ after) with ⟨-, hsmall⟩ | ⟨hc, hsame⟩
      · exact isSmall_of_mem_smalls (hsmall d hd)
      · rw [hsame, List.mem_singleton] at hd
        exact hd ▸ hc
    · exact ih hd

theorem lowerBetween_of_isSmall (h : ∀ c ∈ cs, IsSmall c) (before after : List Char) :
    lowerBetween before cs after = cs := by
  induction cs generalizing before with
  | nil => rfl
  | cons c cs ih =>
    obtain ⟨hc, hcs⟩ := List.forall_mem_cons.mp h
    rw [lowerBetween, if_neg hc.1, hc.2, ih hcs]
    rfl

/-- **A lowercase text** is its own lowercase form. -/
theorem lowercase_lowercase (s : String) : lowercase (lowercase s) = lowercase s := by
  unfold lowercase
  rw [String.toList_ofList, ← lowerBetween_nil, ← lowerBetween_nil,
    lowerBetween_of_isSmall fun _ => isSmall_of_mem_lowerBetween]

/-! ## Blanks around a text -/

/-- No interval of the one meets an interval of the other. -/
def Ranges.Apart (a b : Ranges) : Prop := ∀ x ∈ a, ∀ y ∈ b, x.2 < y.1 ∨ y.2 < x.1

instance (a b : Ranges) : Decidable (Ranges.Apart a b) :=
  inferInstanceAs (Decidable (∀ x ∈ a, ∀ y ∈ b, x.2 < y.1 ∨ y.2 < x.1))

theorem Ranges.Apart.contains_eq_false {a b : Ranges} (h : Apart a b) (hc : a.contains c = true) :
    b.contains c = false := by
  by_contra hb
  rw [Bool.not_eq_false] at hb
  obtain ⟨x, hx, hfirst, hlast⟩ := Ranges.contains_iff.mp hc
  obtain ⟨y, hy, hfirst', hlast'⟩ := Ranges.contains_iff.mp hb
  have hapart := h x hx y hy
  omega

theorem blanks_apart_cased : Ranges.Apart blankRanges casedRanges := by decide +kernel

theorem blanks_apart_ignorable : Ranges.Apart blankRanges caseIgnorableRanges := by decide +kernel

/-- Blanks are not looked through, and are no letters. -/
theorem meetsCased_append (hv : ∀ c ∈ v, isBlank c = true) :
    meetsCased (cs ++ v) = meetsCased cs := by
  unfold meetsCased
  induction cs with
  | nil =>
    cases v with
    | nil => rfl
    | cons c v =>
      have hc := hv c List.mem_cons_self
      have hstop := blanks_apart_ignorable.contains_eq_false hc
      rw [List.nil_append, List.dropWhile_cons_of_neg (by simp [hstop])]
      exact blanks_apart_cased.contains_eq_false hc
  | cons c cs ih =>
    by_cases hc : caseIgnorableRanges.contains c = true
    · rw [List.cons_append, List.dropWhile_cons_of_pos hc, List.dropWhile_cons_of_pos hc, ih]
    · rw [List.cons_append, List.dropWhile_cons_of_neg hc, List.dropWhile_cons_of_neg hc]

theorem lowerSigma_append (hu : ∀ c ∈ u, isBlank c = true) (hv : ∀ c ∈ v, isBlank c = true)
    (before after : List Char) :
    lowerSigma (before ++ u) (after ++ v) = lowerSigma before after := by
  unfold lowerSigma
  rw [meetsCased_append hu, meetsCased_append hv]

/-- **Blanks around a text** stay, and the text becomes what it becomes without them. -/
theorem lowerFrom_between (hu : ∀ c ∈ u, isBlank c = true) (hv : ∀ c ∈ v, isBlank c = true) :
    lowerFrom [] (u ++ cs ++ v) = u ++ lowerFrom [] cs ++ v := by
  have hown : lowerBetween u.reverse cs v = lowerBetween [] cs [] := by
    refine (lowerBetween_eq_iff [] u.reverse cs v).mpr fun i _ _ => ?_
    rw [List.nil_append, List.append_nil]
    exact lowerSigma_append (fun c hc => hu c (List.mem_reverse.mp hc)) hv _ _
  rw [← lowerBetween_nil, List.append_assoc, lowerBetween_append, lowerBetween_append]
  simp only [List.append_nil]
  rw [hown, lowerBetween_nil, lowerBetween_of_isSmall fun c hc => isSmall_of_isBlank (hu c hc),
    lowerBetween_of_isSmall fun c hc => isSmall_of_isBlank (hv c hc), List.append_assoc]

/-- A trimmed text stays trimmed. -/
theorem trimmed_lowerFrom (h : Trimmed cs) : Trimmed (lowerFrom [] cs) := by
  rw [← lowerBetween_nil]
  constructor
  · cases cs with
    | nil => simp [lowerBetween]
    | cons c cs =>
      obtain ⟨hne, hclear⟩ := isBlank_lowerBetween_singleton (h.head c rfl) [] (cs ++ [])
      rw [← List.singleton_append, lowerBetween_append, List.head?_append_of_ne_nil _ hne]
      exact fun d hd => hclear d (List.mem_of_mem_head? hd)
  · rcases List.eq_nil_or_concat' cs with rfl | ⟨cs, c, rfl⟩
    · simp [lowerBetween]
    · obtain ⟨hne, hclear⟩ := isBlank_lowerBetween_singleton
        (h.last c List.getLast?_concat) (cs.reverse ++ []) []
      rw [lowerBetween_append, List.getLast?_append_of_ne_nil _ hne]
      exact fun d hd => hclear d (List.mem_of_getLast? hd)

/-- **To trim a text or its lowercase form** makes no difference. -/
theorem trim_lowercase (s : String) : trim (lowercase s) = lowercase (trim s) := by
  obtain ⟨u, v, hu, htrimmed, hv, heq⟩ := exists_trimmed s.toList
  unfold trim lowercase
  rw [String.toList_ofList, String.toList_ofList]
  conv_lhs => rw [heq, lowerFrom_between hu hv, trimChars_eq hu (trimmed_lowerFrom htrimmed) hv]

end EntryReport.Text
