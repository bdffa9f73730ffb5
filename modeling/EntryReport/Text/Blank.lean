import EntryReport.Text.Ranges

/-!
# Blanks

`isBlank` is the white space of Unicode; `trim` removes it from both ends of a text.
-/

namespace EntryReport.Text

/-- The characters with the property White_Space. -/
def blankRanges : Ranges :=
  [(0x9, 0xD), (0x20, 0x20), (0x85, 0x85), (0xA0, 0xA0), (0x1680, 0x1680), (0x2000, 0x200A),
    (0x2028, 0x2029), (0x202F, 0x202F), (0x205F, 0x205F), (0x3000, 0x3000)]

/-- White space. -/
def isBlank (c : Char) : Bool :=
  blankRanges.contains c

/-- The characters without the blanks they begin with. -/
def trimStart (cs : List Char) : List Char :=
  cs.dropWhile isBlank

/-- The characters without the blanks they begin and end with. -/
def trimChars (cs : List Char) : List Char :=
  (trimStart (trimStart cs).reverse).reverse

/-- The text without the blanks at both ends. -/
def trim (s : String) : String :=
  String.ofList (trimChars s.toList)

/-- The text holds nothing but blanks. -/
def allBlank (s : String) : Bool :=
  s.toList.all isBlank

/-- Every blank that ASCII knows is a blank. -/
theorem isBlank_of_isWhitespace {c : Char} (h : c.isWhitespace = true) : isBlank c = true := by
  simp only [Char.isWhitespace, Bool.or_eq_true, decide_eq_true_eq] at h
  rcases h with ((rfl | rfl) | rfl) | rfl <;> decide

theorem trimStart_eq_nil_iff {cs : List Char} :
    trimStart cs = [] ↔ ∀ c ∈ cs, isBlank c = true := by
  induction cs with
  | nil => simp [trimStart]
  | cons c cs ih =>
    simp only [trimStart, List.dropWhile_cons, List.mem_cons, forall_eq_or_imp] at ih ⊢
    by_cases h : isBlank c = true <;> simp [h, ih]

/-- Nothing is left of a text exactly when it is all blank. -/
theorem trimChars_eq_nil_iff {cs : List Char} :
    trimChars cs = [] ↔ ∀ c ∈ cs, isBlank c = true := by
  rw [trimChars, List.reverse_eq_nil_iff, trimStart_eq_nil_iff]
  refine ⟨fun h => ?_, fun h c hc => h c ?_⟩
  · by_cases hs : trimStart cs = []
    · exact trimStart_eq_nil_iff.mp hs
    · have hhead : isBlank ((trimStart cs).head hs) = false := List.head_dropWhile_not isBlank hs
      rw [h _ (List.mem_reverse.mpr (List.head_mem hs))] at hhead
      cases hhead
  · exact (List.dropWhile_sublist _).subset (List.mem_reverse.mp hc)

end EntryReport.Text
