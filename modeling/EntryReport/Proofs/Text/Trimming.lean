import EntryReport.Text.Blank
import Mathlib.Data.List.Basic
import Mathlib.Data.List.TakeWhile

/-!
# Trimmed texts

A text is `Trimmed` if it neither begins nor ends with a blank. Trimming gives the trimmed text that
stands between blanks in a text (`exists_trimmed`, `trimChars_eq`), and there is only one, so that
more blanks around the text do not matter (`trimChars_between`).
-/

namespace EntryReport.Text

variable {cs u v : List Char}

/-- The text neither begins nor ends with a blank. -/
structure Trimmed (cs : List Char) : Prop where
  head : ∀ c ∈ cs.head?, isBlank c = false
  last : ∀ c ∈ cs.getLast?, isBlank c = false

theorem trimStart_append (hu : ∀ c ∈ u, isBlank c = true) : trimStart (u ++ cs) = trimStart cs :=
  List.dropWhile_append_of_pos hu

theorem trimStart_of_head (h : ∀ c ∈ cs.head?, isBlank c = false) : trimStart cs = cs := by
  cases cs with
  | nil => rfl
  | cons c cs => exact List.dropWhile_cons_of_neg (by simp [h c rfl])

theorem head_trimStart (cs : List Char) : ∀ c ∈ (trimStart cs).head?, isBlank c = false := by
  intro c hc
  have hnot := List.head?_dropWhile_not isBlank cs
  rw [show (cs.dropWhile isBlank).head? = some c from hc] at hnot
  exact hnot

/-- What is blank goes from the beginning. -/
theorem exists_trimStart (cs : List Char) :
    ∃ u, (∀ c ∈ u, isBlank c = true) ∧ cs = u ++ trimStart cs :=
  ⟨cs.takeWhile isBlank, fun _ => List.mem_takeWhile_imp, List.takeWhile_append_dropWhile.symm⟩

/-- **A trimmed text between blanks** is what trimming leaves. -/
theorem trimChars_eq (hu : ∀ c ∈ u, isBlank c = true) (hcs : Trimmed cs)
    (hv : ∀ c ∈ v, isBlank c = true) : trimChars (u ++ cs ++ v) = cs := by
  by_cases hnil : cs = []
  · subst hnil
    rw [trimChars_eq_nil_iff, List.append_nil]
    exact List.forall_mem_append.mpr ⟨hu, hv⟩
  · have hfront : trimStart (u ++ cs ++ v) = cs ++ v := by
      rw [List.append_assoc, trimStart_append hu, trimStart_of_head]
      rw [List.head?_append_of_ne_nil _ hnil]
      exact hcs.head
    have hback : trimStart (cs ++ v).reverse = cs.reverse := by
      rw [List.reverse_append, trimStart_append fun c hc => hv c (List.mem_reverse.mp hc),
        trimStart_of_head]
      rw [List.head?_reverse]
      exact hcs.last
    rw [trimChars, hfront, hback, List.reverse_reverse]

/-- **Trimming takes blanks away** from both ends, and all of them. -/
theorem exists_trimmed (cs : List Char) :
    ∃ u v, (∀ c ∈ u, isBlank c = true) ∧ Trimmed (trimChars cs) ∧
      (∀ c ∈ v, isBlank c = true) ∧ cs = u ++ trimChars cs ++ v := by
  obtain ⟨u, hu, hfront⟩ := exists_trimStart cs
  obtain ⟨v, hv, hback⟩ := exists_trimStart (trimStart cs).reverse
  rw [List.reverse_eq_iff, List.reverse_append] at hback
  refine ⟨u, v.reverse, hu, ⟨fun c hc => ?_, ?_⟩, fun c hc => hv c (List.mem_reverse.mp hc), ?_⟩
  · -- what the text begins with is not taken away from its end
    refine head_trimStart cs c ?_
    rw [hback, List.head?_append, show (trimStart (trimStart cs).reverse).reverse.head? = some c
      from hc]
    rfl
  · rw [trimChars, List.getLast?_reverse]
    exact head_trimStart _
  · rw [List.append_assoc, trimChars, ← hback, ← hfront]

theorem trimmed_trimChars (cs : List Char) : Trimmed (trimChars cs) := by
  obtain ⟨_, _, _, h, _, _⟩ := exists_trimmed cs
  exact h

/-- Blanks around a text do not matter. -/
theorem trimChars_between (hu : ∀ c ∈ u, isBlank c = true) (hv : ∀ c ∈ v, isBlank c = true) :
    trimChars (u ++ cs ++ v) = trimChars cs := by
  obtain ⟨u', v', hu', htrimmed, hv', heq⟩ := exists_trimmed cs
  have hjoined : u ++ cs ++ v = u ++ u' ++ trimChars cs ++ (v' ++ v) := by
    calc u ++ cs ++ v = u ++ (u' ++ trimChars cs ++ v') ++ v := by rw [← heq]
      _ = u ++ u' ++ trimChars cs ++ (v' ++ v) := by simp only [List.append_assoc]
  rw [hjoined, trimChars_eq (List.forall_mem_append.mpr ⟨hu, hu'⟩) htrimmed
    (List.forall_mem_append.mpr ⟨hv', hv⟩)]

end EntryReport.Text
