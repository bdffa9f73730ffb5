/-!
# Parts between slashes

`slashParts` cuts characters at the slashes. There is one part more than there are slashes, so
that some may be empty.
-/

namespace EntryReport.Text

/-- The parts between slashes, empty ones included. -/
def slashParts : List Char → List (List Char)
  | [] => [[]]
  | c :: cs =>
    if c = '/' then [] :: slashParts cs
    else match slashParts cs with
      | [] => [[c]]
      | part :: parts => (c :: part) :: parts

theorem slashParts_ne_nil (cs : List Char) : slashParts cs ≠ [] := by
  cases cs with
  | nil => simp [slashParts]
  | cons c cs =>
    simp only [slashParts]
    split
    · simp
    · split <;> simp

/-- No part holds a slash. -/
theorem slash_not_mem_of_mem_slashParts {cs part : List Char} (h : part ∈ slashParts cs) :
    '/' ∉ part := by
  induction cs generalizing part with
  | nil => simp_all [slashParts]
  | cons c cs ih =>
    simp only [slashParts] at h
    split at h
    · rcases List.mem_cons.mp h with rfl | h
      · simp
      · exact ih h
    · next hc =>
      split at h
      · next hp => exact absurd hp (slashParts_ne_nil cs)
      · next p ps hp =>
        rcases List.mem_cons.mp h with rfl | h
        · have := @ih p (by simp [hp])
          simp only [List.mem_cons, not_or]
          exact ⟨fun e => hc e.symm, this⟩
        · exact ih (by simp [hp, h])

end EntryReport.Text
