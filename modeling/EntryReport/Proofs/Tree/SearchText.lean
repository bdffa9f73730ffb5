import EntryReport.Proofs.Text.Normal
import EntryReport.Tree.Filter

/-!
# The text sought

Criteria hold their search text in one form, `NormalSearch`: without blanks at its ends and in
lowercase. Every text comes to that form in one step and stays as it is from then on
(`search_new_of_normalSearch`), so that a report can write the text into its search box, from where
it is read again. Neither blanks around the text that was typed nor its case make a difference, and
the case of a name makes none for whether an item is accepted (`search_text_normal`).
-/

namespace EntryReport.Criteria

variable {c : Criteria} {warnings errors : Bool} {s u v : String}

/-- The form in which criteria hold a search text. -/
structure NormalSearch (s : String) : Prop where
  trimmed : Text.Trimmed s.toList
  small : Text.lowercase s = s

theorem normalSearch_new (warnings errors : Bool) (s : String) :
    NormalSearch (new warnings errors s).search := by
  refine ⟨?_, Text.lowercase_lowercase (Text.trim s)⟩
  have htrimmed := Text.trimmed_lowerFrom (Text.trimmed_trimChars s.toList)
  simpa only [new, Text.lowercase, Text.trim, String.toList_ofList] using htrimmed

theorem search_new_of_normalSearch (h : NormalSearch s) :
    (new warnings errors s).search = s := by
  have htrim : Text.trimChars s.toList = s.toList := by
    simpa only [List.nil_append, List.append_nil] using
      Text.trimChars_eq (u := []) (v := []) (by simp) h.trimmed (by simp)
  simp only [new, Text.trim, htrim, String.ofList_toList, h.small]

theorem new_between (hu : Text.allBlank u = true) (hv : Text.allBlank v = true) :
    new warnings errors (u ++ s ++ v) = new warnings errors s := by
  have htrim : Text.trimChars (u ++ s ++ v).toList = Text.trimChars s.toList := by
    rw [String.toList_append, String.toList_append]
    exact Text.trimChars_between (List.all_eq_true.mp hu) (List.all_eq_true.mp hv)
  simp only [new, Text.trim, htrim]

theorem new_lowercase : new warnings errors (Text.lowercase s) = new warnings errors s := by
  unfold new
  rw [Text.trim_lowercase, Text.lowercase_lowercase]

theorem accepts_lowercase (tags : Tags) (name : String) :
    c.accepts tags (Text.lowercase name) = c.accepts tags name := by
  unfold accepts finds
  rw [Text.lowercase_lowercase]

/-- **A search text comes to its form in one step**: what stands around it and its case make no
difference, what is held is in that form, and is held again when it is typed again. Nor does the
case of a name make a difference. -/
theorem search_text_normal (warnings errors : Bool) (s u v : String)
    (hu : Text.allBlank u = true) (hv : Text.allBlank v = true) :
    new warnings errors (u ++ s ++ v) = new warnings errors s ∧
      new warnings errors (Text.lowercase s) = new warnings errors s ∧
      NormalSearch (new warnings errors s).search ∧
      new warnings errors (new warnings errors s).search = new warnings errors s ∧
      ∀ (c : Criteria) (tags : Tags) (name : String),
        c.accepts tags (Text.lowercase name) = c.accepts tags name := by
  have hnormal := normalSearch_new warnings errors s
  refine ⟨new_between hu hv, new_lowercase, hnormal, ?_, fun _ => accepts_lowercase⟩
  have hsearch : (new warnings errors (new warnings errors s).search).search =
      (new warnings errors s).search := search_new_of_normalSearch hnormal
  exact congrArg (Criteria.mk warnings errors) hsearch

/-- A sigma at the end of a word, with a line feed and an ideographic space around the word. -/
theorem search_text_normal_sigma :
    Text.allBlank "\n" = true ∧ Text.allBlank "\u3000" = true ∧
      new true false ("\n" ++ "ΟΔΟΣ" ++ "\u3000") = new true false "ΟΔΟΣ" ∧
      new true false (Text.lowercase "ΟΔΟΣ") = new true false "ΟΔΟΣ" ∧
      NormalSearch (new true false "ΟΔΟΣ").search := by
  have hline : Text.allBlank "\n" = true := by decide +kernel
  have hspace : Text.allBlank "\u3000" = true := by decide +kernel
  obtain ⟨hbetween, hlower, hnormal, -⟩ :=
    search_text_normal true false "ΟΔΟΣ" "\n" "\u3000" hline hspace
  exact ⟨hline, hspace, hbetween, hlower, hnormal⟩

end EntryReport.Criteria
