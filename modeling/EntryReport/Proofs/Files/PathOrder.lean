import EntryReport.Proofs.Files.Components
import Mathlib.Data.String.Basic

/-!
# The order of paths

Paths go by their components, and a path comes before those that are longer. This is an order, so
that a list of paths can be sorted by it (`pairwise_mergeSort`).

If the name of a file is that of a directory beside it with an ending, then all that is below the
directory comes before the file (`mayPrecede_below_eq_false`).
-/

namespace EntryReport.Files.Path

open FileSystem (joinNames)

variable {a b c : Component} {as bs cs : List Component}

/-! ## Components -/

theorem lessComponent_name {s t : String} :
    lessComponent (.name s) (.name t) = true ↔ s < t := decide_eq_true_iff

theorem lessComponent_iff : lessComponent a b = true ↔
    Component.rank a < Component.rank b ∨ ∃ s t, a = .name s ∧ b = .name t ∧ s < t := by
  cases a <;> cases b <;> simp [lessComponent, Component.rank]

theorem lessComponent_irrefl (a : Component) : lessComponent a a = false := by
  rw [← Bool.not_eq_true, lessComponent_iff]
  rintro (hlt | ⟨s, t, rfl, ht, hlt⟩)
  · exact Nat.lt_irrefl _ hlt
  · exact absurd hlt (Component.name.inj ht ▸ lt_irrefl s)

theorem lessComponent_trans (hab : lessComponent a b = true) (hbc : lessComponent b c = true) :
    lessComponent a c = true := by
  rw [lessComponent_iff] at hab hbc ⊢
  rcases hab with hab | ⟨s, t, rfl, rfl, hst⟩
  · rcases hbc with hbc | ⟨t, u, rfl, rfl, -⟩
    · exact Or.inl (Nat.lt_trans hab hbc)
    · exact Or.inl hab
  · rcases hbc with hbc | ⟨t', u, ht, rfl, htu⟩
    · exact Or.inl hbc
    · obtain rfl := Component.name.inj ht
      exact Or.inr ⟨s, u, rfl, rfl, lt_trans hst htu⟩

/-- Only names have the same place in the order without being the same. -/
theorem exists_names_of_rank_eq (hne : a ≠ b) (h : Component.rank a = Component.rank b) :
    ∃ s t, a = .name s ∧ b = .name t := by
  cases a <;> cases b <;> simp_all [Component.rank]

theorem lessComponent_or (hne : a ≠ b) : lessComponent a b = true ∨ lessComponent b a = true := by
  rcases Nat.lt_trichotomy (Component.rank a) (Component.rank b) with hlt | heq | hlt
  · exact Or.inl (lessComponent_iff.mpr (Or.inl hlt))
  · obtain ⟨s, t, rfl, rfl⟩ := exists_names_of_rank_eq hne heq
    rcases lt_or_gt_of_ne fun hst : s = t => hne (congrArg _ hst) with hlt | hlt
    · exact Or.inl (lessComponent_name.mpr hlt)
    · exact Or.inr (lessComponent_name.mpr hlt)
  · exact Or.inr (lessComponent_iff.mpr (Or.inl hlt))

/-! ## Lists of components -/

theorem mayPrecedeList_append (as bs cs : List Component) :
    mayPrecedeList (as ++ bs) (as ++ cs) = mayPrecedeList bs cs := by
  induction as with
  | nil => rfl
  | cons a as ih => rw [List.cons_append, List.cons_append, mayPrecedeList, if_pos rfl, ih]

theorem mayPrecedeList_trans (hab : mayPrecedeList as bs = true)
    (hbc : mayPrecedeList bs cs = true) : mayPrecedeList as cs = true := by
  induction as generalizing bs cs with
  | nil => rw [mayPrecedeList]
  | cons a as ih =>
    cases bs with
    | nil => exact absurd hab (by simp [mayPrecedeList])
    | cons b bs =>
      cases cs with
      | nil => exact absurd hbc (by simp [mayPrecedeList])
      | cons c cs =>
        rw [mayPrecedeList] at hab hbc ⊢
        by_cases hb : a = b
        · subst hb
          rw [if_pos rfl] at hab
          by_cases hc : a = c
          · rw [if_pos hc] at hbc ⊢
            exact ih hab hbc
          · rwa [if_neg hc] at hbc ⊢
        · rw [if_neg hb] at hab
          by_cases hc : b = c
          · rwa [← hc, if_neg hb]
          · rw [if_neg hc] at hbc
            have hac := lessComponent_trans hab hbc
            have hne : a ≠ c := by
              rintro rfl
              exact absurd hac (by simp [lessComponent_irrefl])
            rwa [if_neg hne]

theorem mayPrecedeList_total (as bs : List Component) :
    mayPrecedeList as bs = true ∨ mayPrecedeList bs as = true := by
  induction as generalizing bs with
  | nil => exact Or.inl (by rw [mayPrecedeList])
  | cons a as ih =>
    cases bs with
    | nil => exact Or.inr (by rw [mayPrecedeList])
    | cons b bs =>
      rw [mayPrecedeList, mayPrecedeList]
      by_cases h : a = b
      · rw [if_pos h, if_pos h.symm]
        exact ih bs
      · rw [if_neg h, if_neg (Ne.symm h)]
        exact lessComponent_or h

/-! ## Paths -/

/-- **Sorted paths are in order**, each with all that follow. -/
theorem pairwise_mergeSort (paths : List String) :
    (paths.mergeSort mayPrecede).Pairwise fun p q => mayPrecede p q = true := by
  have htrans : ∀ p q r, mayPrecede p q = true → mayPrecede q r = true → mayPrecede p r = true :=
    fun _ _ _ => mayPrecedeList_trans
  have htotal : ∀ p q, (mayPrecede p q || mayPrecede q p) = true :=
    fun _ _ => Bool.or_eq_true_iff.mpr (mayPrecedeList_total _ _)
  exact List.pairwise_mergeSort htrans htotal paths

theorem not_append_lt (s t : String) : ¬ s ++ t < s := by
  rw [String.lt_iff_toList_lt, String.toList_append]
  induction s.toList with
  | nil => exact List.not_lt_nil _
  | cons c cs ih =>
    rw [List.cons_append, List.cons_lt_cons_iff]
    rintro (hlt | ⟨-, hlt⟩)
    · exact lt_irrefl c hlt
    · exact ih hlt

/-- **A file does not come before what is below the directory** with its name less an ending. -/
theorem mayPrecede_below_eq_false {p stem ending : String} {dirs more : List String}
    (hending : ending ≠ "") (h : ∀ n ∈ dirs ++ [stem ++ ending], IsFileName n)
    (h' : ∀ n ∈ dirs ++ stem :: more, IsFileName n) :
    mayPrecede (joinNames p (dirs ++ [stem ++ ending])) (joinNames p (dirs ++ stem :: more)) =
      false := by
  have hne : Component.name (stem ++ ending) ≠ .name stem := fun heq =>
    hending (by simpa using Component.name.inj heq)
  rw [mayPrecede, components_joinNames h, components_joinNames h', List.map_append,
    List.map_append, mayPrecedeList_append, mayPrecedeList_append, List.map_singleton,
    List.map_cons, mayPrecedeList, if_neg hne, ← Bool.not_eq_true, lessComponent_name]
  exact not_append_lt stem ending

end EntryReport.Files.Path
