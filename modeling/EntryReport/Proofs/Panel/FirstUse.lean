import EntryReport.Panel
import Mathlib.Data.List.Basic

/-!
# Names in the order of first use

A panel has a row for each name that is used and not declared, where it is first used. The list of
rows serves as the memory of the names that were met, and the rows of the declared names are in it
from the start (`exists_firstUses`).
-/

namespace EntryReport

/-- The names are those that are used and not known, in the order in which they are first used. None
comes twice, as the order is strict. -/
structure FirstUses (used : List String) (known : String → Prop) (names : List String) : Prop where
  mem : ∀ {u}, u ∈ names ↔ u ∈ used ∧ ¬ known u
  order : names.Pairwise fun u v => used.idxOf u < used.idxOf v

namespace FirstUses

variable {used names : List String} {known : String → Prop} {u : String}

theorem nil : FirstUses [] known [] where
  mem := by simp
  order := List.Pairwise.nil

/-- Names other than one in front are used in the order in which they were. -/
theorem order_cons (h : FirstUses used known names) (hu : u ∉ names) :
    names.Pairwise fun v w => (u :: used).idxOf v < (u :: used).idxOf w := by
  refine h.order.imp_of_mem fun {v w} hv hw hlt => ?_
  rw [List.idxOf_cons_ne _ (ne_of_mem_of_not_mem hv hu).symm,
    List.idxOf_cons_ne _ (ne_of_mem_of_not_mem hw hu).symm]
  exact Nat.succ_lt_succ hlt

/-- A use of a known name adds none. -/
theorem skip (h : FirstUses used known names) (hu : known u) :
    FirstUses (u :: used) known names where
  mem := by
    intro v
    rw [h.mem, List.mem_cons]
    refine ⟨fun ⟨hv, hk⟩ => ⟨Or.inr hv, hk⟩, fun ⟨hv, hk⟩ => ⟨hv.resolve_left ?_, hk⟩⟩
    rintro rfl
    exact hk hu
  order := h.order_cons fun hmem => (h.mem.mp hmem).2 hu

/-- A use of a name that is not known adds it, and makes it known. -/
theorem cons (h : FirstUses used (fun w => known w ∨ w = u) names) (hu : ¬ known u) :
    FirstUses (u :: used) known (u :: names) where
  mem := by
    intro v
    rw [List.mem_cons, h.mem, List.mem_cons]
    constructor
    · rintro (rfl | ⟨hv, hk⟩)
      · exact ⟨Or.inl rfl, hu⟩
      · exact ⟨Or.inr hv, fun hknown => hk (Or.inl hknown)⟩
    · rintro ⟨rfl | hv, hk⟩
      · exact Or.inl rfl
      · by_cases hvu : v = u
        · exact Or.inl hvu
        · exact Or.inr ⟨hv, not_or.mpr ⟨hk, hvu⟩⟩
  order := by
    have hnot : u ∉ names := fun hmem => (h.mem.mp hmem).2 (Or.inr rfl)
    refine List.pairwise_cons.mpr ⟨fun v hv => ?_, h.order_cons hnot⟩
    rw [List.idxOf_cons_self, List.idxOf_cons_ne _ (ne_of_mem_of_not_mem hv hnot).symm]
    exact Nat.succ_pos _

theorem congr {known' : String → Prop} (h : FirstUses used known names)
    (hsame : ∀ w, known w ↔ known' w) : FirstUses used known' names where
  mem := by
    intro v
    rw [h.mem, hsame]
  order := h.order

end FirstUses

namespace Panel

/-- **The rows that are added** are of the names that are neither declared nor have a row. -/
theorem exists_firstUses (inputs : List ParamDoc) (rows : List Row) (used : List String) :
    ∃ names, FirstUses used (fun u => u ∈ inputs.map (·.key) ∨ u ∈ rows.map (·.name)) names ∧
      addUndeclared inputs rows used =
        rows ++ names.map fun u => ⟨u, "", some .usedNotDeclared⟩ := by
  induction used generalizing rows with
  | nil => exact ⟨[], .nil, by simp [addUndeclared]⟩
  | cons u used ih =>
    have hany : (inputs.any (·.key == u) || rows.any (·.name == u)) = true ↔
        u ∈ inputs.map (·.key) ∨ u ∈ rows.map (·.name) := by simp
    unfold addUndeclared
    by_cases hu : (inputs.any (·.key == u) || rows.any (·.name == u)) = true
    · rw [if_pos hu]
      obtain ⟨names, hnames, heq⟩ := ih rows
      exact ⟨names, hnames.skip (hany.mp hu), heq⟩
    · -- the new row makes the name known from here on
      rw [if_neg hu]
      obtain ⟨names, hnames, heq⟩ := ih (rows ++ [⟨u, "", some .usedNotDeclared⟩])
      refine ⟨u :: names, .cons (hnames.congr fun w => ?_) (hany.not.mp hu), ?_⟩
      · rw [List.map_append, List.mem_append, ← or_assoc]
        exact or_congr_right List.mem_singleton
      · rw [heq, List.map_cons, List.append_assoc]
        rfl

/-- The declared rows have the declared names. -/
theorem map_name_declaredRows (inputs : List ParamDoc) (used : List String) :
    (declaredRows inputs used).map (·.name) = inputs.map (·.key) := by
  unfold declaredRows
  rw [List.map_map]
  rfl

end Panel

end EntryReport
