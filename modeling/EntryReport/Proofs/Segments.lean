import EntryReport.Panel
import EntryReport.Tree.Segments
import Mathlib.Data.List.Basic
import Mathlib.Data.List.Induction

/-!
# A path and its names

`IsName` is what a segment of a path can be: not empty and without a slash. On lists of such names
`segments` and `pathOf` are inverse (`segments_pathOf`), so that a path is as good as its names
(`pathOf_inj`).

`Apart` is what two paths have to be for both to be items: neither leads through the other.
-/

namespace EntryReport

/-- What stands between two slashes of a path. -/
def IsName (name : String) : Prop := name ≠ "" ∧ '/' ∉ name.toList

instance (name : String) : Decidable (IsName name) := inferInstanceAs (Decidable (_ ∧ _))

/-- Neither list goes on where the other ends; in particular they differ. -/
def Apart (a b : List String) : Prop := ¬ a <+: b ∧ ¬ b <+: a

instance (a b : List String) : Decidable (Apart a b) := inferInstanceAs (Decidable (_ ∧ _))

theorem Apart.symm {a b : List String} (h : Apart a b) : Apart b a := ⟨h.2, h.1⟩

/-! ## Cutting at slashes -/

/-- What stands before the first slash is put in front of the first part. -/
theorem slashParts_append {part cs p : List Char} {ps : List (List Char)} (h : '/' ∉ part)
    (hcs : Text.slashParts cs = p :: ps) : Text.slashParts (part ++ cs) = (part ++ p) :: ps := by
  induction part with
  | nil => exact hcs
  | cons c part ih =>
    rw [List.mem_cons, not_or] at h
    rw [List.cons_append, Text.slashParts, if_neg (Ne.symm h.1), ih h.2]
    rfl

/-- A slash parts what stands before it from what follows. -/
theorem slashParts_append_slash (as bs : List Char) :
    Text.slashParts (as ++ '/' :: bs) = Text.slashParts as ++ Text.slashParts bs := by
  induction as with
  | nil => simp [Text.slashParts]
  | cons c as ih =>
    rw [List.cons_append, Text.slashParts, Text.slashParts, ih]
    by_cases hc : c = '/'
    · rw [if_pos hc, if_pos hc, List.cons_append]
    · rw [if_neg hc, if_neg hc]
      cases hp : Text.slashParts as with
      | nil => exact absurd hp (Text.slashParts_ne_nil as)
      | cons p ps => rfl

theorem slashParts_flatMap {names : List String} (h : ∀ n ∈ names, '/' ∉ n.toList) :
    Text.slashParts (names.flatMap fun n => '/' :: n.toList) = [] :: names.map String.toList := by
  induction names with
  | nil => rfl
  | cons n names ih =>
    have ih := ih fun m hm => h m (List.mem_cons_of_mem n hm)
    rw [List.flatMap_cons, List.cons_append, Text.slashParts, if_pos rfl,
      slashParts_append (h n List.mem_cons_self) ih, List.append_nil, List.map_cons]

/-! ## Paths of names -/

@[simp] theorem slashed_nil : slashed [] = "" := rfl

theorem slashed_concat (names : List String) (name : String) :
    slashed (names ++ [name]) = slashed names ++ "/" ++ name := by
  rw [slashed, List.foldl_append]
  rfl

theorem pathOf_concat (names : List String) (name : String) :
    pathOf (names ++ [name]) = slashed names ++ "/" ++ name := by
  rw [pathOf, if_neg (by simp), slashed_concat]

theorem pathOf_eq_slashed {names : List String} (h : names ≠ []) : pathOf names = slashed names :=
  if_neg (by simpa using h)

theorem toList_slashed (names : List String) :
    (slashed names).toList = names.flatMap fun n => '/' :: n.toList := by
  induction names using List.reverseRecOn with
  | nil => rfl
  | append_singleton names name ih =>
    rw [slashed_concat, String.toList_append, String.toList_append, ih, List.flatMap_append]
    simp

@[simp] theorem segments_empty : segments "" = [] := by decide

/-- The names before a slash, and then those after it. -/
theorem segments_append_slash (a b : String) :
    segments (a ++ "/" ++ b) = segments a ++ segments b := by
  rw [segments, String.toList_append, String.toList_append, List.append_assoc]
  have hslash : "/".toList ++ b.toList = '/' :: b.toList := rfl
  rw [hslash, slashParts_append_slash, List.filter_append, List.map_append]
  rfl

/-- The names of a path are names. -/
theorem isName_of_mem_segments {path name : String} (h : name ∈ segments path) : IsName name := by
  obtain ⟨part, hpart, rfl⟩ := List.mem_map.mp h
  obtain ⟨hmem, hne⟩ := List.mem_filter.mp hpart
  constructor
  · intro h0
    exact absurd (String.toList_ofList.symm.trans (congrArg String.toList h0)) (by simpa using hne)
  · rw [String.toList_ofList]
    exact Text.slash_not_mem_of_mem_slashParts hmem

theorem segments_slashed {names : List String} (h : ∀ n ∈ names, IsName n) :
    segments (slashed names) = names := by
  rw [segments, toList_slashed, slashParts_flatMap fun n hn => (h n hn).2]
  rw [List.filter_cons_of_neg (by simp), List.filter_eq_self.mpr]
  · rw [List.map_map, List.map_congr_left (g := id), List.map_id]
    intro n _
    exact String.ofList_toList
  · intro part hpart
    obtain ⟨n, hn, rfl⟩ := List.mem_map.mp hpart
    simpa using (h n hn).1

/-- **A path and its names say the same.** -/
theorem segments_pathOf {names : List String} (h : ∀ n ∈ names, IsName n) :
    segments (pathOf names) = names := by
  by_cases h0 : names = []
  · subst h0
    decide
  · rw [pathOf_eq_slashed h0, segments_slashed h]

theorem pathOf_inj {a b : List String} (ha : ∀ n ∈ a, IsName n) (hb : ∀ n ∈ b, IsName n)
    (h : pathOf a = pathOf b) : a = b := by
  rw [← segments_pathOf ha, h, segments_pathOf hb]

/-- Between the names stand slashes, and one more in front of them. -/
theorem slashed_eq_intercalate {names : List String} (h : names ≠ []) :
    slashed names = "/" ++ "/".intercalate names := by
  induction names using List.reverseRecOn with
  | nil => exact absurd rfl h
  | append_singleton names name ih =>
    by_cases h0 : names = []
    · subst h0
      rfl
    · rw [slashed_concat, ih h0, String.intercalate_append_of_ne_nil h0 (by simp),
        String.intercalate_singleton, String.append_assoc, String.append_assoc,
        String.append_assoc]

theorem segments_intercalate {names : List String} (h : ∀ n ∈ names, IsName n) :
    segments ("/".intercalate names) = names := by
  by_cases h0 : names = []
  · subst h0
    decide
  · calc
      segments ("/".intercalate names)
        = segments ("" ++ "/" ++ "/".intercalate names) := by
          rw [segments_append_slash, segments_empty, List.nil_append]
      _ = segments (slashed names) := by rw [String.empty_append, slashed_eq_intercalate h0]
      _ = names := segments_slashed h

/-- A text of names begins with another one and a slash if the names begin with those of the
other. -/
theorem intercalate_slash_prefix_iff {a b : List String} (ha : ∀ n ∈ a, IsName n)
    (hb : ∀ n ∈ b, IsName n) (hne : a ≠ []) :
    ("/".intercalate a ++ "/").toList <+: ("/".intercalate b).toList ↔ a <+: b ∧ a ≠ b := by
  constructor
  · rintro ⟨tail, htail⟩
    have htext : "/".intercalate a ++ "/" ++ String.ofList tail = "/".intercalate b := by
      rw [← String.toList_inj, ← htail, String.toList_append, String.toList_ofList]
    have hnames : a ++ segments (String.ofList tail) = b := by
      rw [← segments_intercalate hb, ← htext, segments_append_slash, segments_intercalate ha]
    refine ⟨⟨_, hnames⟩, ?_⟩
    rintro rfl
    -- the text is longer than itself by the slash
    have hlength := congrArg String.length htext
    rw [String.length_append, String.length_append] at hlength
    have hslash : "/".length = 1 := rfl
    omega
  · rintro ⟨⟨more, rfl⟩, hab⟩
    have hmore : more ≠ [] := by
      rintro rfl
      exact hab (List.append_nil a).symm
    have hchars : ("/".intercalate (a ++ more)).toList =
        ("/".intercalate a ++ "/").toList ++ ("/".intercalate more).toList := by
      rw [String.intercalate_append_of_ne_nil hne hmore, String.toList_append]
    rw [hchars]
    exact List.prefix_append _ _

theorem lastSegment_pathOf {names : List String} {name : String} (h : IsName name) :
    Panel.lastSegment (pathOf (names ++ [name])) = name := by
  have hkeep : ∀ c ∈ name.toList.reverse, (decide (c ≠ '/')) = true := by
    intro c hc
    have hne : c ≠ '/' := fun e => h.2 (List.mem_reverse.mp (e ▸ hc))
    exact decide_eq_true hne
  rw [Panel.lastSegment, pathOf_concat, String.toList_append, String.toList_append,
    List.reverse_append, List.reverse_append, List.takeWhile_append_of_pos hkeep]
  simp

end EntryReport
