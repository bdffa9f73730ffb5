import EntryReport.Proofs.Files.Locations
import Mathlib.Data.List.TakeWhile

/-!
# Paths below a path

A path below another one is written with a slash between the two, unless there is one already
(`lead`). One more name adds one component at the end and leaves the others where they are
(`placed_join`). So the components of a path below another one follow those of the other
(`components_joinNames`), and what follows is found again (`stripPrefix?_joinNames`).

Of a path with an extension, `extension?` and `withExtension` change or read no more than the last
name (`extension?_join`, `withExtension_join`), which is parted at its last dot (`splitName_dot`).
-/

namespace EntryReport.Files

open EntryReport.Text (slashParts)

theorem IsFileName.slash_not_mem {name : String} (h : IsFileName name) : '/' ∉ name.toList := h.1.2

namespace Path

variable {p q name : String} {names : List String} {s e cs part : List Char}

/-! ## Where the parts stand -/

/-- The characters of parts, with a slash behind each of them. -/
def extent : List (List Char) → Nat
  | [] => 0
  | part :: parts => part.length + 1 + extent parts

theorem extent_slashParts (cs : List Char) : extent (slashParts cs) = cs.length + 1 := by
  induction cs with
  | nil => rfl
  | cons c cs ih =>
    rw [slashParts]
    split
    · rw [extent, ih, List.length_cons, List.length_nil]
      omega
    · cases hp : slashParts cs with
      | nil => exact absurd hp (Text.slashParts_ne_nil cs)
      | cons part parts =>
        rw [hp, extent] at ih
        rw [extent, List.length_cons, List.length_cons]
        omega

theorem placeParts_append (start : Nat) (parts more : List (List Char)) :
    placeParts start (parts ++ more) =
      placeParts start parts ++ placeParts (start + extent parts) more := by
  induction parts generalizing start with
  | nil => rfl
  | cons part parts ih =>
    have hstart : start + part.length + 1 + extent parts = start + extent (part :: parts) := by
      rw [extent]
      omega
    rw [List.cons_append, placeParts, placeParts, ih, hstart]
    cases ofPart? part <;> rfl

/-- The components of the parts of a path: the first part can be the root or a dot. -/
def placeAll (absolute : Bool) : List (List Char) → List Placed
  | [] => []
  | first :: parts =>
    if first = [] && absolute then ⟨.root, 0, 1⟩ :: placeParts 1 parts
    else if first = ['.'] then ⟨.current, 0, 1⟩ :: placeParts 2 parts
    else placeParts 0 (first :: parts)

theorem placed_eq (p : String) : placed p = placeAll (isAbsolute p) (slashParts p.toList) := by
  rw [placed]
  cases slashParts p.toList <;> rfl

theorem placeAll_append {absolute : Bool} {parts : List (List Char)} (h : parts ≠ [])
    (more : List (List Char)) :
    placeAll absolute (parts ++ more) =
      placeAll absolute parts ++ placeParts (extent parts) more := by
  cases parts with
  | nil => exact absurd rfl h
  | cons first parts =>
    rw [List.cons_append, placeAll, placeAll]
    split
    · next hroot =>
      obtain ⟨rfl, -⟩ : first = [] ∧ absolute = true := by simpa using hroot
      rw [placeParts_append, extent]
      rfl
    · split
      · next hdot =>
        subst hdot
        rw [placeParts_append, extent]
        rfl
      · rw [← List.cons_append, placeParts_append, Nat.zero_add]

/-! ## One more name -/

/-- The path as it stands before a name. -/
def lead (p : String) : String :=
  if p.isEmpty || p.toList.getLast? = some '/' then p else p ++ "/"

theorem isAbsolute_eq_false (h : '/' ∉ p.toList) : isAbsolute p = false := by
  unfold isAbsolute
  cases hp : p.toList with
  | nil => rfl
  | cons c cs =>
    have hc : c ≠ '/' := fun heq => h (by rw [hp, heq]; exact List.mem_cons_self)
    simpa using hc

theorem join_eq (h : '/' ∉ q.toList) : join p q = lead p ++ q := by
  rw [join, isAbsolute_eq_false h, lead]
  split
  · contradiction
  · split <;> rfl

theorem slashParts_of_not_mem (h : '/' ∉ cs) : slashParts cs = [cs] := by
  have hempty : slashParts [] = [[]] := rfl
  simpa using slashParts_append h hempty

theorem placeParts_name (h : IsFileName name) (start : Nat) :
    placeParts start [name.toList] = [⟨.name name, start, start + name.length⟩] := by
  have hcounts : ofPart? name.toList = some (.name name) := by
    have hne : ∀ s : String, name ≠ s → name.toList ≠ s.toList := fun s hs heq =>
      hs (String.toList_inj.mp heq)
    rw [ofPart?, if_neg, if_neg, String.ofList_toList]
    · exact hne ".." h.2.2
    · rw [Bool.or_eq_true, decide_eq_true_eq, decide_eq_true_eq, not_or]
      exact ⟨hne "" h.1.1, hne "." h.2.1⟩
  rw [placeParts, hcounts, placeParts, String.length_toList]

/-- The parts before a name are those of the path, less an empty one at the end. -/
theorem exists_toList_lead (hp : p ≠ "") :
    ∃ cs, (lead p).toList = cs ++ ['/'] ∧ placed p = placeAll (isAbsolute p) (slashParts cs) := by
  rw [placed_eq]
  unfold lead
  split
  · next hlast =>
    have hlast : p.toList.getLast? = some '/' := by simpa [hp] using hlast
    obtain ⟨cs, hcs⟩ := List.getLast?_eq_some_iff.mp hlast
    refine ⟨cs, hcs, ?_⟩
    rw [hcs, slashParts_append_slash, placeAll_append (Text.slashParts_ne_nil cs)]
    exact List.append_nil _
  · exact ⟨p.toList, String.toList_append, rfl⟩

theorem isAbsolute_lead_append (hp : p ≠ "") : isAbsolute (lead p ++ q) = isAbsolute p := by
  have hchars : p.toList ≠ [] := fun heq => hp (String.toList_inj.mp heq)
  unfold isAbsolute lead
  split
  · rw [String.toList_append, List.head?_append_of_ne_nil _ hchars]
  · rw [String.append_assoc, String.toList_append, List.head?_append_of_ne_nil _ hchars]

/-- **A name below a path** is one more component. -/
theorem placed_join (h : IsFileName name) :
    placed (join p name) =
      placed p ++ [⟨.name name, (lead p).length, (lead p).length + name.length⟩] := by
  rw [join_eq h.slash_not_mem, ← placeParts_name h]
  by_cases hp : p = ""
  · -- the name is the first part, which is special only if it is a dot
    subst hp
    have hfirst : name.toList ≠ ['.'] := fun heq => h.2.1 (String.toList_inj.mp heq)
    have hlead : lead "" ++ name = name := String.empty_append
    rw [hlead, placed_eq name, slashParts_of_not_mem h.slash_not_mem,
      isAbsolute_eq_false h.slash_not_mem, placeAll, Bool.and_false, if_neg Bool.false_ne_true,
      if_neg hfirst]
    rfl
  · obtain ⟨cs, hcs, hplaced⟩ := exists_toList_lead hp
    have hlength : (lead p).length = extent (slashParts cs) := by
      rw [← String.length_toList, hcs, extent_slashParts, List.length_append]
      rfl
    rw [hplaced, hlength, placed_eq, isAbsolute_lead_append hp, String.toList_append, hcs,
      List.append_assoc, List.singleton_append, slashParts_append_slash,
      slashParts_of_not_mem h.slash_not_mem, placeAll_append (Text.slashParts_ne_nil cs)]

theorem components_join (h : IsFileName name) :
    components (join p name) = components p ++ [.name name] := by
  rw [components, placed_join h, List.map_append]
  rfl

theorem fileName?_join (h : IsFileName name) : fileName? (join p name) = some name := by
  rw [fileName?, placed_join h, List.getLast?_concat]

/-! ## More names -/

open FileSystem (joinNames)

theorem joinNames_concat (p : String) (names : List String) (name : String) :
    joinNames p (names ++ [name]) = join (joinNames p names) name := by
  rw [joinNames, List.foldl_append]
  rfl

theorem components_joinNames (h : ∀ n ∈ names, IsFileName n) :
    components (joinNames p names) = components p ++ names.map .name := by
  induction names using List.reverseRecOn with
  | nil => exact (List.append_nil _).symm
  | append_singleton names name ih =>
    obtain ⟨hnames, hname⟩ := List.forall_mem_append.mp h
    rw [joinNames_concat, components_join (List.forall_mem_singleton.mp hname), ih hnames,
      List.map_append, List.append_assoc]
    rfl

/-- The names are found in the components. -/
theorem joinNames_inj {names' : List String} (h : ∀ n ∈ names, IsFileName n)
    (h' : ∀ n ∈ names', IsFileName n) (heq : joinNames p names = joinNames p names') :
    names = names' := by
  have hcomponents := congrArg components heq
  rw [components_joinNames h, components_joinNames h'] at hcomponents
  exact (List.map_inj_right fun _ _ => Component.name.inj).mp (List.append_cancel_left hcomponents)

theorem lead_append_name (h : IsName name) : lead (p ++ name) = p ++ name ++ "/" := by
  have hchars : name.toList ≠ [] := fun heq => h.1 (String.toList_inj.mp heq)
  have hlast : (p ++ name).toList.getLast? ≠ some '/' := by
    rw [String.toList_append, List.getLast?_append_of_ne_nil _ hchars]
    exact fun hslash => h.2 (List.mem_of_getLast? hslash)
  have hempty : p ++ name ≠ "" := by simp [h.1]
  rw [lead, if_neg (by simpa [hempty] using hlast)]

/-- The names stand behind the path as they are written, with slashes between them. -/
theorem joinNames_eq (hne : names ≠ []) (h : ∀ n ∈ names, IsFileName n) :
    joinNames p names = lead p ++ "/".intercalate names := by
  induction names generalizing p with
  | nil => exact absurd rfl hne
  | cons name names ih =>
    obtain ⟨hname, hnames⟩ := List.forall_mem_cons.mp h
    have hcons : joinNames p (name :: names) = joinNames (lead p ++ name) names := by
      rw [joinNames, List.foldl_cons, join_eq hname.slash_not_mem]
      rfl
    rw [hcons]
    by_cases hlast : names = []
    · subst hlast
      rw [String.intercalate_singleton]
      rfl
    · rw [ih hlast hnames, lead_append_name hname.1, String.intercalate_cons_of_ne_nil hlast]
      simp only [String.append_assoc]

theorem joinNames_empty (h : ∀ n ∈ names, IsFileName n) :
    joinNames "" names = "/".intercalate names := by
  by_cases hne : names = []
  · subst hne
    rfl
  · rw [joinNames_eq hne h]
    exact String.empty_append

/-- What follows the components of a path stands behind it. -/
theorem placed_joinNames (hne : names ≠ []) (h : ∀ n ∈ names, IsFileName n) :
    ∃ first last rest, rest.head? = some first ∧ rest.getLast? = some last ∧
      first.start = (lead p).length ∧ last.stop = (joinNames p names).length ∧
      placed (joinNames p names) = placed p ++ rest := by
  induction names using List.reverseRecOn with
  | nil => exact absurd rfl hne
  | append_singleton names name ih =>
    obtain ⟨hnames, hname⟩ := List.forall_mem_append.mp h
    have hname := List.forall_mem_singleton.mp hname
    have hstop : (joinNames p (names ++ [name])).length =
        (lead (joinNames p names)).length + name.length := by
      rw [joinNames_concat, join_eq hname.slash_not_mem, String.length_append]
    rw [hstop, joinNames_concat, placed_join hname]
    by_cases hfirst : names = []
    · subst hfirst
      exact ⟨_, _, _, rfl, rfl, rfl, rfl, rfl⟩
    · obtain ⟨first, last, rest, hhead, -, hstart, -, hplaced⟩ := ih hfirst hnames
      let added : Placed := ⟨.name name, (lead (joinNames p names)).length,
        (lead (joinNames p names)).length + name.length⟩
      refine ⟨first, added, rest ++ [added], ?_, List.getLast?_concat, hstart, rfl, ?_⟩
      · rw [List.head?_append, hhead]
        rfl
      · rw [hplaced, List.append_assoc]

theorem after?_append (base rest : List Placed) :
    after? (base ++ rest) (base.map (·.component)) = some rest := by
  induction base with
  | nil => cases rest <;> rfl
  | cons c base ih => rw [List.cons_append, List.map_cons, after?, if_pos rfl, ih]

/-- **What follows a path** is as it was written. -/
theorem stripPrefix?_joinNames (hne : names ≠ []) (h : ∀ n ∈ names, IsFileName n) :
    stripPrefix? (joinNames p names) p = some ("/".intercalate names) := by
  obtain ⟨first, last, rest, hhead, hlast, hstart, hstop, hplaced⟩ :=
    placed_joinNames (p := p) hne h
  have hcut : cut (joinNames p names) (lead p).length (joinNames p names).length =
      "/".intercalate names := by
    rw [cut, List.take_of_length_le (Nat.le_of_eq String.length_toList), joinNames_eq hne h,
      String.toList_append, ← String.length_toList, List.drop_left, String.ofList_toList]
  rw [stripPrefix?, hplaced, components, after?_append, Option.map_some, hhead, hlast]
  simp only [hstart, hstop, hcut]

/-! ## Extensions -/

theorem splitName_of_not_mem (h : '.' ∉ cs) : splitName cs = (cs, none) := by
  have hall : ∀ c ∈ cs.reverse, decide (c ≠ '.') = true := fun c hc =>
    decide_eq_true fun heq => h (List.mem_reverse.mp (heq ▸ hc))
  have hafter : (cs.reverse.takeWhile (· ≠ '.')).reverse = cs := by
    rw [List.takeWhile_eq_self_iff.mpr hall, List.reverse_reverse]
  rw [splitName, hafter, if_pos]
  simp

/-- A name is parted at its last dot, unless nothing else stands before that. -/
theorem splitName_dot (h : '.' ∉ e) : splitName (s ++ '.' :: e) =
    if s = [] ∨ s ++ '.' :: e = ['.', '.'] then (s ++ '.' :: e, none) else (s, some e) := by
  have hafter : ((s ++ '.' :: e).reverse.takeWhile (· ≠ '.')).reverse = e := by
    have hkeep : ∀ c ∈ e.reverse, decide (c ≠ '.') = true := fun c hc =>
      decide_eq_true fun heq => h (List.mem_reverse.mp (heq ▸ hc))
    rw [List.reverse_append, List.reverse_cons, List.append_assoc,
      List.takeWhile_append_of_pos hkeep]
    simp
  have hbefore : (s ++ '.' :: e).take ((s ++ '.' :: e).length - e.length - 1) = s := by
    have hlength : (s ++ '.' :: e).length - e.length - 1 = s.length := by
      rw [List.length_append, List.length_cons]
      omega
    rw [hlength, List.take_left]
  have hlength : e.length ≠ (s ++ '.' :: e).length := by
    rw [List.length_append, List.length_cons]
    omega
  rw [splitName, hafter, hbefore]
  simp only [hlength, decide_false, Bool.or_false, Bool.or_eq_true, decide_eq_true_eq]
  exact if_congr or_comm rfl rfl

/-- What has an extension has a dot before it, and something before that. -/
theorem eq_append_of_splitName (h : (splitName cs).2 = some e) :
    ∃ s, s ≠ [] ∧ cs = s ++ '.' :: e := by
  by_cases hdot : '.' ∈ cs
  · obtain ⟨after, before, heq, hlast⟩ := List.eq_append_cons_of_mem (List.mem_reverse.mpr hdot)
    have hcs : cs = before.reverse ++ '.' :: after.reverse := by
      rw [← List.reverse_reverse cs, heq, List.reverse_append, List.reverse_cons, List.append_assoc]
      rfl
    rw [hcs, splitName_dot (fun hmem => hlast (List.mem_reverse.mp hmem))] at h
    split at h
    · exact absurd h (by simp)
    · next hstem =>
      rw [not_or] at hstem
      obtain rfl : after.reverse = e := by simpa using h
      exact ⟨before.reverse, hstem.1, hcs⟩
  · rw [splitName_of_not_mem hdot] at h
    exact absurd h (by simp)

theorem extension?_join (h : IsFileName name) :
    extension? (join p name) = (splitName name.toList).2.map String.ofList := by
  rw [extension?, fileName?_join h]
  rfl

theorem cut_append (a b : String) : cut (a ++ b) 0 a.length = a := by
  rw [cut, List.drop_zero, String.toList_append, ← String.length_toList, List.take_left,
    String.ofList_toList]

/-- A stem with a dot behind it. -/
theorem splitName_stem {stem : String} (h : IsFileName stem) (he : '.' ∉ e) :
    splitName (stem.toList ++ '.' :: e) = (stem.toList, some e) := by
  have hne : ∀ t : String, stem ≠ t → stem.toList ≠ t.toList := fun t ht heq =>
    ht (String.toList_inj.mp heq)
  have hdot := hne "." h.2.1
  rw [splitName_dot he, if_neg]
  rintro (hnil | hup)
  · exact hne "" h.1.1 hnil
  · cases hs : stem.toList with
    | nil => exact hne "" h.1.1 hs
    | cons c s =>
      rw [hs] at hup hdot
      cases s with
      | nil => exact hdot (by simpa using congrArg (·.take 1) hup)
      | cons d s => simp at hup

theorem isFileName_concat_dot {stem : String} (h : IsFileName stem) :
    IsFileName (stem ++ ".") := by
  have hne : ∀ t : String, stem ≠ t → stem ++ "." ≠ t ++ "." := fun t ht heq =>
    ht (String.append_left_inj "." |>.mp heq)
  refine ⟨⟨by simp, ?_⟩, hne "" h.1.1, hne "." h.2.1⟩
  rw [String.toList_append, List.mem_append, not_or]
  exact ⟨h.slash_not_mem, by decide⟩

/-- **The path of a name without its extension.** The path up to the dot is read once more on the
way, and a stem has to stand before the dot for it to be a name still. -/
theorem withExtension_join {stem extension : String} (h : IsFileName (stem ++ "." ++ extension))
    (hstem : IsFileName stem) (hext : '.' ∉ extension.toList) :
    withExtension (join p (stem ++ "." ++ extension)) "" = join p stem := by
  have hdotted := isFileName_concat_dot hstem
  have hsplit : splitName (stem ++ "." ++ extension).toList =
      (stem.toList, some extension.toList) := by
    rw [String.toList_append, String.toList_append, List.append_assoc]
    exact splitName_stem hstem hext
  have hsplit' : splitName (stem ++ ".").toList = (stem.toList, some []) := by
    rw [String.toList_append]
    exact splitName_stem hstem List.not_mem_nil
  have hown : extension? (join p (stem ++ "." ++ extension)) = some extension := by
    rw [extension?_join h, hsplit, Option.map_some, String.ofList_toList]
  -- the dot stays when the extension is cut off, and goes as what is before an empty extension
  have hread : cut (join p (stem ++ "." ++ extension)) 0
      ((join p (stem ++ "." ++ extension)).length - extension.length) = join p (stem ++ ".") := by
    have hjoin : join p (stem ++ "." ++ extension) = join p (stem ++ ".") ++ extension := by
      rw [join_eq h.slash_not_mem, join_eq hdotted.slash_not_mem, ← String.append_assoc]
    rw [hjoin, String.length_append, Nat.add_sub_cancel, cut_append]
  rw [withExtension, hown, Option.getD_some, hread, setExtension, placed_join hdotted,
    List.getLast?_concat]
  simp only [hsplit']
  rw [join_eq hdotted.slash_not_mem, join_eq hstem.slash_not_mem, String.length_toList,
    ← String.length_append, ← String.append_assoc, cut_append]
  exact String.append_empty

end Path

end EntryReport.Files
