import EntryReport.Files.FileSystem
import EntryReport.Proofs.Results
import EntryReport.Proofs.Segments
import Mathlib.Data.List.Basic

/-!
# Paths and locations

A path leads to a location part by part. In a `WellFormed` file system locations are made of names
that can stand between slashes, and so is every location that a path leads to (`named_of_trace`).

* `find_eq_ok_iff`, `locate?_eq_some_iff`: what a path leads to;
* `canonical_of_locate?`: spellings of one path have the same canonical path;
* `WellFormed.locate?_eq_of_canonical_eq`: and no others do.
-/

namespace EntryReport.Files

/-- What a file or a directory can be called. -/
def IsFileName (name : String) : Prop := IsName name ∧ name ≠ "." ∧ name ≠ ".."

instance (name : String) : Decidable (IsFileName name) := inferInstanceAs (Decidable (_ ∧ _))

namespace FileSystem

variable {fs : FileSystem} {path path' : String} {loc loc' : Location} {n : FileNode}

/-- A location has one node, and locations are made of names. -/
structure WellFormed (fs : FileSystem) : Prop where
  nodup : (fs.nodes.map (·.1)).Nodup
  named : ∀ x ∈ fs.nodes, x.1 ≠ [] ∧ ∀ name ∈ x.1, IsFileName name
  workingDirectory : ∀ name ∈ fs.workingDirectory, IsFileName name

/-! ## What a path leads to -/

theorem follow_eq_ok_iff :
    fs.follow path = .ok loc ↔ isTooLong path = false ∧ fs.trace path = .ok loc := by
  unfold follow
  cases isTooLong path <;> simp

theorem find_eq_ok_iff :
    fs.find path = .ok (loc, n) ↔ fs.follow path = .ok loc ∧ fs.node? loc = some n := by
  unfold find
  cases fs.follow path with
  | error err => simp [bind, Except.bind]
  | ok found =>
    simp only [ok_bind, Except.ok.injEq]
    cases hn : fs.node? found with
    | none =>
      refine iff_of_false (by simp) ?_
      rintro ⟨rfl, h⟩
      rw [hn] at h
      exact absurd h (by simp)
    | some m =>
      simp only [Except.ok.injEq, Prod.mk.injEq]
      constructor
      · rintro ⟨rfl, rfl⟩
        exact ⟨rfl, hn⟩
      · rintro ⟨rfl, h⟩
        rw [hn, Option.some.injEq] at h
        exact ⟨rfl, h⟩

theorem locate?_eq_some_iff : fs.locate? path = some loc ↔ ∃ n, fs.find path = .ok (loc, n) := by
  unfold locate?
  cases fs.find path with
  | error err => simp [Except.toOption]
  | ok found =>
    obtain ⟨l, m⟩ := found
    simp [Except.toOption]

theorem exists?_of_locate? (h : fs.locate? path = some loc) : fs.exists? path = true := by
  rw [exists?, h]
  rfl

/-- The canonical path of what exists is that of its location. -/
theorem canonical_of_locate? (h : fs.locate? path = some loc) : fs.canonical path = pathOf loc := by
  obtain ⟨n, hfind⟩ := locate?_eq_some_iff.mp h
  obtain ⟨hfollow, hn⟩ := find_eq_ok_iff.mp hfind
  rw [canonical, (follow_eq_ok_iff.mp hfollow).2]
  simp [hn]

/-- A dot in front of a relative path stays in the working directory. -/
theorem trace_dot (hwd : fs.node? fs.workingDirectory = some .directory) (hne : path ≠ "")
    (hrelative : Path.isAbsolute path = false) : fs.trace ("./" ++ path) = fs.trace path := by
  have hrelative' : Path.isAbsolute ("./" ++ path) = false := by
    rw [Path.isAbsolute, String.toList_append]
    rfl
  have hparts : Text.slashParts ("./" ++ path).toList = ['.'] :: Text.slashParts path.toList := by
    rw [String.toList_append]
    rfl
  have hstay : fs.enter fs.workingDirectory ['.'] = .ok fs.workingDirectory := by
    simp [enter, hwd]
  have hempty : path.isEmpty = false := by simpa using hne
  have hempty' : ("./" ++ path).isEmpty = false := by simp
  unfold trace start
  rw [hempty, hempty', hrelative, hrelative', hparts, walk, List.foldlM_cons]
  simp only [Bool.false_eq_true, if_false, hstay, ok_bind]
  rfl

/-- What stands below the root is in the list of nodes. -/
theorem mem_of_node? (hne : loc ≠ []) (h : fs.node? loc = some n) : (loc, n) ∈ fs.nodes := by
  rw [node?, if_neg hne] at h
  obtain ⟨before, after, heq, -⟩ := List.lookup_eq_some_iff.mp h
  simp [heq]

/-- A file is in the list of nodes. -/
theorem mem_nodes_of_node? {content : List UInt8} {time : Timestamp}
    (h : fs.node? loc = some (.file content time)) : loc ∈ fs.nodes.map (·.1) := by
  have hne : loc ≠ [] := by
    rintro rfl
    simp [node?] at h
  exact List.mem_map_of_mem (mem_of_node? hne h)

/-- What is in the list of nodes is what stands at its location. -/
theorem WellFormed.node?_of_mem (h : fs.WellFormed) (hmem : (loc, n) ∈ fs.nodes) :
    fs.node? loc = some n := by
  obtain ⟨before, after, heq⟩ := List.append_of_mem hmem
  have hkeys := h.nodup
  rw [heq, List.map_append, List.map_cons] at hkeys
  have hfirst : loc ∉ before.map (·.1) := fun hin =>
    (List.nodup_append.mp hkeys).2.2 loc hin loc List.mem_cons_self rfl
  rw [node?, if_neg (h.named _ hmem).1, List.lookup_eq_some_iff]
  refine ⟨before, after, heq, fun x hx => ?_⟩
  have hne : loc ≠ x.1 := fun hloc => hfirst (hloc ▸ List.mem_map_of_mem hx)
  simpa using hne

/-- A file that can be read is there. -/
theorem find_of_readText {text : String} (h : fs.readText path = .ok text) :
    ∃ loc content time, fs.find path = .ok (loc, .file content time) := by
  unfold readText readBytes at h
  obtain ⟨content, hbytes, -⟩ := bind_eq_ok_iff.mp h
  obtain ⟨⟨loc, n⟩, hfind, hn⟩ := bind_eq_ok_iff.mp hbytes
  cases n with
  | directory => exact absurd hn (by simp)
  | file content time => exact ⟨loc, content, time, hfind⟩

theorem find_of_isDirectory (h : fs.isDirectory path = true) :
    ∃ loc, fs.find path = .ok (loc, .directory) := by
  unfold isDirectory at h
  split at h
  · next loc hfind => exact ⟨loc, hfind⟩
  · exact absurd h (by simp)

/-! ## Locations and their names -/

theorem enter_eq_ok_cases {part : List Char} (h : fs.enter loc part = .ok loc') :
    loc' = loc ∨ loc' = loc.dropLast ∨
      (part ≠ [] ∧ part ≠ ['.'] ∧ part ≠ ['.', '.'] ∧ loc' = loc ++ [String.ofList part]) := by
  unfold enter at h
  split at h
  · exact absurd h (by simp)
  · exact absurd h (by simp)
  · simp only [Bool.or_eq_true, decide_eq_true_eq] at h
    split at h
    · exact Or.inl (by simpa using h.symm)
    · next hdot =>
      split at h
      · exact Or.inr (Or.inl (by simpa using h.symm))
      · next hup =>
        split at h
        · exact absurd h (by simp)
        · rw [not_or] at hdot
          exact Or.inr (Or.inr ⟨hdot.1, hdot.2, hup, by simpa using h.symm⟩)

theorem isFileName_ofList {part : List Char} (hnil : part ≠ []) (hdot : part ≠ ['.'])
    (hup : part ≠ ['.', '.']) (hslash : '/' ∉ part) : IsFileName (String.ofList part) := by
  have hne : ∀ s : String, part ≠ s.toList → String.ofList part ≠ s := by
    rintro _ h rfl
    exact h String.toList_ofList.symm
  exact ⟨⟨hne "" hnil, by rwa [String.toList_ofList]⟩, hne "." hdot, hne ".." hup⟩

/-- A walk over parts without slashes stays among named locations. -/
theorem named_of_walk {parts : List (List Char)} (hparts : ∀ part ∈ parts, '/' ∉ part)
    (hloc : ∀ name ∈ loc, IsFileName name) (h : fs.walk loc parts = .ok loc') :
    ∀ name ∈ loc', IsFileName name := by
  induction parts generalizing loc with
  | nil =>
    cases h
    exact hloc
  | cons part parts ih =>
    obtain ⟨next, hnext, hrest⟩ := bind_eq_ok_iff.mp (by simpa [walk] using h)
    refine ih (fun p hp => hparts p (List.mem_cons_of_mem _ hp)) ?_ hrest
    intro name hname
    rcases enter_eq_ok_cases hnext with rfl | rfl | ⟨hnil, hdot, hup, rfl⟩
    · exact hloc name hname
    · exact hloc name (List.dropLast_subset loc hname)
    · rcases List.mem_append.mp hname with hname | hname
      · exact hloc name hname
      · rw [List.mem_singleton.mp hname]
        exact isFileName_ofList hnil hdot hup (hparts part List.mem_cons_self)

theorem WellFormed.named_of_trace (h : fs.WellFormed) (ht : fs.trace path = .ok loc) :
    ∀ name ∈ loc, IsFileName name := by
  unfold trace at ht
  split at ht
  · exact absurd ht (by simp)
  · refine named_of_walk (fun _ => Text.slash_not_mem_of_mem_slashParts) ?_ ht
    unfold start
    split
    · exact fun name hname => absurd hname List.not_mem_nil
    · exact h.workingDirectory

theorem WellFormed.named_of_locate? (h : fs.WellFormed) (hl : fs.locate? path = some loc) :
    ∀ name ∈ loc, IsFileName name := by
  obtain ⟨n, hfind⟩ := locate?_eq_some_iff.mp hl
  exact h.named_of_trace (follow_eq_ok_iff.mp (find_eq_ok_iff.mp hfind).1).2

/-- The path of a location puts a slash before each name. -/
theorem pathOf_eq (loc : Location) : pathOf loc = EntryReport.pathOf loc := by
  by_cases h : loc = []
  · subst h
    rfl
  · rw [pathOf, EntryReport.pathOf_eq_slashed h, slashed_eq_intercalate h]

theorem pathOf_inj (h : ∀ name ∈ loc, IsFileName name) (h' : ∀ name ∈ loc', IsFileName name)
    (heq : pathOf loc = pathOf loc') : loc = loc' := by
  rw [pathOf_eq, pathOf_eq] at heq
  exact EntryReport.pathOf_inj (fun n hn => (h n hn).1) (fun n hn => (h' n hn).1) heq

/-- Paths with the same canonical path lead to the same place. -/
theorem WellFormed.locate?_eq_of_canonical_eq (h : fs.WellFormed) (hl : fs.locate? path = some loc)
    (hl' : fs.locate? path' = some loc') (heq : fs.canonical path = fs.canonical path') :
    loc = loc' := by
  rw [canonical_of_locate? hl, canonical_of_locate? hl'] at heq
  exact pathOf_inj (h.named_of_locate? hl) (h.named_of_locate? hl') heq

end FileSystem

end EntryReport.Files
