import EntryReport.Proofs.Files.Locations

/-!
# File systems with the same directories

Where files are made, changed or removed, the directories stay (`keepsDirectories_put`,
`keepsDirectories_remove`). A path that led somewhere leads there still: a way goes through
directories only (`KeepsDirectories.trace`). So a file is found as before, if nothing was done to
that file (`KeepsDirectories.find`).
-/

namespace EntryReport.Files.FileSystem

variable {fs fs' fs'' : FileSystem} {path : String} {loc loc' : Location} {n : FileNode}

/-- All directories are directories of the other file system as well, which is seen from the same
one. -/
structure KeepsDirectories (fs fs' : FileSystem) : Prop where
  workingDirectory : fs'.workingDirectory = fs.workingDirectory
  directory : ∀ loc, fs.node? loc = some .directory → fs'.node? loc = some .directory

namespace KeepsDirectories

theorem trans (h : KeepsDirectories fs fs') (h' : KeepsDirectories fs' fs'') :
    KeepsDirectories fs fs'' :=
  ⟨h'.workingDirectory.trans h.workingDirectory,
    fun loc hloc => h'.directory loc (h.directory loc hloc)⟩

/-- Directories that can be entered can be entered still. -/
theorem enter (h : KeepsDirectories fs fs') {part : List Char}
    (henter : fs.enter loc part = .ok loc') : fs'.enter loc part = .ok loc' := by
  unfold FileSystem.enter at henter ⊢
  cases hn : fs.node? loc with
  | none => simp [hn] at henter
  | some node =>
    cases node with
    | file content modified => simp [hn] at henter
    | directory => rwa [h.directory loc hn, ← hn]

theorem walk (h : KeepsDirectories fs fs') {parts : List (List Char)}
    (hwalk : fs.walk loc parts = .ok loc') : fs'.walk loc parts = .ok loc' := by
  induction parts generalizing loc with
  | nil => exact hwalk
  | cons part parts ih =>
    rw [FileSystem.walk, List.foldlM_cons] at hwalk ⊢
    obtain ⟨next, hnext, hrest⟩ := bind_eq_ok_iff.mp hwalk
    rw [h.enter hnext, ok_bind]
    exact ih hrest

/-- **A path leads where it led.** -/
theorem trace (h : KeepsDirectories fs fs') (htrace : fs.trace path = .ok loc) :
    fs'.trace path = .ok loc := by
  unfold FileSystem.trace start at htrace ⊢
  split at htrace
  · cases htrace
  · next hempty =>
    rw [if_neg hempty, h.workingDirectory]
    exact h.walk htrace

/-- What a path led to is found there, if it was left alone. -/
theorem find (h : KeepsDirectories fs fs') (hfind : fs.find path = .ok (loc, n))
    (hn : fs'.node? loc = fs.node? loc) : fs'.find path = .ok (loc, n) := by
  rw [find_eq_ok_iff, follow_eq_ok_iff] at hfind ⊢
  obtain ⟨⟨hlong, htrace⟩, hnode⟩ := hfind
  exact ⟨⟨hlong, h.trace htrace⟩, hn.trans hnode⟩

/-- A directory is always left alone. -/
theorem find_directory (h : KeepsDirectories fs fs')
    (hfind : fs.find path = .ok (loc, .directory)) : fs'.find path = .ok (loc, .directory) := by
  have hnode := (find_eq_ok_iff.mp hfind).2
  exact h.find hfind ((h.directory loc hnode).trans hnode.symm)

end KeepsDirectories

/-! ## Making, changing and removing files -/

/-- **A file that is made or changed** takes no directory away. -/
theorem keepsDirectories_put (h : fs.node? loc ≠ some .directory) (n : FileNode) :
    KeepsDirectories fs (fs.put loc n) where
  workingDirectory := rfl
  directory other hother := by
    have hne : loc ≠ [] := by
      rintro rfl
      exact h rfl
    have hloc : other ≠ loc := by
      rintro rfl
      exact h hother
    rw [node?_put hne, if_neg hloc, hother]

/-- **Nor does a file that is removed.** -/
theorem keepsDirectories_remove (h : fs.node? loc ≠ some .directory) :
    KeepsDirectories fs (fs.remove loc) where
  workingDirectory := rfl
  directory other hother := by
    have hloc : other ≠ loc := by
      rintro rfl
      exact h hother
    rw [← hother]
    simp only [node?, remove, lookup_filter_ne hloc]

/-- What is put at a location made of names keeps a file system well formed. -/
theorem WellFormed.put (h : fs.WellFormed) (hne : loc ≠ []) (hloc : ∀ name ∈ loc, IsFileName name)
    (n : FileNode) : (fs.put loc n).WellFormed where
  nodup := by
    refine List.nodup_cons.mpr ⟨?_, h.nodup.sublist (List.filter_sublist.map _)⟩
    simp
  named :=
    List.forall_mem_cons.mpr ⟨⟨hne, hloc⟩, fun x hx => h.named x (List.mem_filter.mp hx).1⟩
  workingDirectory := h.workingDirectory

end EntryReport.Files.FileSystem
