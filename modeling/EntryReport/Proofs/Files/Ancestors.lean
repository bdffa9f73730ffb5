import EntryReport.Proofs.Files.Components
import EntryReport.Proofs.Files.Keeping
import Mathlib.Data.List.Infix

/-!
# The absolute paths of locations

The absolute path of a location is made by joining its names to the root (`pathOf_concat`). Its
ancestors are the absolute paths of the locations above it, the nearest first (`ancestors_pathOf`).

In a `Grounded` file system, where everything stands in directories, a walk from the root gets to
every directory (`Grounded.walkable`). The absolute path of what stands in a directory that can be
walked to leads there, unless it is too long, and nowhere else (`Walkable.exists?_pathOf_iff`).
-/

namespace EntryReport.Files

open FileSystem (joinNames)

variable {fs : FileSystem} {loc dir : Location} {name : String}

/-! ## Absolute paths -/

namespace Path

theorem isAbsolute_pathOf (loc : Location) : isAbsolute (FileSystem.pathOf loc) = true := by
  rw [isAbsolute, FileSystem.pathOf, String.toList_append]
  rfl

theorem pathOf_eq_joinNames (h : ∀ n ∈ loc, IsFileName n) :
    FileSystem.pathOf loc = joinNames "/" loc := by
  by_cases hne : loc = []
  · subst hne
    rfl
  · have hlead : lead "/" = "/" := by decide
    rw [joinNames_eq hne h, hlead, FileSystem.pathOf]

/-- **One more name** is joined on. -/
theorem pathOf_concat (h : ∀ n ∈ loc, IsFileName n) (hname : IsFileName name) :
    FileSystem.pathOf (loc ++ [name]) = join (FileSystem.pathOf loc) name := by
  have hall : ∀ n ∈ loc ++ [name], IsFileName n :=
    List.forall_mem_append.mpr ⟨h, List.forall_mem_singleton.mpr hname⟩
  rw [pathOf_eq_joinNames hall, joinNames_concat, pathOf_eq_joinNames h]

/-! ## Ancestors -/

theorem cut_length (p : String) : cut p 0 p.length = p := by
  have h := cut_append p ""
  rwa [String.append_empty] at h

/-- The components of a path take no more than the path, and the last one takes all of it. -/
structure Filled (p : String) : Prop where
  stop_le : ∀ c ∈ placed p, c.stop ≤ p.length
  last : upTo p (placed p).getLast? = p

theorem filled_root : Filled "/" where
  stop_le := by decide
  last := by decide

theorem exists_join_eq (p : String) (h : IsFileName name) : ∃ more, join p name = p ++ more := by
  rw [join_eq h.slash_not_mem]
  unfold lead
  split
  · exact ⟨name, rfl⟩
  · exact ⟨"/" ++ name, String.append_assoc⟩

/-- One more component takes all of the path that it ends. -/
theorem Filled.join {p : String} (h : Filled p) (hname : IsFileName name) :
    Filled (Path.join p name) where
  stop_le := by
    obtain ⟨more, hmore⟩ := exists_join_eq p hname
    rw [placed_join hname]
    intro c hc
    rcases List.mem_append.mp hc with hc | hc
    · have := h.stop_le c hc
      rw [hmore, String.length_append]
      omega
    · rw [List.mem_singleton.mp hc, join_eq hname.slash_not_mem, String.length_append]
  last := by
    rw [placed_join hname, List.getLast?_concat, upTo, ← String.length_append,
      ← join_eq hname.slash_not_mem]
    exact cut_length _

theorem filled_pathOf (h : ∀ n ∈ loc, IsFileName n) : Filled (FileSystem.pathOf loc) := by
  induction loc using List.reverseRecOn with
  | nil => exact filled_root
  | append_singleton loc name ih =>
    obtain ⟨hloc, hname⟩ := List.forall_mem_append.mp h
    have hname := List.forall_mem_singleton.mp hname
    rw [pathOf_concat hloc hname]
    exact (ih hloc).join hname

theorem upTo_append {p : String} {last : Option Placed} (h : ∀ c ∈ last, c.stop ≤ p.length)
    (more : String) : upTo (p ++ more) last = upTo p last := by
  cases last with
  | none => rfl
  | some c =>
    have hc : c.stop ≤ p.toList.length := String.length_toList ▸ h c rfl
    rw [upTo, upTo, cut, cut, String.toList_append, List.take_append_of_le_length hc]

/-- What follows the components does not count for their parents. -/
theorem parentsFrom_append {p : String} {cs : List Placed} (h : ∀ c ∈ cs, c.stop ≤ p.length)
    (more : String) : parentsFrom (p ++ more) cs = parentsFrom p cs := by
  induction cs with
  | nil => rfl
  | cons c cs ih =>
    have hrest : ∀ c ∈ cs, c.stop ≤ p.length := fun c hc => h c (List.mem_cons_of_mem _ hc)
    have hhead : ∀ c ∈ cs.head?, c.stop ≤ p.length :=
      fun c hc => hrest c (List.mem_of_head? hc)
    obtain ⟨component, start, stop⟩ := c
    cases component with
    | root => rfl
    | _ => rw [parentsFrom, parentsFrom, upTo_append hhead, ih hrest] <;> simp

/-- **The ancestors of a path below another one** are those of the other one. -/
theorem ancestors_join {p : String} (h : Filled p) (hname : IsFileName name) :
    ancestors (join p name) = join p name :: ancestors p := by
  obtain ⟨more, hmore⟩ := exists_join_eq p hname
  have hstop : ∀ c ∈ (placed p).reverse, c.stop ≤ p.length :=
    fun c hc => h.stop_le c (List.mem_reverse.mp hc)
  have hlast : ∀ c ∈ (placed p).getLast?, c.stop ≤ p.length :=
    fun c hc => h.stop_le c (List.mem_of_getLast? hc)
  rw [ancestors, placed_join hname, List.reverse_concat, parentsFrom, List.head?_reverse, hmore,
    upTo_append hlast, h.last, parentsFrom_append hstop, ancestors]
  simp

/-- **The ancestors of a location's path** are the paths of the locations above it, the nearest
first. -/
theorem ancestors_pathOf (h : ∀ n ∈ loc, IsFileName n) :
    ancestors (FileSystem.pathOf loc) = loc.inits.reverse.map FileSystem.pathOf := by
  induction loc using List.reverseRecOn with
  | nil => decide
  | append_singleton loc name ih =>
    obtain ⟨hloc, hname⟩ := List.forall_mem_append.mp h
    have hname := List.forall_mem_singleton.mp hname
    rw [pathOf_concat hloc hname, ancestors_join (filled_pathOf hloc) hname, ih hloc,
      ← pathOf_concat hloc hname, List.inits_append]
    simp

end Path

/-! ## Where an absolute path leads -/

namespace FileSystem

/-- Whatever stands in a file system stands in a directory, and its names are not too long. -/
structure Grounded (fs : FileSystem) : Prop where
  inDirectory : ∀ x ∈ fs.nodes, fs.node? x.1.dropLast = some .directory
  short : ∀ x ∈ fs.nodes, ∀ name ∈ x.1, name.utf8ByteSize ≤ nameLimit

/-- A directory that a walk from the root gets to, through directories and by their names. -/
structure Walkable (fs : FileSystem) (loc : Location) : Prop where
  directory : ∀ above, above <+: loc → fs.node? above = some .directory
  named : ∀ n ∈ loc, IsFileName n
  short : ∀ n ∈ loc, n.utf8ByteSize ≤ nameLimit

/-- What is above a directory is a directory. -/
theorem Grounded.directory_of_prefix (hg : fs.Grounded) (hloc : fs.node? loc = some .directory)
    (habove : dir <+: loc) : fs.node? dir = some .directory := by
  induction loc using List.reverseRecOn with
  | nil => rwa [List.prefix_nil.mp habove]
  | append_singleton loc name ih =>
    rcases List.prefix_concat_iff.mp habove with rfl | habove
    · exact hloc
    · have hparent := hg.inDirectory _ (mem_of_node? (by simp) hloc)
      rw [List.dropLast_concat] at hparent
      exact ih hparent habove

theorem Grounded.walkable (hg : fs.Grounded) (hloc : fs.node? loc = some .directory)
    (h : ∀ n ∈ loc, IsFileName n) : fs.Walkable loc where
  directory _ := hg.directory_of_prefix hloc
  named := h
  short := by
    by_cases hne : loc = []
    · subst hne
      exact fun n hn => absurd hn List.not_mem_nil
    · exact hg.short _ (mem_of_node? hne hloc)

/-- What is put into a directory, and in the place of none, leaves everything in directories. -/
theorem Grounded.put (hg : fs.Grounded) (hfree : fs.node? loc ≠ some .directory)
    (hdir : fs.node? loc.dropLast = some .directory)
    (hshort : ∀ name ∈ loc, name.utf8ByteSize ≤ nameLimit) (n : FileNode) :
    (fs.put loc n).Grounded := by
  have hkeeps := keepsDirectories_put hfree n
  constructor
  case inDirectory =>
    exact List.forall_mem_cons.mpr ⟨hkeeps.directory _ hdir,
      fun x hx => hkeeps.directory _ (hg.inDirectory x (List.mem_filter.mp hx).1)⟩
  case short =>
    exact List.forall_mem_cons.mpr ⟨hshort, fun x hx => hg.short x (List.mem_filter.mp hx).1⟩

theorem Walkable.of_prefix (h : fs.Walkable loc) (habove : dir <+: loc) : fs.Walkable dir where
  directory above hdir := h.directory above (hdir.trans habove)
  named n hn := h.named n (habove.subset hn)
  short n hn := h.short n (habove.subset hn)

/-- A directory that can be walked to stays one. -/
theorem Walkable.kept {fs' : FileSystem} (h : fs.Walkable loc) (hkeeps : fs.KeepsDirectories fs') :
    fs'.Walkable loc where
  directory above habove := hkeeps.directory above (h.directory above habove)
  named := h.named
  short := h.short

/-- A directory is entered by a name that is not too long. -/
theorem enter_name (h : IsFileName name) (hdir : fs.node? dir = some .directory)
    (hshort : name.utf8ByteSize ≤ nameLimit) :
    fs.enter dir name.toList = .ok (dir ++ [name]) := by
  have hne : ∀ s : String, name ≠ s → name.toList ≠ s.toList := fun s hs heq =>
    hs (String.toList_inj.mp heq)
  have hempty : name.toList ≠ [] := hne "" h.1.1
  have hdot : name.toList ≠ ['.'] := hne "." h.2.1
  have hup : name.toList ≠ ['.', '.'] := hne ".." h.2.2
  simp [enter, hdir, hempty, hdot, hup, Nat.not_lt.mpr hshort]

/-- Names lead to the location below, if there are directories on the way. -/
theorem walk_names (h : ∀ n ∈ loc, IsFileName n) (hshort : ∀ n ∈ loc, n.utf8ByteSize ≤ nameLimit)
    (hdirs : ∀ above, above <+: loc → above ≠ loc → fs.node? (dir ++ above) = some .directory) :
    fs.walk dir (loc.map String.toList) = .ok (dir ++ loc) := by
  induction loc generalizing dir with
  | nil =>
    rw [List.append_nil]
    rfl
  | cons name loc ih =>
    obtain ⟨hname, hloc⟩ := List.forall_mem_cons.mp h
    obtain ⟨hfirst, hrest⟩ := List.forall_mem_cons.mp hshort
    have hdir : fs.node? dir = some .directory := by
      simpa using hdirs [] List.nil_prefix (List.cons_ne_nil _ _).symm
    have henter := enter_name hname hdir hfirst
    have hbelow : ∀ above, above <+: loc → above ≠ loc →
        fs.node? (dir ++ [name] ++ above) = some .directory := by
      intro above habove hne
      rw [List.append_assoc]
      exact hdirs (name :: above) (by simpa using habove) (by simpa using hne)
    rw [List.map_cons, walk, List.foldlM_cons, henter, ok_bind, ← walk, ih hloc hrest hbelow,
      List.append_assoc]
    rfl

/-- An absolute path is followed name by name from the root. -/
theorem trace_pathOf (h : ∀ n ∈ loc, IsFileName n) :
    fs.trace (pathOf loc) = fs.walk [] (loc.map String.toList) := by
  have hroot : fs.enter [] [] = .ok [] := by simp [enter, node?]
  have hempty : (pathOf loc).isEmpty = false := by simp [pathOf]
  rw [trace, hempty, if_neg Bool.false_ne_true, start, Path.isAbsolute_pathOf, if_pos rfl]
  by_cases hne : loc = []
  · -- the root is followed by an empty part
    have hparts : Text.slashParts (pathOf []).toList = [[], []] := by decide
    rw [hne, hparts, walk, List.foldlM_cons, hroot, ok_bind, List.foldlM_cons, hroot]
    rfl
  · rw [pathOf_eq, EntryReport.pathOf_eq_slashed hne, toList_slashed,
      slashParts_flatMap fun n hn => (h n hn).slash_not_mem, walk, List.foldlM_cons, hroot]
    rfl

/-- The absolute path of a directory that can be walked to leads there. -/
theorem Walkable.find_pathOf (h : fs.Walkable loc) (hlong : isTooLong (pathOf loc) = false) :
    fs.find (pathOf loc) = .ok (loc, .directory) := by
  rw [find_eq_ok_iff, follow_eq_ok_iff, trace_pathOf h.named]
  exact ⟨⟨hlong, walk_names h.named h.short fun above habove _ => h.directory above habove⟩,
    h.directory loc List.prefix_rfl⟩

/-- **Something stands at an absolute path** if it stands at the location and the path is not too
long. -/
theorem Walkable.exists?_pathOf_iff (h : fs.Walkable dir) (hname : IsFileName name)
    (hshort : name.utf8ByteSize ≤ nameLimit) :
    fs.exists? (pathOf (dir ++ [name])) = true ↔
      (fs.node? (dir ++ [name])).isSome ∧ isTooLong (pathOf (dir ++ [name])) = false := by
  have hnamed : ∀ n ∈ dir ++ [name], IsFileName n :=
    List.forall_mem_append.mpr ⟨h.named, List.forall_mem_singleton.mpr hname⟩
  have hwalk : fs.walk [] ((dir ++ [name]).map String.toList) = .ok (dir ++ [name]) := by
    refine walk_names hnamed
      (List.forall_mem_append.mpr ⟨h.short, List.forall_mem_singleton.mpr hshort⟩) ?_
    intro above habove hne
    exact h.directory above ((List.prefix_concat_iff.mp habove).resolve_left hne)
  rw [exists?, Option.isSome_iff_exists]
  simp only [locate?_eq_some_iff, find_eq_ok_iff, follow_eq_ok_iff, trace_pathOf hnamed]
  constructor
  · rintro ⟨found, n, ⟨hlong, hfound⟩, hn⟩
    obtain rfl := Except.ok.inj (hwalk.symm.trans hfound)
    exact ⟨Option.isSome_of_eq_some hn, hlong⟩
  · rintro ⟨hsome, hlong⟩
    obtain ⟨n, hn⟩ := Option.isSome_iff_exists.mp hsome
    exact ⟨_, n, ⟨hlong, hwalk⟩, hn⟩

end FileSystem

end EntryReport.Files
