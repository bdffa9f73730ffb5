import EntryReport.Load
import EntryReport.Proofs.Files.PathOrder

/-!
# The entry files below a directory

An entry file is below the directory by the names of directories and then a stem with `.json`
behind it (`Places`). The name for its entry is that path without `.json`, so that it has these
names for segments (`Places.segments_entryName`), and different files have different ones.

The files are in the order of their paths. A name for an entry is on the way to another one only if
the other file is below the directory with the stem of the first for its name; and then that file
comes earlier (`pairwise_entryFiles`).
-/

namespace EntryReport

open Files (FileSystem IsFileName)
open Files.FileSystem (joinNames isTooLong below?)

variable {fs : FileSystem} {directory file other : String} {ignore : IgnoreSet}
  {dirs dirs' : List String} {stem stem' : String}

/-! ## Where an entry file stands -/

/-- The file is below the directory, by the names of directories and then a stem. -/
structure Places (directory file : String) (dirs : List String) (stem : String) : Prop where
  path : file = joinNames directory (dirs ++ [stem ++ ".json"])
  named : ∀ n ∈ dirs ++ [stem ++ ".json"], IsFileName n
  stem_named : IsFileName stem

/-- The path of a file from the directory on, as it is written. -/
def relativePath (directory file : String) : String :=
  (Files.Path.stripPrefix? file directory).getD file

namespace Places

theorem named_entry (h : Places directory file dirs stem) : ∀ n ∈ dirs ++ [stem], IsFileName n :=
  List.forall_mem_append.mpr
    ⟨(List.forall_mem_append.mp h.named).1, List.forall_mem_singleton.mpr h.stem_named⟩

theorem stripPrefix?_eq (h : Places directory file dirs stem) :
    Files.Path.stripPrefix? file directory =
      some ("/".intercalate (dirs ++ [stem ++ ".json"])) := by
  rw [h.path, Files.Path.stripPrefix?_joinNames (by simp) h.named]

theorem relativePath_eq (h : Places directory file dirs stem) :
    relativePath directory file = "/".intercalate (dirs ++ [stem ++ ".json"]) := by
  rw [relativePath, h.stripPrefix?_eq, Option.getD_some]

/-- **The name for the entry** is the path without the extension. -/
theorem entryName_eq (h : Places directory file dirs stem) :
    entryName directory file = "/".intercalate (dirs ++ [stem]) := by
  have hdotted : stem ++ ".json" = stem ++ "." ++ "json" := by
    rw [String.append_assoc]
    rfl
  have hlast : IsFileName (stem ++ ".json") :=
    List.forall_mem_singleton.mp (List.forall_mem_append.mp h.named).2
  have hbare : Files.Path.withExtension (relativePath directory file) "" =
      joinNames "" (dirs ++ [stem]) := by
    rw [h.relativePath_eq, ← Files.Path.joinNames_empty h.named, Files.Path.joinNames_concat,
      Files.Path.joinNames_concat]
    rw [hdotted] at hlast ⊢
    exact Files.Path.withExtension_join hlast h.stem_named (by decide)
  have hcomponents : Files.Path.components "" = [] := by decide
  have htext : Files.Path.componentText ∘ Files.Component.name = id := rfl
  rw [relativePath] at hbare
  rw [entryName, hbare, Files.Path.components_joinNames h.named_entry, hcomponents, List.nil_append,
    List.map_map, htext, List.map_id]

theorem intercalate_eq_append (h : Places directory file dirs stem) :
    "/".intercalate (dirs ++ [stem ++ ".json"]) = entryName directory file ++ ".json" := by
  rw [h.entryName_eq]
  by_cases hdirs : dirs = []
  · subst hdirs
    rw [List.nil_append, List.nil_append, String.intercalate_singleton,
      String.intercalate_singleton]
  · rw [String.intercalate_append_of_ne_nil hdirs (by simp),
      String.intercalate_append_of_ne_nil hdirs (by simp), String.intercalate_singleton,
      String.intercalate_singleton, ← String.append_assoc]

theorem segments_entryName (h : Places directory file dirs stem) :
    segments (entryName directory file) = dirs ++ [stem] := by
  rw [h.entryName_eq]
  exact segments_intercalate fun n hn => (h.named_entry n hn).1

theorem pathOf_segments_entryName (h : Places directory file dirs stem) :
    pathOf (segments (entryName directory file)) = "/" ++ entryName directory file := by
  rw [h.segments_entryName, h.entryName_eq, pathOf_eq_slashed (by simp),
    slashed_eq_intercalate (by simp)]

/-- Different files give their entries different names. -/
theorem eq_of_segments (h : Places directory file dirs stem)
    (h' : Places directory other dirs' stem')
    (heq : segments (entryName directory file) = segments (entryName directory other)) :
    file = other := by
  rw [h.segments_entryName, h'.segments_entryName] at heq
  obtain ⟨rfl, hstem⟩ := List.append_inj' heq rfl
  obtain rfl := List.singleton_inj.mp hstem
  rw [h.path, h'.path]

/-- A file with a later path does not lead the way to one with an earlier path. -/
theorem not_prefix_of_mayPrecede (h : Places directory file dirs stem)
    (h' : Places directory other dirs' stem') (hne : file ≠ other)
    (hle : Files.Path.mayPrecede file other = true) :
    ¬ segments (entryName directory file) <+: segments (entryName directory other) := by
  intro hpre
  have hsegments : segments (entryName directory file) ≠ segments (entryName directory other) :=
    fun heq => hne (h.eq_of_segments h' heq)
  rw [h.segments_entryName, h'.segments_entryName] at hpre hsegments
  -- the last name of the other file is not a directory, so the way leads through its directories
  have hdirs : dirs ++ [stem] <+: dirs' :=
    (List.prefix_concat_iff.mp hpre).resolve_left hsegments
  obtain ⟨more, rfl⟩ := hdirs
  have hnamed := h'.named
  rw [List.append_assoc, List.append_assoc, List.singleton_append] at hnamed
  have hpath := h'.path
  rw [List.append_assoc, List.append_assoc, List.singleton_append] at hpath
  rw [h.path, hpath, Files.Path.mayPrecede_below_eq_false (by decide) h.named hnamed] at hle
  exact absurd hle (by simp)

end Places

/-! ## What is below a directory -/

/-- The path of a node below a place, if it is a file. -/
def fileBelow? (directory : String) (top : Files.Location) :
    Files.Location × Files.FileNode → Option String
  | (_, .directory) => none
  | (loc, .file _ _) => (below? top loc).bind fun names =>
      if isTooLong (joinNames directory names.dropLast) then none
      else some (joinNames directory names)

theorem filesBelow_eq {top : Files.Location} (h : fs.find directory = .ok (top, .directory)) :
    fs.filesBelow directory = fs.nodes.filterMap (fileBelow? directory top) := by
  rw [FileSystem.filesBelow, h]
  refine List.filterMap_congr fun x _ => ?_
  obtain ⟨loc, _ | _⟩ := x <;> rfl

theorem of_fileBelow? {top : Files.Location} {x : Files.Location × Files.FileNode}
    (h : fileBelow? directory top x = some file) :
    ∃ names, x.1 = top ++ names ∧ x.2 ≠ .directory ∧ file = joinNames directory names := by
  obtain ⟨loc, _ | ⟨content, time⟩⟩ := x
  · exact absurd h (by simp [fileBelow?])
  · obtain ⟨names, hnames, hfile⟩ := Option.bind_eq_some_iff.mp h
    refine ⟨names, Files.FileSystem.below?_eq_some_iff.mp hnames, by simp, ?_⟩
    split at hfile
    · exact absurd hfile (by simp)
    · exact (Option.some.inj hfile).symm

/-- A file below a directory has a name, and so have the directories on the way. -/
theorem exists_names_of_mem_filesBelow (hfs : fs.WellFormed)
    (hdir : fs.isDirectory directory = true) (h : file ∈ fs.filesBelow directory) :
    ∃ names, names ≠ [] ∧ (∀ n ∈ names, IsFileName n) ∧ file = joinNames directory names := by
  obtain ⟨top, hfind⟩ := FileSystem.find_of_isDirectory hdir
  rw [filesBelow_eq hfind] at h
  obtain ⟨⟨loc, n⟩, hmem, hx⟩ := List.mem_filterMap.mp h
  obtain ⟨names, rfl, hfile, hpath⟩ := of_fileBelow? hx
  refine ⟨names, ?_, fun m hm => (hfs.named _ hmem).2 m (List.mem_append_right _ hm), hpath⟩
  rintro rfl
  -- otherwise the file would be where the directory is
  have hn := hfs.node?_of_mem hmem
  rw [List.append_nil, (Files.FileSystem.find_eq_ok_iff.mp hfind).2, Option.some.injEq] at hn
  exact hfile hn.symm

theorem nodup_filesBelow (hfs : fs.WellFormed) (hdir : fs.isDirectory directory = true) :
    (fs.filesBelow directory).Nodup := by
  obtain ⟨top, hfind⟩ := FileSystem.find_of_isDirectory hdir
  rw [filesBelow_eq hfind, List.nodup_iff_pairwise_ne, List.pairwise_filterMap]
  have hnodes := List.pairwise_map.mp (List.nodup_iff_pairwise_ne.mp hfs.nodup)
  refine hnodes.imp_of_mem fun {x y} hx hy hne file hfile other hother heq => ?_
  obtain ⟨names, hloc, -, hpath⟩ := of_fileBelow? hfile
  obtain ⟨names', hloc', -, hpath'⟩ := of_fileBelow? hother
  have hnamed : ∀ {z} {more : List String}, z ∈ fs.nodes → z.1 = top ++ more →
      ∀ n ∈ more, IsFileName n := fun hz hz' n hn =>
    (hfs.named _ hz).2 n (hz' ▸ List.mem_append_right _ hn)
  refine hne ?_
  rw [hloc, hloc', Files.Path.joinNames_inj (hnamed hx hloc) (hnamed hy hloc')
    (hpath.symm.trans (heq.trans hpath'))]

/-! ## The entry files among them -/

theorem isEntryFile_join {name : String} (path : String) (h : IsFileName name) :
    isEntryFile (Files.Path.join path name) = (name.toList.head? != some '.' &&
      (Files.Path.splitName name.toList).2.map String.ofList == some "json") := by
  rw [isEntryFile, Files.Path.fileName?_join h, Files.Path.extension?_join h]

/-- The name of an entry file has a stem before `.json`, which can be a name itself. -/
theorem exists_stem {name path : String} (h : IsFileName name)
    (hentry : isEntryFile (Files.Path.join path name) = true) :
    ∃ stem, IsFileName stem ∧ name = stem ++ ".json" := by
  rw [isEntryFile_join path h] at hentry
  obtain ⟨hhidden, hext⟩ := Bool.and_eq_true_iff.mp hentry
  obtain ⟨e, he, hjson⟩ := Option.map_eq_some_iff.mp (beq_iff_eq.mp hext)
  obtain ⟨cs, hne, hchars⟩ := Files.Path.eq_append_of_splitName he
  have hstem : name = String.ofList cs ++ ".json" := by
    rw [← String.toList_inj, hchars, String.toList_append, String.toList_ofList,
      ← String.toList_ofList (l := e), hjson]
    rfl
  refine ⟨String.ofList cs, ?_, hstem⟩
  have hhead : cs.head? ≠ some '.' := by
    rw [hchars, List.head?_append_of_ne_nil _ hne] at hhidden
    simpa using hhidden
  refine Files.FileSystem.isFileName_ofList hne ?_ ?_ fun hslash => h.slash_not_mem ?_
  · rintro rfl
    exact hhead rfl
  · rintro rfl
    exact hhead rfl
  · rw [hchars]
    exact List.mem_append_left _ hslash

theorem exists_places (hfs : fs.WellFormed) (hdir : fs.isDirectory directory = true)
    (h : file ∈ entryFiles fs directory ignore) : ∃ dirs stem, Places directory file dirs stem := by
  obtain ⟨hmem, hentry⟩ := List.mem_filter.mp (List.mem_mergeSort.mp h)
  obtain ⟨names, hne, hnamed, rfl⟩ := exists_names_of_mem_filesBelow hfs hdir hmem
  obtain ⟨dirs, name, rfl⟩ := (List.eq_nil_or_concat' names).resolve_left hne
  have hname := List.forall_mem_singleton.mp (List.forall_mem_append.mp hnamed).2
  have hentry := (Bool.and_eq_true_iff.mp hentry).1
  rw [Files.Path.joinNames_concat] at hentry
  obtain ⟨stem, hstem, rfl⟩ := exists_stem hname hentry
  exact ⟨dirs, stem, rfl, hnamed, hstem⟩

theorem nodup_entryFiles (hfs : fs.WellFormed) (hdir : fs.isDirectory directory = true) :
    (entryFiles fs directory ignore).Nodup := by
  unfold entryFiles
  rw [(List.mergeSort_perm _ _).nodup_iff]
  exact (nodup_filesBelow hfs hdir).filter _

/-- **The names for the entries, in the order of the files**: none is on the way to a later one. -/
theorem pairwise_entryFiles (hfs : fs.WellFormed) (hdir : fs.isDirectory directory = true) :
    (entryFiles fs directory ignore).Pairwise fun file other =>
      ¬ segments (entryName directory file) <+: segments (entryName directory other) := by
  have hsorted : (entryFiles fs directory ignore).Pairwise fun file other =>
      Files.Path.mayPrecede file other = true := Files.Path.pairwise_mergeSort _
  refine (hsorted.and (nodup_entryFiles hfs hdir)).imp_of_mem fun hfile hother hboth => ?_
  obtain ⟨dirs, stem, hplace⟩ := exists_places hfs hdir hfile
  obtain ⟨dirs', stem', hplace'⟩ := exists_places hfs hdir hother
  exact hplace.not_prefix_of_mayPrecede hplace' hboth.2 hboth.1

end EntryReport
