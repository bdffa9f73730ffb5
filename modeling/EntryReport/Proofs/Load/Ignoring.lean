import EntryReport.Proofs.Glob.Below
import EntryReport.Proofs.Load.EntryFiles
import EntryReport.Proofs.Results

/-!
# Ignored files, and where the directory is

An entry file below a directory is left out if a pattern accepts its path from the directory on, and
also if one accepts its path as a whole. The first is the same wherever the directory is. The second
is not: the pattern `**/drafts/**` leaves out all of a directory that is called `drafts` itself
(`drafts_of_drafts`). Nor is a directory entered whose path is too long.

So the same files in two places keep the same paths exactly if no file that could be kept is
`Spared` in one place only (`keptPaths_eq_iff`). Patterns that read one name, and in paths from the
root those that begin in one, never leave a file out in one place only (`spared_of_unmoved`).

* `kept_by_location`: which files are kept, when they are the same in two places, and for which
  patterns they always are.
-/

namespace EntryReport

open Files (FileSystem IsFileName)
open Files.FileSystem (joinNames isTooLong below?)

variable {fs fs' : FileSystem} {directory directory' file p : String} {ignore : IgnoreSet}
  {names : List String} {patterns : List String} {content : List UInt8}

/-- A file with the content is below the directory, by these names. -/
def HoldsFile (fs : FileSystem) (directory : String) (names : List String)
    (content : List UInt8) : Prop :=
  ∃ top time, fs.find directory = .ok (top, .directory) ∧
    (top ++ names, .file content time) ∈ fs.nodes

/-- The same files are below two directories. -/
def SameFiles (fs : FileSystem) (directory : String) (fs' : FileSystem) (directory' : String) :
    Prop :=
  ∀ names content, HoldsFile fs directory names content ↔ HoldsFile fs' directory' names content

/-- The paths of the entry files that are kept, from the directory on. -/
def keptPaths (fs : FileSystem) (directory : String) (ignore : IgnoreSet) : List String :=
  (entryFiles fs directory ignore).map (relativePath directory)

/-- A file below the directory could be kept: it is an entry file, and no pattern accepts its path
from the directory on. -/
structure Eligible (ignore : IgnoreSet) (names : List String) : Prop where
  entry : isEntryFile ("/".intercalate names) = true
  unignored : ignore.ignores ("/".intercalate names) = false

/-- Where the directory is does not keep the file out: it is reached, and no pattern accepts its
path as a whole. -/
structure Spared (directory : String) (ignore : IgnoreSet) (names : List String) : Prop where
  reached : isTooLong (joinNames directory names.dropLast) = false
  unignored : ignore.ignores (joinNames directory names) = false

/-- The pattern reads one name, after any directories or any run of bytes. -/
def ReadsOneName (pattern : String) : Prop :=
  ∃ g, Glob.read pattern = .ok g ∧ Glob.readsOneName g.tokens = true

/-- The pattern begins with a byte of a name. -/
def StartsInName (pattern : String) : Prop :=
  ∃ g, Glob.read pattern = .ok g ∧ Glob.startsInName g.tokens = true

/-! ## The files below a directory -/

theorem HoldsFile.named (hfs : fs.WellFormed) (h : HoldsFile fs directory names content) :
    names ≠ [] ∧ ∀ n ∈ names, IsFileName n := by
  obtain ⟨top, time, hfind, hmem⟩ := h
  refine ⟨?_, fun n hn => (hfs.named _ hmem).2 n (List.mem_append_right _ hn)⟩
  rintro rfl
  -- otherwise the file would be where the directory is
  have hnode := hfs.node?_of_mem hmem
  rw [List.append_nil, (Files.FileSystem.find_eq_ok_iff.mp hfind).2] at hnode
  cases hnode

theorem mem_filesBelow_iff (hdir : fs.isDirectory directory = true) :
    file ∈ fs.filesBelow directory ↔ ∃ names content, HoldsFile fs directory names content ∧
      isTooLong (joinNames directory names.dropLast) = false ∧
      file = joinNames directory names := by
  obtain ⟨top, hfind⟩ := FileSystem.find_of_isDirectory hdir
  rw [filesBelow_eq hfind, List.mem_filterMap]
  constructor
  · rintro ⟨⟨loc, _ | ⟨content, time⟩⟩, hmem, hfile⟩
    · cases hfile
    · obtain ⟨names, hnames, hbelow⟩ := Option.bind_eq_some_iff.mp hfile
      obtain ⟨hreached, hpath⟩ := Option.ite_none_left_eq_some.mp hbelow
      obtain rfl := Files.FileSystem.below?_eq_some_iff.mp hnames
      exact ⟨names, content, ⟨top, time, hfind, hmem⟩, by simpa using hreached,
        (Option.some.inj hpath).symm⟩
  · rintro ⟨names, content, ⟨top', time, hfind', hmem⟩, hreached, rfl⟩
    rw [hfind, Except.ok.injEq, Prod.mk.injEq] at hfind'
    obtain ⟨rfl, -⟩ := hfind'
    refine ⟨_, hmem, ?_⟩
    rw [fileBelow?, Files.FileSystem.below?_eq_some_iff.mpr rfl, Option.bind_some, hreached]
    rfl

theorem relativePath_joinNames (directory : String) (hne : names ≠ [])
    (hnamed : ∀ n ∈ names, IsFileName n) :
    relativePath directory (joinNames directory names) = "/".intercalate names := by
  rw [relativePath, Files.Path.stripPrefix?_joinNames hne hnamed, Option.getD_some]

/-- Whether a file is an entry file is a matter of its name. -/
theorem isEntryFile_joinNames (hne : names ≠ []) (hnamed : ∀ n ∈ names, IsFileName n) :
    isEntryFile (joinNames directory names) = isEntryFile ("/".intercalate names) := by
  rw [← Files.Path.joinNames_empty hnamed]
  obtain ⟨dirs, name, rfl⟩ := (List.eq_nil_or_concat' names).resolve_left hne
  have hname := hnamed name (List.mem_append_right _ List.mem_cons_self)
  simp only [Files.Path.joinNames_concat, isEntryFile, Files.Path.fileName?_join hname,
    Files.Path.extension?_join hname]

/-- **Which paths are kept.** -/
theorem mem_keptPaths_iff (hfs : fs.WellFormed) (hdir : fs.isDirectory directory = true) :
    p ∈ keptPaths fs directory ignore ↔ ∃ names content, HoldsFile fs directory names content ∧
      p = "/".intercalate names ∧ Eligible ignore names ∧ Spared directory ignore names := by
  unfold keptPaths entryFiles
  simp only [List.mem_map, List.mem_mergeSort, List.mem_filter, mem_filesBelow_iff hdir,
    Bool.and_eq_true, Bool.not_eq_true', leftOut, Bool.or_eq_false_iff]
  constructor
  · rintro ⟨_, ⟨⟨names, content, hholds, hreached, rfl⟩, hentry, hrelative, hwhole⟩, rfl⟩
    obtain ⟨hne, hnamed⟩ := hholds.named hfs
    have hpath := relativePath_joinNames directory hne hnamed
    rw [isEntryFile_joinNames hne hnamed] at hentry
    exact ⟨names, content, hholds, hpath, ⟨hentry, hpath ▸ hrelative⟩, hreached, hwhole⟩
  · rintro ⟨names, content, hholds, rfl, heligible, hspared⟩
    obtain ⟨hne, hnamed⟩ := hholds.named hfs
    have hpath := relativePath_joinNames directory hne hnamed
    refine ⟨_, ⟨⟨names, content, hholds, hspared.reached, rfl⟩, ?_, ?_, hspared.unignored⟩, hpath⟩
    · rw [isEntryFile_joinNames hne hnamed]
      exact heligible.entry
    · rw [← relativePath, hpath]
      exact heligible.unignored

/-- A file that could be kept is kept where it is spared. -/
theorem intercalate_mem_keptPaths_iff (hfs : fs.WellFormed) (hdir : fs.isDirectory directory = true)
    (hholds : HoldsFile fs directory names content) (heligible : Eligible ignore names) :
    "/".intercalate names ∈ keptPaths fs directory ignore ↔ Spared directory ignore names := by
  rw [mem_keptPaths_iff hfs hdir]
  constructor
  · rintro ⟨names', content', hholds', heq, -, hspared⟩
    -- a path has the names that it was made of
    have hnamed := (hholds.named hfs).2
    have hnamed' := (hholds'.named hfs).2
    rw [← Files.Path.joinNames_empty hnamed, ← Files.Path.joinNames_empty hnamed'] at heq
    rwa [Files.Path.joinNames_inj hnamed hnamed' heq]
  · intro hspared
    exact ⟨names, content, hholds, rfl, heligible, hspared⟩

/-! ## The same files in two places -/

/-- **The same paths are kept** exactly if no file is spared in one place only. -/
theorem keptPaths_eq_iff (hfs : fs.WellFormed) (hfs' : fs'.WellFormed)
    (hdir : fs.isDirectory directory = true) (hdir' : fs'.isDirectory directory' = true)
    (hsame : SameFiles fs directory fs' directory') :
    (∀ p, p ∈ keptPaths fs directory ignore ↔ p ∈ keptPaths fs' directory' ignore) ↔
      ∀ names content, HoldsFile fs directory names content → Eligible ignore names →
        (Spared directory ignore names ↔ Spared directory' ignore names) := by
  constructor
  · intro hkept names content hholds heligible
    rw [← intercalate_mem_keptPaths_iff hfs hdir hholds heligible,
      ← intercalate_mem_keptPaths_iff hfs' hdir' ((hsame _ _).mp hholds) heligible]
    exact hkept _
  · intro hspared p
    rw [mem_keptPaths_iff hfs hdir, mem_keptPaths_iff hfs' hdir']
    refine exists_congr fun names => exists_congr fun content => ?_
    rw [← hsame]
    refine and_congr_right fun hholds => and_congr_right fun _ => and_congr_right fun heligible => ?_
    exact hspared names content hholds heligible

/-- The patterns of a set are read from texts. -/
theorem IgnoreSet.exists_pattern (hset : IgnoreSet.ofPatterns patterns = .ok ignore) {g : Glob}
    (hg : g ∈ ignore.globs) : ∃ pattern ∈ patterns, Glob.read pattern = .ok g := by
  obtain ⟨globs, hglobs, hcompile⟩ := bind_eq_ok_iff.mp hset
  obtain rfl : ⟨globs⟩ = ignore := by
    unfold compile at hcompile
    split at hcompile
    · cases hcompile
    split at hcompile
    · cases hcompile
    · exact Except.ok.inj hcompile
  clear hset hcompile
  induction patterns generalizing globs with
  | nil =>
    cases hglobs
    cases hg
  | cons text patterns ih =>
    rw [List.mapM_cons] at hglobs
    obtain ⟨first, hfirst, hglobs⟩ := bind_eq_ok_iff.mp hglobs
    obtain ⟨rest, hrest, hglobs⟩ := bind_eq_ok_iff.mp hglobs
    cases hglobs
    rcases List.mem_cons.mp hg with rfl | hg
    · refine ⟨text, List.mem_cons_self, ?_⟩
      unfold pattern at hfirst
      split at hfirst
      · next hread => rwa [← Except.ok.inj hfirst]
      · cases hfirst
    · obtain ⟨pattern, hpattern, hread⟩ := ih rest hrest hg
      exact ⟨pattern, List.mem_cons_of_mem _ hpattern, hread⟩

theorem IgnoreSet.ofPatterns_singleton {g : Glob} {pattern : String}
    (hread : Glob.read pattern = .ok g) (hshallow : g.isTooDeep = false) :
    IgnoreSet.ofPatterns [pattern] = .ok ⟨[g]⟩ := by
  have hpattern : [pattern].mapM IgnoreSet.pattern = .ok [g] := by
    rw [List.mapM_cons, IgnoreSet.pattern, hread]
    rfl
  have hdeep (kind : Glob → Bool) : ∀ g' ∈ [g].filter kind, g'.isTooDeep = false := by
    intro g' hg'
    rw [List.mem_singleton.mp (List.mem_of_mem_filter hg')]
    exact hshallow
  refine bind_eq_ok_iff.mpr ⟨[g], hpattern, ?_⟩
  unfold compile
  rw [List.find?_eq_none.mpr fun g' hg' => by simp [hdeep _ g' hg']]
  rw [List.findIdx?_eq_none_iff.mpr fun g' hg' => hdeep _ g' hg']

/-- **Patterns that cannot tell where the directory is** spare what could be kept. -/
theorem spared_of_unmoved (hset : IgnoreSet.ofPatterns patterns = .ok ignore)
    (hpatterns : ∀ pattern ∈ patterns, ReadsOneName pattern ∨
      StartsInName pattern ∧ Files.Path.isAbsolute directory = true)
    (hne : names ≠ []) (hnamed : ∀ n ∈ names, IsFileName n) (heligible : Eligible ignore names)
    (hreached : isTooLong (joinNames directory names.dropLast) = false) :
    Spared directory ignore names := by
  refine ⟨hreached, ?_⟩
  by_contra hignores
  rw [Bool.not_eq_false, IgnoreSet.ignores, List.any_eq_true] at hignores
  obtain ⟨g, hg, haccepts⟩ := hignores
  obtain ⟨pattern, hpattern, hread⟩ := IgnoreSet.exists_pattern hset hg
  have hsame {g' : Glob} (hread' : Glob.read pattern = .ok g') : g = g' :=
    Except.ok.inj (hread.symm.trans hread')
  rcases hpatterns pattern hpattern with ⟨g', hread', hname⟩ | ⟨⟨g', hread', hname⟩, habsolute⟩
  · obtain rfl := hsame hread'
    have hrelative := Glob.accepts_of_readsOneName hname hne hnamed haccepts
    have hignored : ignore.ignores ("/".intercalate names) = true :=
      List.any_eq_true.mpr ⟨g, hg, hrelative⟩
    rw [heligible.unignored] at hignored
    cases hignored
  · obtain rfl := hsame hread'
    have hroot := Glob.isAbsolute_joinNames hne hnamed habsolute
    rw [Glob.accepts_eq_false_of_startsInName hname hroot] at haccepts
    cases haccepts

/-- **Where ignored files are.** The paths that are kept below a directory are those of the entry
files that no pattern accepts, neither from the directory on nor as a whole, if they are reached.
The same files in two places keep the same paths exactly if none that could be kept is spared in one
place only. They do, if they are reached, for patterns that read one name, and in paths from the
root also for patterns that begin in one. -/
theorem kept_by_location (hfs : fs.WellFormed) (hfs' : fs'.WellFormed)
    (hdir : fs.isDirectory directory = true) (hdir' : fs'.isDirectory directory' = true)
    (hsame : SameFiles fs directory fs' directory')
    (hset : IgnoreSet.ofPatterns patterns = .ok ignore) :
    (∀ p, p ∈ keptPaths fs directory ignore ↔ ∃ names content,
      HoldsFile fs directory names content ∧ p = "/".intercalate names ∧ Eligible ignore names ∧
        Spared directory ignore names) ∧
    ((∀ p, p ∈ keptPaths fs directory ignore ↔ p ∈ keptPaths fs' directory' ignore) ↔
      ∀ names content, HoldsFile fs directory names content → Eligible ignore names →
        (Spared directory ignore names ↔ Spared directory' ignore names)) ∧
    ((∀ names content, HoldsFile fs directory names content →
        isTooLong (joinNames directory names.dropLast) = false ∧
        isTooLong (joinNames directory' names.dropLast) = false) →
      (∀ pattern ∈ patterns, ReadsOneName pattern ∨ StartsInName pattern ∧
        Files.Path.isAbsolute directory = true ∧ Files.Path.isAbsolute directory' = true) →
      ∀ p, p ∈ keptPaths fs directory ignore ↔ p ∈ keptPaths fs' directory' ignore) := by
  refine ⟨fun p => mem_keptPaths_iff hfs hdir, keptPaths_eq_iff hfs hfs' hdir hdir' hsame, ?_⟩
  intro hreached hpatterns
  refine (keptPaths_eq_iff hfs hfs' hdir hdir' hsame).mpr fun names content hholds heligible => ?_
  obtain ⟨hne, hnamed⟩ := hholds.named hfs
  obtain ⟨hhere, hthere⟩ := hreached names content hholds
  refine iff_of_true (spared_of_unmoved hset (fun pattern hpattern => ?_) hne hnamed heligible hhere)
    (spared_of_unmoved hset (fun pattern hpattern => ?_) hne hnamed heligible hthere)
  · exact (hpatterns pattern hpattern).imp_right fun h => ⟨h.1, h.2.1⟩
  · exact (hpatterns pattern hpattern).imp_right fun h => ⟨h.1, h.2.2⟩

/-! ## A directory of drafts -/

/-- One file, in a directory that is called `drafts`, and in one that is called `live`. -/
def draftsAndLive : FileSystem where
  nodes :=
    [(["w"], .directory), (["w", "drafts"], .directory), (["w", "live"], .directory),
      (["w", "drafts", "a.json"], .file [123, 125] ⟨0, 0⟩),
      (["w", "live", "a.json"], .file [123, 125] ⟨0, 0⟩)]
  workingDirectory := ["w"]

/-- The pattern `**/drafts/**`. -/
def belowDrafts : Glob where
  tokens := [.treeStart, .literal 'd', .literal 'r', .literal 'a', .literal 'f', .literal 't',
    .literal 's', .treeEnd]

/-- The pattern `**/*.old.json`. -/
def oldFiles : Glob where
  tokens := [.treeStart, .anyRun, .literal '.', .literal 'o', .literal 'l', .literal 'd',
    .literal '.', .literal 'j', .literal 's', .literal 'o', .literal 'n']

/-- The file is below either directory, by the same name. -/
theorem holdsFile_draftsAndLive {folder : String} (hfolder : folder ∈ ["drafts", "live"])
    (hfind : draftsAndLive.find directory = .ok (["w", folder], .directory)) :
    HoldsFile draftsAndLive directory names content ↔
      names = ["a.json"] ∧ content = [123, 125] := by
  unfold HoldsFile
  rw [hfind]
  simp only [List.mem_cons, List.not_mem_nil, or_false] at hfolder
  constructor
  · rintro ⟨_, time, htop, hmem⟩
    cases htop
    rcases hfolder with rfl | rfl <;> simp_all [draftsAndLive]
  · rintro ⟨rfl, rfl⟩
    rcases hfolder with rfl | rfl <;> exact ⟨_, ⟨0, 0⟩, rfl, by simp [draftsAndLive]⟩

theorem wellFormed_draftsAndLive : draftsAndLive.WellFormed :=
  ⟨by decide, by decide, by decide⟩

theorem find_drafts : draftsAndLive.find "drafts" = .ok (["w", "drafts"], .directory) := by
  rfl

theorem find_live : draftsAndLive.find "/w/live" = .ok (["w", "live"], .directory) := by
  rfl

theorem sameFiles_draftsAndLive : SameFiles draftsAndLive "drafts" draftsAndLive "/w/live" :=
  fun _ _ => (holdsFile_draftsAndLive (by decide) find_drafts).trans
    (holdsFile_draftsAndLive (by decide) find_live).symm

/-- A pattern that leaves the file out in one of the places, and not in the other. -/
theorem drafts_of_drafts :
    draftsAndLive.WellFormed ∧ draftsAndLive.isDirectory "drafts" = true ∧
      draftsAndLive.isDirectory "/w/live" = true ∧
      SameFiles draftsAndLive "drafts" draftsAndLive "/w/live" ∧
      "**/drafts/**".startsWith '/' = false ∧
      ∃ ignore, IgnoreSet.ofPatterns ["**/drafts/**"] = .ok ignore ∧
        "a.json" ∉ keptPaths draftsAndLive "drafts" ignore ∧
        "a.json" ∈ keptPaths draftsAndLive "/w/live" ignore := by
  have hdrafts : draftsAndLive.isDirectory "drafts" = true := by decide +kernel
  have hlive : draftsAndLive.isDirectory "/w/live" = true := by decide +kernel
  refine ⟨wellFormed_draftsAndLive, hdrafts, hlive, sameFiles_draftsAndLive, by decide +kernel,
    ⟨[belowDrafts]⟩, IgnoreSet.ofPatterns_singleton rfl (by decide +kernel), ?_, ?_⟩
  · rw [mem_keptPaths_iff wellFormed_draftsAndLive hdrafts]
    rintro ⟨names, content, hholds, -, -, hspared⟩
    obtain ⟨rfl, rfl⟩ := (holdsFile_draftsAndLive (by decide) find_drafts).mp hholds
    exact absurd hspared.unignored (by decide +kernel)
  · rw [mem_keptPaths_iff wellFormed_draftsAndLive hlive]
    exact ⟨["a.json"], [123, 125], (holdsFile_draftsAndLive (by decide) find_live).mpr ⟨rfl, rfl⟩,
      by decide +kernel, ⟨by decide +kernel, by decide +kernel⟩,
      ⟨by decide +kernel, by decide +kernel⟩⟩

/-- A pattern that reads one name leaves the file out in neither place. -/
theorem kept_in_drafts_and_live :
    ∃ ignore, IgnoreSet.ofPatterns ["**/*.old.json"] = .ok ignore ∧
      "a.json" ∈ keptPaths draftsAndLive "drafts" ignore ∧
      ∀ p, p ∈ keptPaths draftsAndLive "drafts" ignore ↔
        p ∈ keptPaths draftsAndLive "/w/live" ignore := by
  have hset : IgnoreSet.ofPatterns ["**/*.old.json"] = .ok ⟨[oldFiles]⟩ :=
    IgnoreSet.ofPatterns_singleton rfl (by decide +kernel)
  obtain ⟨hkept, -, hboth⟩ := kept_by_location wellFormed_draftsAndLive wellFormed_draftsAndLive
    (by decide +kernel) (by decide +kernel) sameFiles_draftsAndLive hset
  refine ⟨_, hset, ?_, hboth ?_ ?_⟩
  · refine (hkept "a.json").mpr ⟨["a.json"], [123, 125],
      (holdsFile_draftsAndLive (by decide) find_drafts).mpr ⟨rfl, rfl⟩, by decide +kernel,
      ⟨by decide +kernel, by decide +kernel⟩, ⟨by decide +kernel, by decide +kernel⟩⟩
  · intro names content hholds
    obtain ⟨rfl, -⟩ := (holdsFile_draftsAndLive (by decide) find_drafts).mp hholds
    decide +kernel
  · intro pattern hpattern
    obtain rfl := List.mem_singleton.mp hpattern
    exact Or.inl ⟨oldFiles, rfl, by decide +kernel⟩

end EntryReport
