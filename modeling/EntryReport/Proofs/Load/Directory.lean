import EntryReport.Proofs.Load.EntryFiles
import EntryReport.Proofs.Tree.Covering
import EntryReport.Proofs.Tree.Finding

/-!
# Loading a directory of entries without names

Entries without names are named by their files. The order of the files puts what is below a
directory before the file with the same name and `.json`, so that such a file is met when its place
is a folder already, and is left out for that reason (`Shadowed`). All other files become items
with their own names: two files never have the same name, and none leads through another. This is
so because the names in a `Location` are texts, and stand in the names of entries as they are.

* `unnamed_files_become_items`: `Loaded.load` and `Tree.build` together, where every file that is
  found can be read;
* `long_path_left_out`: a file that is found and cannot be read, because its path is too long.
-/

namespace EntryReport

open Files (FileSystem)
open Files.FileSystem (isTooLong)

variable {fs : FileSystem} {directory file other : String} {ignore : IgnoreSet}
  {dirs dirs' : List String} {stem stem' : String} {content : String → Entry} {files : List String}
  {rootName : String}

/-! ## Files in the place of a directory -/

/-- Some of the files are below the directory that has the path of this file without `.json`. -/
def Shadowed (directory : String) (files : List String) (file : String) : Prop :=
  ∃ other ∈ files,
    (entryName directory file ++ "/").toList <+: (relativePath directory other).toList

instance (directory : String) (files : List String) (file : String) :
    Decidable (Shadowed directory files file) :=
  inferInstanceAs (Decidable (∃ _ ∈ files, _))

theorem prefix_concat_and_ne_iff {α : Type} {a b : List α} {x : α} :
    (a <+: b ++ [x] ∧ a ≠ b ++ [x]) ↔ a <+: b := by
  rw [List.prefix_concat_iff]
  constructor
  · rintro ⟨heq | hpre, hne⟩
    · exact absurd heq hne
    · exact hpre
  · refine fun hpre => ⟨Or.inr hpre, ?_⟩
    rintro rfl
    simpa using hpre.length_le

/-- A file below the directory is one whose entry is below that of the file. -/
theorem Places.below_iff (h : Places directory file dirs stem)
    (h' : Places directory other dirs' stem') :
    (entryName directory file ++ "/").toList <+: (relativePath directory other).toList ↔
      segments (entryName directory file) <+: segments (entryName directory other) ∧
        segments (entryName directory file) ≠ segments (entryName directory other) := by
  rw [h.segments_entryName, h'.segments_entryName, h.entryName_eq, h'.relativePath_eq,
    intercalate_slash_prefix_iff (fun n hn => (h.named_entry n hn).1)
      (fun n hn => (h'.named n hn).1) (by simp),
    prefix_concat_and_ne_iff, prefix_concat_and_ne_iff]

/-! ## Reading the files -/

/-- The file can be read, and holds an entry that has no name. -/
def HoldsUnnamed (fs : FileSystem) (file : String) (e : Entry) : Prop :=
  Text.allBlank e.name = true ∧ ∃ text, fs.readText file = .ok text ∧ Entry.ofText text = .ok e

/-- The entry of a file that does not name it. -/
def entryIn (fs : FileSystem) (directory file : String) (e : Entry) : Entry :=
  { e with name := entryName directory file }.loadedBy (fs.modified? file)

theorem name_loadedBy (e : Entry) (time : Option Timestamp) : (e.loadedBy time).name = e.name := rfl

theorem name_entryIn (e : Entry) :
    (entryIn fs directory file e).name = entryName directory file := by
  rw [entryIn, name_loadedBy]

/-- A panel shows the path of its item, and not the name that the entry had before. -/
theorem ofEntry_renamed (id name : String) (e : Entry) (time : Option Timestamp) :
    Panel.ofEntry id ({ e with name }.loadedBy time) = .ofEntry id (e.loadedBy time) := rfl

theorem panel_entryIn (e : Entry) : (entryIn fs directory file e).panel =
    .ofEntry (pathOf (segments (entryName directory file))) (e.loadedBy (fs.modified? file)) := by
  rw [Entry.panel, name_entryIn, entryIn, ofEntry_renamed]

/-- The entries of files that do not name them. -/
def entriesIn (fs : FileSystem) (directory : String) (files : List String)
    (content : String → Entry) : List Entry :=
  files.map fun file => entryIn fs directory file (content file)

theorem readEntry_of_holdsUnnamed {e : Entry} (h : HoldsUnnamed fs file e) :
    readEntry fs directory file = .ok (entryIn fs directory file e) := by
  obtain ⟨hblank, text, hread, htext⟩ := h
  rw [readEntry, hread]
  simp only [htext, hblank, if_true]
  rfl

theorem foldl_add_of_ok {entryOf : String → Entry}
    (h : ∀ file ∈ files, readEntry fs directory file = .ok (entryOf file)) (l : Loaded) :
    files.foldl (fun l file => l.add file (readEntry fs directory file)) l =
      { l with entries := l.entries ++ files.map entryOf } := by
  induction files generalizing l with
  | nil => simp
  | cons file files ih =>
    obtain ⟨hfile, hfiles⟩ := List.forall_mem_cons.mp h
    rw [List.foldl_cons, hfile, ih hfiles, List.map_cons, List.append_cons l.entries]
    rfl

/-- A directory is loaded file by file. -/
theorem load_of_isDirectory (hdir : fs.isDirectory directory = true) :
    Loaded.load fs directory ignore = .ok (.ofDirectory fs directory ignore) := by
  have hfile : fs.isFile directory = false := by
    obtain ⟨top, hfind⟩ := FileSystem.find_of_isDirectory hdir
    rw [FileSystem.isFile, hfind]
  rw [Loaded.load, hfile, if_neg Bool.false_ne_true, if_pos hdir]

/-- A directory of entries without names is read with nothing left out. -/
theorem load_of_holdsUnnamed (hdir : fs.isDirectory directory = true)
    (h : ∀ file ∈ entryFiles fs directory ignore, HoldsUnnamed fs file (content file)) :
    Loaded.load fs directory ignore =
      .ok { entries := entriesIn fs directory (entryFiles fs directory ignore) content
            files := entryFiles fs directory ignore } := by
  rw [load_of_isDirectory hdir, Loaded.ofDirectory,
    foldl_add_of_ok fun file hmem => readEntry_of_holdsUnnamed (h file hmem)]
  rfl

/-- A file that cannot be read is left out. -/
theorem load_of_unreadable {cause : Files.FileError} (hdir : fs.isDirectory directory = true)
    (hfiles : entryFiles fs directory ignore = [file]) (hread : fs.readText file = .error cause) :
    Loaded.load fs directory ignore = .ok
      { skipped := [⟨file, (Failure.unreadable .entry file cause).message⟩], files := [file] } := by
  rw [load_of_isDirectory hdir, Loaded.ofDirectory, hfiles, List.foldl_cons, readEntry, hread]
  rfl

/-! ## The tree of the files -/

/-- What becomes of the files of a directory that hold entries without names. -/
structure Mirrors (fs : FileSystem) (directory : String) (files : List String)
    (content : String → Entry) (t : Tree) (skipped : List Skipped) : Prop where
  /-- An entry has the path of its file from the directory on for its name, without `.json`. -/
  named : ∀ file ∈ files,
    Files.Path.stripPrefix? file directory = some (entryName directory file ++ ".json")
  /-- No two of the files give their entries the same name. -/
  nodup : (files.map (entryName directory)).Nodup
  /-- A file that is not in the place of a directory is an item, with what it holds. -/
  item : ∀ file ∈ files, ¬ Shadowed directory files file →
    ∃ id n, t.node? id = some n ∧ n.isItem = true ∧ n.path = "/" ++ entryName directory file ∧
      t.panelOf? id = some (.ofEntry n.path ((content file).loadedBy (fs.modified? file)))
  /-- There are no other items. -/
  file : ∀ id n, t.node? id = some n → n.isItem = true →
    ∃ file ∈ files, ¬ Shadowed directory files file ∧ n.path = "/" ++ entryName directory file
  /-- The others, and nothing else, are left out, because there is a folder. -/
  skipped : skipped = (files.filter fun file => Shadowed directory files file).map fun file =>
    ⟨entryName directory file,
      (TreeError.itemOverFolder ("/" ++ entryName directory file)).message⟩

/-- An entry leads to another one if its file is shadowed. -/
theorem leadsTo_iff_shadowed
    (hplaces : ∀ file ∈ files, ∃ dirs stem, Places directory file dirs stem)
    (hfile : file ∈ files) :
    Tree.LeadsTo (entriesIn fs directory files content)
      (entryIn fs directory file (content file)) ↔ Shadowed directory files file := by
  obtain ⟨dirs, stem, hplace⟩ := hplaces file hfile
  unfold Tree.LeadsTo Shadowed entriesIn
  simp only [List.mem_map, exists_exists_and_eq_and, name_entryIn]
  refine exists_congr fun other => and_congr_right fun hother => ?_
  obtain ⟨dirs', stem', hplace'⟩ := hplaces other hother
  exact (hplace.below_iff hplace').symm

theorem mem_entriesIn {e : Entry} : e ∈ entriesIn fs directory files content ↔
    ∃ file ∈ files, entryIn fs directory file (content file) = e := List.mem_map

theorem filter_entriesIn {p : Entry → Bool} {q : String → Bool}
    (h : ∀ file ∈ files, p (entryIn fs directory file (content file)) = q file) :
    (entriesIn fs directory files content).filter p =
      entriesIn fs directory (files.filter q) content := by
  rw [entriesIn, entriesIn, List.filter_map]
  exact congrArg _ (List.filter_congr h)

/-- **The tree of files in their order.** -/
theorem mirrors_build (hplaces : ∀ file ∈ files, ∃ dirs stem, Places directory file dirs stem)
    (horder : files.Pairwise fun file other =>
      ¬ segments (entryName directory file) <+: segments (entryName directory other)) :
    Mirrors fs directory files content
      (Tree.build rootName (entriesIn fs directory files content)).1
      (Tree.build rootName (entriesIn fs directory files content)).2 := by
  have hpath : ∀ file ∈ files,
      pathOf (segments (entryName directory file)) = "/" ++ entryName directory file := by
    intro file hfile
    obtain ⟨dirs, stem, hplace⟩ := hplaces file hfile
    exact hplace.pathOf_segments_entryName
  have hne : ∀ e ∈ entriesIn fs directory files content, segments e.name ≠ [] := by
    refine List.forall_mem_map.mpr fun file hfile => ?_
    obtain ⟨dirs, stem, hplace⟩ := hplaces file hfile
    rw [name_entryIn, hplace.segments_entryName]
    simp
  have hdesc : Tree.Descending (entriesIn fs directory files content) := by
    refine List.pairwise_map.mpr (horder.imp fun hno => ?_)
    rwa [name_entryIn, name_entryIn]
  obtain ⟨hholds, hskipped⟩ := Tree.build_of_descending rootName hne hdesc
  rw [filter_entriesIn fun file hfile => decide_eq_decide.mpr (leadsTo_iff_shadowed hplaces hfile)]
    at hskipped
  rw [filter_entriesIn fun file hfile =>
    decide_eq_decide.mpr (leadsTo_iff_shadowed hplaces hfile).not] at hholds
  constructor
  case named =>
    intro file hfile
    obtain ⟨dirs, stem, hplace⟩ := hplaces file hfile
    rw [hplace.stripPrefix?_eq, hplace.intercalate_eq_append]
  case nodup =>
    refine List.nodup_iff_pairwise_ne.mpr (List.pairwise_map.mpr (horder.imp fun hno heq => ?_))
    rw [heq] at hno
    exact hno List.prefix_rfl
  case item =>
    intro file hfile hclear
    have hkept : file ∈ files.filter fun file => ¬ Shadowed directory files file :=
      List.mem_filter.mpr ⟨hfile, by simpa using hclear⟩
    obtain ⟨id, n, hn, hi, hnpath, hpanel⟩ :=
      hholds.exists_item_of_mem (mem_entriesIn.mpr ⟨file, hkept, rfl⟩)
    rw [name_entryIn, hpath file hfile] at hnpath
    rw [panel_entryIn, hpath file hfile, ← hnpath] at hpanel
    exact ⟨id, n, hn, hi, hnpath, hpanel⟩
  case file =>
    intro id n hn hi
    obtain ⟨e, he, hnpath⟩ := (hholds.mem_items n.path).mp ⟨id, n, hn, hi, rfl⟩
    obtain ⟨file, hkept, rfl⟩ := mem_entriesIn.mp he
    obtain ⟨hfile, hclear⟩ := List.mem_filter.mp hkept
    rw [name_entryIn, hpath file hfile] at hnpath
    exact ⟨file, hfile, by simpa using hclear, hnpath⟩
  case skipped =>
    rw [hskipped, entriesIn, List.map_map]
    refine List.map_congr_left fun file hkept => ?_
    rw [Function.comp_apply, Tree.overFolder, name_entryIn,
      hpath file (List.mem_filter.mp hkept).1]

/-! ## Paths that are too long -/

/-- The path with single dots in front of it. -/
def dotted : Nat → String → String
  | 0, path => path
  | n + 1, path => "./" ++ dotted n path

theorem utf8ByteSize_dotted (n : Nat) (path : String) :
    (dotted n path).utf8ByteSize = 2 * n + path.utf8ByteSize := by
  induction n with
  | zero => rw [dotted, Nat.mul_zero, Nat.zero_add]
  | succ n ih =>
    have hdot : "./".utf8ByteSize = 2 := by decide
    rw [dotted, String.utf8ByteSize_append, ih, hdot]
    omega

theorem dotted_relative {path : String} (hne : path ≠ "")
    (hrelative : Files.Path.isAbsolute path = false) (n : Nat) :
    dotted n path ≠ "" ∧ Files.Path.isAbsolute (dotted n path) = false := by
  cases n with
  | zero => exact ⟨hne, hrelative⟩
  | succ n =>
    refine ⟨by simp [dotted], ?_⟩
    rw [dotted, Files.Path.isAbsolute, String.toList_append]
    rfl

/-- It leads where the path leads. -/
theorem trace_dotted {path : String} (hwd : fs.node? fs.workingDirectory = some .directory)
    (hne : path ≠ "") (hrelative : Files.Path.isAbsolute path = false) (n : Nat) :
    fs.trace (dotted n path) = fs.trace path := by
  induction n with
  | zero => rfl
  | succ n ih =>
    obtain ⟨hne', hrelative'⟩ := dotted_relative hne hrelative n
    rw [dotted, FileSystem.trace_dot hwd hne' hrelative', ih]

theorem isTooLong_join {path name : String} (h : Files.IsFileName name)
    (hsize : FileSystem.pathLimit < path.utf8ByteSize + name.utf8ByteSize) :
    isTooLong (Files.Path.join path name) = true := by
  have hlead : path.utf8ByteSize ≤ (Files.Path.lead path).utf8ByteSize := by
    unfold Files.Path.lead
    split
    · exact le_rfl
    · rw [String.utf8ByteSize_append]
      exact Nat.le_add_right _ _
  rw [isTooLong, decide_eq_true_eq, Files.Path.join_eq h.slash_not_mem,
    String.utf8ByteSize_append]
  exact hsize.trans_le (Nat.add_le_add_right hlead _)

theorem readText_of_isTooLong (h : isTooLong file = true) :
    fs.readText file = .error .nameTooLong := by
  rw [FileSystem.readText, FileSystem.readBytes, FileSystem.find, FileSystem.follow, h]
  rfl

/-- The name of the only file. -/
def onlyName : String := "long-entry-name.json"

/-- A directory with that file in it, which holds an entry without a name. -/
def single : FileSystem where
  nodes := [(["in"], .directory), (["in", onlyName], .file [123, 125] ⟨0, 0⟩)]
  workingDirectory := []

theorem isFileName_onlyName : Files.IsFileName onlyName := by decide

theorem filesBelow_single (hfind : single.find directory = .ok (["in"], .directory)) :
    single.filesBelow directory = [Files.Path.join directory onlyName] := by
  have hlong : isTooLong directory = false :=
    (FileSystem.follow_eq_ok_iff.mp (FileSystem.find_eq_ok_iff.mp hfind).1).1
  have hfile : fileBelow? directory ["in"] (["in", onlyName], .file [123, 125] ⟨0, 0⟩) =
      some (Files.Path.join directory onlyName) := by
    simp [fileBelow?, FileSystem.below?, FileSystem.joinNames, hlong]
  rw [filesBelow_eq hfind, single, List.filterMap_cons_none rfl, List.filterMap_cons_some hfile,
    List.filterMap_nil]

theorem entryFiles_single (hfind : single.find directory = .ok (["in"], .directory)) :
    entryFiles single directory ⟨[]⟩ = [Files.Path.join directory onlyName] := by
  have hentry : isEntryFile (Files.Path.join directory onlyName) = true := by
    rw [isEntryFile_join _ isFileName_onlyName]
    decide
  have hkept : leftOut ⟨[]⟩ directory (Files.Path.join directory onlyName) = false := rfl
  rw [entryFiles, filesBelow_single hfind, List.filter_cons_of_pos (by simp [hentry, hkept]),
    List.filter_nil, List.mergeSort_singleton]

/-- A path of the directory, which leaves no room for the name of the file. -/
def longPath : String := dotted 2040 "in"

theorem find_longPath : single.find longPath = .ok (["in"], .directory) := by
  have hlong : isTooLong longPath = false := by
    rw [isTooLong, longPath, utf8ByteSize_dotted]
    decide
  rw [FileSystem.find_eq_ok_iff, FileSystem.follow_eq_ok_iff, longPath,
    trace_dotted rfl (by decide) (by decide)]
  exact ⟨⟨hlong, by decide +kernel⟩, by decide⟩

theorem isTooLong_below_longPath : isTooLong (Files.Path.join longPath onlyName) = true := by
  refine isTooLong_join isFileName_onlyName ?_
  rw [longPath, utf8ByteSize_dotted]
  decide +kernel

/-! ## Files without names for their entries -/

/-- **Files without names for their entries become items.** If every entry file below a directory
can be read and holds an entry without a name, each is the item with its own path from the directory
on, unless another file is below the directory with that path: then it is left out, and nothing else
is. -/
theorem unnamed_files_become_items (hfs : fs.WellFormed) (hdir : fs.isDirectory directory = true)
    (h : ∀ file ∈ entryFiles fs directory ignore, HoldsUnnamed fs file (content file))
    (rootName : String) :
    ∃ loaded, Loaded.load fs directory ignore = .ok loaded ∧ loaded.skipped = [] ∧
      Mirrors fs directory (entryFiles fs directory ignore) content
        (Tree.build rootName loaded.entries).1 (Tree.build rootName loaded.entries).2 :=
  ⟨_, load_of_holdsUnnamed hdir h, rfl, mirrors_build (fun _ => exists_places hfs hdir)
    (pairwise_entryFiles hfs hdir)⟩

/-- Files beside the directories with their names, one in the other, and one more. -/
def nested : FileSystem where
  nodes :=
    [(["w"], .directory), (["w", "a"], .directory), (["w", "a", "b"], .directory),
      (["w", "a", "b", "c.json"], .file [123, 125] ⟨0, 0⟩),
      (["w", "a", "b.json"], .file [123, 125] ⟨0, 0⟩), (["w", "a.json"], .file [123, 125] ⟨0, 0⟩),
      (["w", "d.json"], .file [123, 125] ⟨0, 0⟩)]
  workingDirectory := ["w"]

theorem entryFiles_nested :
    entryFiles nested "." ⟨[]⟩ = ["./a/b/c.json", "./a/b.json", "./a.json", "./d.json"] := by
  have hfound : ((nested.filesBelow ".").filter fun file =>
      isEntryFile file && !leftOut ⟨[]⟩ "." file) =
        ["./a/b/c.json", "./a/b.json", "./a.json", "./d.json"] := by decide +kernel
  rw [entryFiles, hfound, List.mergeSort_of_pairwise]
  decide +kernel

/-- Two of the files are in the place of a directory. -/
theorem skipped_of_nested :
    nested.WellFormed ∧ nested.isDirectory "." = true ∧
      (∀ file ∈ entryFiles nested "." ⟨[]⟩, HoldsUnnamed nested file {}) ∧
      ∃ loaded, Loaded.load nested "." ⟨[]⟩ = .ok loaded ∧
        (Tree.build "r" loaded.entries).2 =
          [⟨"a/b", "item path /a/b is already a folder"⟩,
            ⟨"a", "item path /a is already a folder"⟩] := by
  have hfs : nested.WellFormed := ⟨by decide, by decide, by decide⟩
  have hdir : nested.isDirectory "." = true := by decide +kernel
  have hunnamed : ∀ file ∈ entryFiles nested "." ⟨[]⟩, HoldsUnnamed nested file {} := by
    have hread : ∀ file ∈ ["./a/b/c.json", "./a/b.json", "./a.json", "./d.json"],
        nested.readText file = .ok "{}" := by decide +kernel
    rw [entryFiles_nested]
    exact fun file hfile => ⟨rfl, "{}", hread file hfile, rfl⟩
  obtain ⟨loaded, hload, -, hmirrors⟩ := unnamed_files_become_items hfs hdir hunnamed "r"
  refine ⟨hfs, hdir, hunnamed, loaded, hload, ?_⟩
  rw [hmirrors.skipped, entryFiles_nested]
  decide +kernel

/-- **A file whose path is too long is left out.** It is found below the directory, and by a shorter
path it can be read. -/
theorem long_path_left_out : single.WellFormed ∧ single.isDirectory longPath = true ∧
    entryFiles single longPath ⟨[]⟩ = [Files.Path.join longPath onlyName] ∧
    HoldsUnnamed single "in/long-entry-name.json" {} ∧
    Loaded.load single longPath ⟨[]⟩ = .ok
      { skipped :=
          [⟨Files.Path.join longPath onlyName,
            (Failure.unreadable .entry (Files.Path.join longPath onlyName) .nameTooLong).message⟩]
        files := [Files.Path.join longPath onlyName] } := by
  have hdir : single.isDirectory longPath = true := by
    rw [FileSystem.isDirectory, find_longPath]
  have hfiles := entryFiles_single find_longPath
  exact ⟨⟨by decide, by decide, by decide⟩, hdir, hfiles, ⟨rfl, "{}", by decide +kernel, rfl⟩,
    load_of_unreadable hdir hfiles (readText_of_isTooLong isTooLong_below_longPath)⟩

end EntryReport
