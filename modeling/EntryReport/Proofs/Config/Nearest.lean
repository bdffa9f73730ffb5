import EntryReport.Proofs.Config.Chain
import EntryReport.Proofs.Files.Ancestors
import EntryReport.Proofs.Files.Keeping
import Mathlib.Data.List.Find

/-!
# The nearest configuration

A directory without a configuration of its own takes that of the nearest directory above it which
has one (`nearest?_eq`, `nearestDirectory?_eq_some_iff`). It is loaded as if it had been asked for
by its absolute path (`load_configAt`). A configuration whose absolute path is too long does not
count, because nothing is found by such a path.

Of other files only those on its chain count. In a file system that keeps these and all directories
the chain is the same (`Linked.spared`), and so is what comes of it (`loadFile_spared`), as long as
no configuration comes nearer (`Nearest.spared`).

* `nearest_decides`: all of this for the configuration of a directory;
* `deep_overlooked`: a configuration in the directory itself, at a path that is too long.
-/

namespace EntryReport.Config

open Files (FileSystem Location IsFileName)

variable {fs fs' : FileSystem} {directory path : String} {loc top dir : Location} {c : Config}
  {links : List Link} {next : Option String}

/-! ## Directories with a configuration -/

/-- The absolute path of the configuration file in a directory. -/
def configAt (dir : Location) : String := FileSystem.pathOf (dir ++ [fileName])

/-- In the directory stands what has the name of a configuration file, at a path that is not too
long. -/
def HoldsConfig (fs : FileSystem) (dir : Location) : Prop :=
  (fs.node? (dir ++ [fileName])).isSome ∧ FileSystem.isTooLong (configAt dir) = false

instance (fs : FileSystem) (dir : Location) : Decidable (HoldsConfig fs dir) :=
  inferInstanceAs (Decidable (_ ∧ _))

theorem isFileName_fileName : IsFileName fileName := by decide

/-- By its absolute path such a file is found, and no other. -/
theorem exists?_configAt_iff (hdir : fs.Walkable dir) :
    fs.exists? (configAt dir) = true ↔ HoldsConfig fs dir :=
  hdir.exists?_pathOf_iff isFileName_fileName (by decide)

/-- The deepest directory, at a location or above it, that holds a configuration file. -/
structure Nearest (fs : FileSystem) (loc top : Location) : Prop where
  above : top <+: loc
  holds : HoldsConfig fs top
  deepest : ∀ dir, dir <+: loc → HoldsConfig fs dir → dir <+: top

/-- There is one at most. -/
theorem Nearest.unique {top' : Location} (h : Nearest fs loc top) (h' : Nearest fs loc top') :
    top = top' :=
  (h'.deepest top h.above h.holds).sublist.antisymm (h.deepest top' h'.above h'.holds).sublist

/-- A directory that holds a configuration is the nearest one itself. -/
theorem Nearest.self (h : HoldsConfig fs loc) : Nearest fs loc loc :=
  ⟨List.prefix_rfl, h, fun _ habove _ => habove⟩

/-- For any other directory it is that of the directory above it. -/
theorem nearest_concat_iff {name : String} (h : ¬ HoldsConfig fs (loc ++ [name])) :
    Nearest fs (loc ++ [name]) top ↔ Nearest fs loc top := by
  have habove : ∀ {dir}, HoldsConfig fs dir → (dir <+: loc ++ [name] ↔ dir <+: loc) := by
    intro dir hdir
    rw [List.prefix_concat_iff]
    exact or_iff_right fun heq => h (heq ▸ hdir)
  constructor
  · exact fun hn => ⟨(habove hn.holds).mp hn.above, hn.holds,
      fun dir hdir hholds => hn.deepest dir ((habove hholds).mpr hdir) hholds⟩
  · exact fun hn => ⟨(habove hn.holds).mpr hn.above, hn.holds,
      fun dir hdir hholds => hn.deepest dir ((habove hholds).mp hdir) hholds⟩

/-! ## The way up -/

/-- The first directory with a configuration on the way up. -/
def nearestDirectory? (fs : FileSystem) (loc : Location) : Option Location :=
  loc.inits.reverse.find? fun dir => HoldsConfig fs dir

theorem nearestDirectory?_concat (loc : Location) (name : String) :
    nearestDirectory? fs (loc ++ [name]) =
      if HoldsConfig fs (loc ++ [name]) then some (loc ++ [name])
      else nearestDirectory? fs loc := by
  have hinits : (loc ++ [name]).inits.reverse = (loc ++ [name]) :: loc.inits.reverse := by
    simp [List.inits_append]
  rw [nearestDirectory?, hinits]
  by_cases h : HoldsConfig fs (loc ++ [name])
  · rw [if_pos h]
    exact List.find?_cons_of_pos (decide_eq_true h)
  · rw [if_neg h]
    exact List.find?_cons_of_neg (by simpa using h)

/-- **The way up ends at the nearest directory** that holds a configuration. -/
theorem nearestDirectory?_eq_some_iff :
    nearestDirectory? fs loc = some top ↔ Nearest fs loc top := by
  have hself : ∀ loc, HoldsConfig fs loc → (some loc = some top ↔ Nearest fs loc top) := by
    intro loc h
    refine ⟨?_, fun hn => congrArg some ((Nearest.self h).unique hn)⟩
    rintro ⟨⟩
    exact .self h
  induction loc using List.reverseRecOn with
  | nil =>
    by_cases h : HoldsConfig fs []
    · have hfound : nearestDirectory? fs [] = some [] := List.find?_cons_of_pos (decide_eq_true h)
      rw [hfound, hself [] h]
    · have hnone : nearestDirectory? fs [] = none := List.find?_cons_of_neg (by simpa using h)
      rw [hnone]
      refine iff_of_false nofun fun hn => h ?_
      exact List.prefix_nil.mp hn.above ▸ hn.holds
  | append_singleton loc name ih =>
    rw [nearestDirectory?_concat]
    split
    next h => exact hself _ h
    next h => exact ih.trans (nearest_concat_iff h).symm

theorem nearestDirectory?_eq_none_iff :
    nearestDirectory? fs loc = none ↔ ∀ dir, dir <+: loc → ¬ HoldsConfig fs dir := by
  simp [nearestDirectory?]

/-- **The configuration of a directory** is looked for on the way up from where it is. -/
theorem nearest?_eq (hd : fs.find directory = .ok (loc, .directory)) (hloc : fs.Walkable loc) :
    nearest? fs directory = (nearestDirectory? fs loc).map configAt := by
  have hempty : ¬ directory.isEmpty = true := by
    intro hempty
    obtain ⟨-, htrace⟩ := FileSystem.follow_eq_ok_iff.mp (FileSystem.find_eq_ok_iff.mp hd).1
    rw [FileSystem.trace, if_pos hempty] at htrace
    cases htrace
  have hcandidates : (Files.Path.ancestors (FileSystem.pathOf loc)).map
      (Files.Path.join · fileName) = loc.inits.reverse.map configAt := by
    rw [Files.Path.ancestors_pathOf hloc.named, List.map_map]
    refine List.map_congr_left fun dir hdir => ?_
    have habove := (List.mem_inits dir loc).mp (List.mem_reverse.mp hdir)
    exact (Files.Path.pathOf_concat (hloc.of_prefix habove).named isFileName_fileName).symm
  have hholds : ∀ dir ∈ loc.inits.reverse,
      (fs.exists? ∘ configAt) dir = decide (HoldsConfig fs dir) := by
    intro dir hdir
    have habove := (List.mem_inits dir loc).mp (List.mem_reverse.mp hdir)
    rw [Bool.eq_iff_iff, decide_eq_true_eq]
    exact exists?_configAt_iff (hloc.of_prefix habove)
  rw [nearest?, if_neg hempty, FileSystem.canonical_of_locate?
    (FileSystem.locate?_eq_some_iff.mpr ⟨_, hd⟩), hcandidates, List.find?_map,
    List.find?_congr hholds, nearestDirectory?]

/-! ## What a chain depends on -/

/-- The files of a chain are what they are in the other file system as well. -/
def Spares (fs fs' : FileSystem) (links : List Link) : Prop :=
  ∀ x ∈ links, ∀ loc ∈ fs.locate? x.path, fs'.node? loc = fs.node? loc

instance (fs fs' : FileSystem) (links : List Link) : Decidable (Spares fs fs' links) :=
  inferInstanceAs (Decidable (∀ x ∈ links, _))

theorem readFile_spared (h : fs.KeepsDirectories fs') (hread : readFile fs path = .ok c)
    (hspared : ∀ loc ∈ fs.locate? path, fs'.node? loc = fs.node? loc) :
    readFile fs' path = .ok c := by
  obtain ⟨loc, -, hloc⟩ := locate?_of_readFile hread
  obtain ⟨n, hfind⟩ := FileSystem.locate?_eq_some_iff.mp hloc
  have hfind' := h.find hfind (hspared loc hloc)
  rw [← hread]
  simp only [readFile, FileSystem.readText, FileSystem.readBytes, hfind, hfind']

/-- **A chain is the same** where its files are left alone. -/
theorem Linked.spared (hlinked : Linked fs path links next) (h : fs.KeepsDirectories fs')
    (hspares : Spares fs fs' links) : Linked fs' path links next := by
  induction hlinked with
  | single read onward =>
    exact .single (readFile_spared h read (hspares _ List.mem_cons_self)) onward
  | cons read extending _ ih =>
    exact .cons (readFile_spared h read (hspares _ List.mem_cons_self)) extending
      (ih fun x hx => hspares x (List.mem_cons_of_mem _ hx))

theorem Linked.canonical_spared (hlinked : Linked fs path links next) (h : fs.KeepsDirectories fs')
    (hspares : Spares fs fs' links) {x : Link} (hx : x ∈ links) :
    fs'.canonical x.path = fs.canonical x.path := by
  obtain ⟨loc, hloc⟩ := hlinked.located hx
  obtain ⟨n, hfind⟩ := FileSystem.locate?_eq_some_iff.mp hloc
  have hfind' := h.find hfind (hspares x hx loc hloc)
  rw [FileSystem.canonical_of_locate? hloc,
    FileSystem.canonical_of_locate? (FileSystem.locate?_eq_some_iff.mpr ⟨n, hfind'⟩)]

/-- **What came of a chain comes of it** where its files are left alone. -/
theorem loadFile_spared (hload : loadFile fs path = .ok c) (hlinked : Linked fs path links none)
    (h : fs.KeepsDirectories fs') (hspares : Spares fs fs' links) : loadFile fs' path = .ok c := by
  obtain ⟨links', hlinked', rfl, -, hnodup⟩ := exists_links_of_resolved (resolved_iff.mpr hload) rfl
  obtain rfl := hlinked.unique rfl hlinked'
  have hsame : (links.map fun x => fs'.canonical x.path) = links.map fun x => fs.canonical x.path :=
    List.map_congr_left fun x hx => hlinked.canonical_spared h hspares hx
  exact resolved_iff.mp <| resolved_of_linked (hlinked.spared h hspares) rfl
    (fun _ _ => List.not_mem_nil) (hsame ▸ hnodup)

/-! ## Directories one in the other -/

/-- As many directories with one name, each in the one before. -/
def nestedIn (name : String) : Nat → FileSystem
  | 0 => { nodes := [], workingDirectory := [] }
  | n + 1 => (nestedIn name n).put (List.replicate (n + 1) name) .directory

theorem node?_nestedIn (name : String) (n : Nat) (loc : Location) : (nestedIn name n).node? loc =
    if loc.length ≤ n ∧ loc = List.replicate loc.length name then some .directory else none := by
  induction n with
  | zero =>
    cases loc with
    | nil => rfl
    | cons first loc => simp [nestedIn, FileSystem.node?]
  | succ n ih =>
    rw [nestedIn, FileSystem.node?_put (by simp), ih]
    by_cases hloc : loc = List.replicate (n + 1) name
    · simp [hloc]
    · rw [if_neg hloc]
      refine if_congr (and_congr_left fun hall => ?_) rfl rfl
      have hlength : loc.length ≠ n + 1 := fun heq => hloc (heq ▸ hall)
      omega

theorem wellFormed_nestedIn {name : String} (h : IsFileName name) (n : Nat) :
    (nestedIn name n).WellFormed := by
  induction n with
  | zero => exact ⟨List.nodup_nil, List.forall_mem_nil _, List.forall_mem_nil _⟩
  | succ n ih => exact ih.put (by simp) (by simp [h]) _

theorem grounded_nestedIn {name : String} (h : name.utf8ByteSize ≤ FileSystem.nameLimit) (n : Nat) :
    (nestedIn name n).Grounded := by
  induction n with
  | zero => exact ⟨List.forall_mem_nil _, List.forall_mem_nil _⟩
  | succ n ih =>
    refine ih.put ?_ ?_ (by simp [h]) _
    · simp [node?_nestedIn]
    · simp [node?_nestedIn]

/-- A long name for a directory. -/
def longName : String := String.ofList (List.replicate 239 'd')

theorem isFileName_longName : IsFileName longName :=
  FileSystem.isFileName_ofList (by decide) (by decide) (by decide) (by decide)

theorem longName_short : longName.utf8ByteSize ≤ FileSystem.nameLimit := by decide +kernel

/-- The last of seventeen directories with that name. Its absolute path has 4080 bytes. -/
def bottom : Location := List.replicate 17 longName

/-- It holds a configuration. -/
def deep : FileSystem :=
  (nestedIn longName 17).put (bottom ++ [fileName])
    (.file "\x7b\"title\":\"t\"\x7d".toUTF8.data.toList ⟨0, 0⟩)

theorem wellFormed_deep : deep.WellFormed :=
  (wellFormed_nestedIn isFileName_longName 17).put (by simp)
    (by simp [bottom, isFileName_longName, isFileName_fileName]) _

theorem grounded_deep : deep.Grounded :=
  (grounded_nestedIn longName_short 17).put (by simp [node?_nestedIn, bottom])
    (by simp [node?_nestedIn, bottom])
    (List.forall_mem_append.mpr ⟨by simp [bottom, longName_short], by decide⟩) _

theorem node?_deep (loc : Location) : deep.node? loc =
    if loc = bottom ++ [fileName]
    then some (.file "\x7b\"title\":\"t\"\x7d".toUTF8.data.toList ⟨0, 0⟩)
    else (nestedIn longName 17).node? loc :=
  FileSystem.node?_put (by simp)

/-- The path of the configuration is too long, and there is no other one. -/
theorem not_holdsConfig_deep : ¬ HoldsConfig deep dir := by
  rintro ⟨hsome, hlong⟩
  by_cases heq : dir = bottom
  · have htoo : FileSystem.isTooLong (configAt bottom) = true := by decide +kernel
    rw [heq, htoo] at hlong
    cases hlong
  · have hother : fileName ≠ longName := by decide +kernel
    rw [node?_deep, if_neg (by simpa using heq), node?_nestedIn, if_neg] at hsome
    · cases hsome
    · rintro ⟨-, hall⟩
      have hmem : fileName ∈ List.replicate (dir ++ [fileName]).length longName :=
        hall ▸ List.mem_append_right dir List.mem_cons_self
      exact hother (List.eq_of_mem_replicate hmem)

/-! ## The configuration of a directory -/

/-- What is loaded is resolved from the file in the nearest directory. -/
theorem load_of_nearest (hd : fs.find directory = .ok (loc, .directory)) (hloc : fs.Walkable loc)
    (hn : Nearest fs loc top) : load fs directory none = loadFile fs (configAt top) := by
  refine load_eq_loadFile ?_
  rw [startFile?, nearest?_eq hd hloc, nearestDirectory?_eq_some_iff.mpr hn, Option.map_some]

theorem join_configAt (directory : String) (dir : Location) :
    Files.Path.join directory (configAt dir) = configAt dir :=
  if_pos (Files.Path.isAbsolute_pathOf _)

/-- So it is where that file is asked for by its absolute path, from wherever. -/
theorem load_configAt (directory : String) (h : fs.exists? (configAt top) = true) :
    load fs directory (some (configAt top)) = loadFile fs (configAt top) := by
  refine load_eq_loadFile ?_
  simp only [startFile?, join_configAt]
  exact if_pos h

/-- A file that is asked for has to be there. -/
theorem load_configAt_of_missing (directory : String) (h : fs.exists? (configAt dir) = false) :
    load fs directory (some (configAt dir)) = .error (.configNotFound (configAt dir)) := by
  unfold load
  simp only [join_configAt, h]
  exact if_neg Bool.false_ne_true

/-- Without a configuration on the way up there is the empty one. -/
theorem load_of_none (hd : fs.find directory = .ok (loc, .directory)) (hloc : fs.Walkable loc)
    (hnone : ∀ dir, dir <+: loc → ¬ HoldsConfig fs dir) : load fs directory none = .ok {} := by
  unfold load
  simp only [nearest?_eq hd hloc, nearestDirectory?_eq_none_iff.mpr hnone, Option.map_none]

/-- The nearest directory stays the nearest, as long as no configuration comes nearer. -/
theorem Nearest.spared (hn : Nearest fs loc top) (hholds : HoldsConfig fs' top)
    (hfree : ∀ dir, top <+: dir → dir <+: loc → HoldsConfig fs' dir → dir = top) :
    Nearest fs' loc top where
  above := hn.above
  holds := hholds
  deepest dir hdir hd := by
    rcases List.prefix_or_prefix_of_prefix hdir hn.above with habove | hbelow
    · exact habove
    · exact (hfree dir hbelow hdir hd) ▸ List.prefix_rfl

/-- **The nearest configuration decides.** If there is a configuration in the directory or above it,
at a path that is not too long, there is a deepest directory that holds one. Resolving that file
comes to an end, and loading the configuration of the directory gives what comes of it: what is
given where the file is asked for by its absolute path. If that is a configuration, it stays the
same whatever is done to files that are not on its chain, as long as no configuration is put into
the directory or between the two. If no directory holds a configuration, it is the empty one. -/
theorem nearest_decides (hfs : fs.WellFormed) (hg : fs.Grounded)
    (hd : fs.find directory = .ok (loc, .directory)) :
    ((∃ dir, dir <+: loc ∧ HoldsConfig fs dir) → ∃ top, Nearest fs loc top) ∧
    (∀ top, Nearest fs loc top →
      Resolved fs [] (configAt top) (load fs directory none) ∧
      load fs directory none = load fs directory (some (configAt top)) ∧
      ∀ c, load fs directory none = .ok c →
        (∃! links, Linked fs (configAt top) links none) ∧
        ∀ links, Linked fs (configAt top) links none →
          ∀ fs', fs.KeepsDirectories fs' → Spares fs fs' links →
            (∀ dir, top <+: dir → dir <+: loc → HoldsConfig fs' dir → dir = top) →
            load fs' directory none = .ok c) ∧
    ((∀ dir, dir <+: loc → ¬ HoldsConfig fs dir) → load fs directory none = .ok {}) := by
  have hloc : fs.Walkable loc := hg.walkable (FileSystem.find_eq_ok_iff.mp hd).2
    (hfs.named_of_locate? (FileSystem.locate?_eq_some_iff.mpr ⟨_, hd⟩))
  refine ⟨?_, fun top hn => ?_, load_of_none hd hloc⟩
  · rintro ⟨dir, hdir, hholds⟩
    cases hfound : nearestDirectory? fs loc with
    | none => exact absurd hholds (nearestDirectory?_eq_none_iff.mp hfound dir hdir)
    | some top => exact ⟨top, nearestDirectory?_eq_some_iff.mp hfound⟩
  · have hexists := (exists?_configAt_iff (hloc.of_prefix hn.above)).mpr hn.holds
    rw [load_of_nearest hd hloc hn]
    refine ⟨resolved_iff.mpr rfl, (load_configAt directory hexists).symm, fun c hc => ?_⟩
    obtain ⟨links, hlinked, -⟩ := exists_links_of_resolved (resolved_iff.mpr hc) rfl
    refine ⟨⟨links, hlinked, fun _ h => h.unique rfl hlinked⟩,
      fun links hlinked fs' hkeeps hspares hfree => ?_⟩
    have hloc' := hloc.kept hkeeps
    have hholds' : HoldsConfig fs' top := (exists?_configAt_iff (hloc'.of_prefix hn.above)).mp
      (hlinked.spared hkeeps hspares).exists?
    rw [load_of_nearest (hkeeps.find_directory hd) hloc' (hn.spared hholds' hfree),
      loadFile_spared hc hlinked hkeeps hspares]

/-- A directory below one with a configuration, which extends another one. -/
def nested : FileSystem where
  nodes :=
    [(["w"], .directory),
      (["w", ".treedocrc.json"],
        .file "\x7b\"extends\":\"./base\",\"expandAll\":false\x7d".toUTF8.data.toList ⟨0, 0⟩),
      (["w", "base.json"], .file "\x7b\"title\":\"t\"\x7d".toUTF8.data.toList ⟨0, 0⟩),
      (["w", "sub"], .directory),
      (["w", "sub", "old.json"], .file [] ⟨0, 0⟩)]
  workingDirectory := ["w"]

/-- A file less, and something that is no configuration at the root. -/
def nestedElsewhere : FileSystem :=
  (nested.put [".treedocrc.json"] (.file [] ⟨0, 0⟩)).remove ["w", "sub", "old.json"]

/-- Neither counts for what is loaded below. -/
theorem load_nested : nested.WellFormed ∧ nested.Grounded ∧
    nested.find "sub" = .ok (["w", "sub"], .directory) ∧ Nearest nested ["w", "sub"] ["w"] ∧
    ∃ c, c.title = some "t" ∧ load nested "sub" none = .ok c ∧
      load nested "sub" (some "/w/.treedocrc.json") = .ok c ∧
      load nestedElsewhere "sub" none = .ok c := by
  have hfs : nested.WellFormed := ⟨by decide, by decide, by decide⟩
  have hg : nested.Grounded := ⟨by decide +kernel, by decide⟩
  have hd : nested.find "sub" = .ok (["w", "sub"], .directory) := by decide +kernel
  have hn : Nearest nested ["w", "sub"] ["w"] :=
    nearestDirectory?_eq_some_iff.mp (by decide +kernel)
  have hload : load nested "sub" none =
      .ok { title := some "t", expandAll := some false } := by decide +kernel
  have hkeeps : nested.KeepsDirectories nestedElsewhere :=
    (FileSystem.keepsDirectories_put (by decide) _).trans
      (FileSystem.keepsDirectories_remove (by decide))
  have hchild : readFile nested "/w/.treedocrc.json" =
    .ok { base := some "./base", expandAll := some false } := by decide +kernel
  have hbase : readFile nested (basePath "/w/.treedocrc.json" "./base") =
    .ok { title := some "t" } := by decide +kernel
  have hfree : ∀ dir ∈ List.inits ["w", "sub"], ["w"] <+: dir →
      HoldsConfig nestedElsewhere dir → dir = ["w"] := by decide +kernel
  obtain ⟨-, hdecides, -⟩ := nearest_decides hfs hg hd
  obtain ⟨-, hasked, hsame⟩ := hdecides ["w"] hn
  have helsewhere := (hsame _ hload).2 _ (.cons hchild rfl (.single hbase rfl)) nestedElsewhere
    hkeeps (by decide +kernel)
    fun dir hbelow habove => hfree dir ((List.mem_inits _ _).mpr habove) hbelow
  exact ⟨hfs, hg, hd, hn, _, rfl, hload, hasked ▸ hload, helsewhere⟩

/-- **A configuration at a path that is too long** is overlooked, though it stands in the directory
itself. By its absolute path it is not found. -/
theorem deep_overlooked : deep.WellFormed ∧ deep.Grounded ∧
    deep.find (FileSystem.pathOf bottom) = .ok (bottom, .directory) ∧
    (deep.node? (bottom ++ [fileName])).isSome ∧
    load deep (FileSystem.pathOf bottom) none = .ok {} ∧
    load deep (FileSystem.pathOf bottom) (some (configAt bottom)) =
      .error (.configNotFound (configAt bottom)) := by
  have hloc : deep.Walkable bottom := grounded_deep.walkable
    (by simp [node?_deep, node?_nestedIn, bottom]) (by simp [bottom, isFileName_longName])
  have hd := hloc.find_pathOf (by decide +kernel)
  have hmissing : deep.exists? (configAt bottom) = false := by
    rw [← Bool.not_eq_true, exists?_configAt_iff hloc]
    exact not_holdsConfig_deep
  exact ⟨wellFormed_deep, grounded_deep, hd, by simp [node?_deep],
    load_of_none hd hloc fun _ _ => not_holdsConfig_deep, load_configAt_of_missing _ hmissing⟩

end EntryReport.Config
