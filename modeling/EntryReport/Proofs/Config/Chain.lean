import EntryReport.Config.Resolve
import EntryReport.Proofs.Files.Locations
import Mathlib.Data.List.Perm.Subperm

/-!
# Chains of configurations

`Resolved` says what comes of a configuration file, with no limit on the length of its chain. There
is always one result (`resolved_iff`): no file is met twice, so that the limit of `loadFile`, which
is above the number of files, is never reached.

Files are `Linked` if each one extends the next. If the chain ends, and no file is met twice, each
configuration fills in what those before it leave open (`resolved_of_linked`); this is the same as
merging one after the other into the first (`merged_cons`). If the chain comes back to a file, it is
rejected (`rejected_of_linked`). What counts is where a path leads, and not how it is written.

* `load_along_chain`: all of this for the configuration of a directory.
-/

namespace EntryReport.Config

open Files (FileSystem Location)

variable {fs : FileSystem} {path next base : String} {visited : List String} {c : Config}
  {r r' : Except Failure Config} {err : Failure}

/-! ## Merging -/

/-- The configuration, as if it extended none. -/
def withoutBase (c : Config) : Config := { c with base := none }

/-- The first configuration with the others merged into it, one after the other. -/
def merged : List Config → Config
  | [] => {}
  | c :: bases => bases.foldl (fun c b => c.withBase b.withoutBase) c.withoutBase

theorem withBase_assoc (a b c : Config) :
    (a.withBase b).withBase c = a.withBase (b.withBase c) := by
  simp only [withBase, Option.or_assoc, List.append_assoc]

theorem foldl_withBase (a b : Config) (bases : List Config) :
    bases.foldl (fun c b => c.withBase b.withoutBase) (a.withBase b) =
      a.withBase (bases.foldl (fun c b => c.withBase b.withoutBase) b) := by
  induction bases generalizing b with
  | nil => rfl
  | cons d bases ih => rw [List.foldl_cons, List.foldl_cons, withBase_assoc, ih]

theorem merged_singleton (c : Config) : merged [c] = c.withoutBase := rfl

/-- Merging can begin at the far end as well. -/
theorem merged_cons (c b : Config) (bases : List Config) :
    merged (c :: b :: bases) = c.withoutBase.withBase (merged (b :: bases)) :=
  foldl_withBase c.withoutBase b.withoutBase bases

/-- A setting is that of the first configuration that has it. -/
theorem setting_merged {α : Type} (f : Config → Option α)
    (hwithout : ∀ a, f (withoutBase a) = f a) (hwith : ∀ a b, f (a.withBase b) = (f a).or (f b))
    (c : Config) (bases : List Config) : f (merged (c :: bases)) = (c :: bases).findSome? f := by
  induction bases generalizing c with
  | nil =>
    rw [merged_singleton, hwithout, List.findSome?_cons]
    cases f c <;> rfl
  | cons b bases ih =>
    rw [merged_cons, hwith, hwithout, ih b, List.findSome?_cons (a := c)]
    cases f c <;> rfl

theorem ignore_merged (c : Config) (bases : List Config) :
    (merged (c :: bases)).ignore = (c :: bases).reverse.flatMap (·.ignore) := by
  induction bases generalizing c with
  | nil => simp [merged_singleton, withoutBase]
  | cons b bases ih =>
    rw [merged_cons, withBase, ih b, List.reverse_cons (a := c), List.flatMap_append]
    simp [withoutBase]

theorem base_merged (chain : List Config) : (merged chain).base = none := by
  cases chain with
  | nil => rfl
  | cons c bases =>
    induction bases generalizing c with
    | nil => rfl
    | cons b bases ih => rw [merged_cons, withBase, ih b, withoutBase, Option.or_none]

/-- What a configuration takes from those of a chain. -/
structure FilledFrom (c : Config) (chain : List Config) : Prop where
  base : c.base = none
  title : c.title = chain.findSome? (·.title)
  rootName : c.rootName = chain.findSome? (·.rootName)
  expandAll : c.expandAll = chain.findSome? (·.expandAll)
  hideEmptyFolders : c.hideEmptyFolders = chain.findSome? (·.hideEmptyFolders)
  highlight : c.highlight = chain.findSome? (·.highlight)
  failOnError : c.failOnError = chain.findSome? (·.failOnError)
  ignore : c.ignore = chain.reverse.flatMap (·.ignore)

/-- **Each setting comes from the nearest configuration that has it.** -/
theorem filledFrom_merged (c : Config) (bases : List Config) :
    (merged (c :: bases)).FilledFrom (c :: bases) where
  base := base_merged (c :: bases)
  title := setting_merged (·.title) (fun _ => rfl) (fun _ _ => rfl) c bases
  rootName := setting_merged (·.rootName) (fun _ => rfl) (fun _ _ => rfl) c bases
  expandAll := setting_merged (·.expandAll) (fun _ => rfl) (fun _ _ => rfl) c bases
  hideEmptyFolders := setting_merged (·.hideEmptyFolders) (fun _ => rfl) (fun _ _ => rfl) c bases
  highlight := setting_merged (·.highlight) (fun _ => rfl) (fun _ _ => rfl) c bases
  failOnError := setting_merged (·.failOnError) (fun _ => rfl) (fun _ _ => rfl) c bases
  ignore := ignore_merged c bases

/-! ## Resolution without a limit -/

/-- What comes of a configuration file, after those with the canonical paths `visited`. -/
inductive Resolved (fs : FileSystem) : List String → String → Except Failure Config → Prop
  | circular {visited : List String} {path : String} (seen : fs.canonical path ∈ visited) :
    Resolved fs visited path (.error (.circularConfig path))
  | unread {visited : List String} {path : String} {err : Failure}
    (fresh : fs.canonical path ∉ visited) (bad : readFile fs path = .error err) :
    Resolved fs visited path (.error err)
  | last {visited : List String} {path : String} {c : Config}
    (fresh : fs.canonical path ∉ visited) (read : readFile fs path = .ok c)
    (alone : c.base = none) : Resolved fs visited path (.ok c)
  | missing {visited : List String} {path base : String} {c : Config}
    (fresh : fs.canonical path ∉ visited) (read : readFile fs path = .ok c)
    (extending : c.base = some base) (bad : fs.exists? (basePath path base) = false) :
    Resolved fs visited path (.error (.baseNotFound (basePath path base) path))
  | linked {visited : List String} {path base : String} {c : Config} {r : Except Failure Config}
    (fresh : fs.canonical path ∉ visited) (read : readFile fs path = .ok c)
    (extending : c.base = some base) (there : fs.exists? (basePath path base) = true)
    (rest : Resolved fs (fs.canonical path :: visited) (basePath path base) r) :
    Resolved fs visited path (r.map c.withoutBase.withBase)

/-- There is one result at most. -/
theorem Resolved.unique (h : Resolved fs visited path r) (h' : Resolved fs visited path r') :
    r = r' := by
  induction h generalizing r' with
  | circular seen => cases h' <;> first | rfl | contradiction
  | unread fresh bad => cases h' <;> simp_all
  | last fresh read alone => cases h' <;> simp_all
  | missing fresh read extending bad => cases h' <;> simp_all
  | linked fresh read extending there rest ih =>
    cases h' with
    | circular seen => exact absurd seen fresh
    | unread _ bad => simp_all
    | last _ read' alone => simp_all
    | missing _ read' extending' bad => simp_all
    | linked _ read' extending' _ rest' =>
      rw [read, Except.ok.injEq] at read'
      subst read'
      rw [extending, Option.some.injEq] at extending'
      subst extending'
      rw [ih rest']

/-- A file that can be read is there. -/
theorem locate?_of_readFile (h : readFile fs path = .ok c) :
    ∃ loc ∈ fs.nodes.map (·.1), fs.locate? path = some loc := by
  unfold readFile at h
  split at h
  · exact absurd h (by simp)
  · next text hread =>
    obtain ⟨loc, content, time, hfind⟩ := FileSystem.find_of_readText hread
    exact ⟨loc, FileSystem.mem_nodes_of_node? (FileSystem.find_eq_ok_iff.mp hfind).2,
      FileSystem.locate?_eq_some_iff.mpr ⟨_, hfind⟩⟩

/-- The files that were met are different files. -/
structure Met (fs : FileSystem) (visited : List String) : Prop where
  nodup : visited.Nodup
  there : visited ⊆ (fs.nodes.map (·.1)).map FileSystem.pathOf

theorem Met.nil : Met fs [] := ⟨List.nodup_nil, List.nil_subset _⟩

theorem Met.length_le (h : Met fs visited) : visited.length ≤ fs.nodes.length := by
  simpa using (List.subperm_of_subset h.nodup h.there).length_le

theorem Met.cons (h : Met fs visited) (fresh : fs.canonical path ∉ visited)
    (read : readFile fs path = .ok c) : Met fs (fs.canonical path :: visited) where
  nodup := List.nodup_cons.mpr ⟨fresh, h.nodup⟩
  there := by
    obtain ⟨loc, hmem, hloc⟩ := locate?_of_readFile read
    rw [FileSystem.canonical_of_locate? hloc]
    exact List.cons_subset.mpr ⟨List.mem_map_of_mem hmem, h.there⟩

/-- **The limit is not reached** if it is above the number of files that were not met yet. -/
theorem resolved_resolve {limit : Nat} (h : Met fs visited)
    (hlimit : fs.nodes.length < visited.length + limit) (path : String) :
    Resolved fs visited path (resolve fs limit visited path) := by
  induction limit generalizing visited path with
  | zero =>
    have hle := h.length_le
    omega
  | succ limit ih =>
    rw [resolve]
    by_cases hseen : fs.canonical path ∈ visited
    · rw [if_pos hseen]
      exact .circular hseen
    rw [if_neg hseen]
    cases hread : readFile fs path with
    | error err => exact .unread hseen hread
    | ok c =>
      simp only [ok_bind]
      cases hbase : c.base with
      | none => exact .last hseen hread hbase
      | some base =>
        simp only []
        cases hthere : fs.exists? (basePath path base) with
        | false => exact .missing hseen hread hbase hthere
        | true =>
          have hrest := ih (h.cons hseen hread) (by rw [List.length_cons]; omega)
            (basePath path base)
          have hlinked := Resolved.linked hseen hread hbase hthere hrest
          revert hlinked
          cases resolve fs limit (fs.canonical path :: visited) (basePath path base) <;> exact id

/-- **Every configuration file has one result**, which is that of `loadFile`. -/
theorem resolved_iff : Resolved fs [] path r ↔ loadFile fs path = r := by
  have h : Resolved fs [] path (loadFile fs path) :=
    resolved_resolve Met.nil (by simp) path
  exact ⟨fun hr => h.unique hr, fun heq => heq ▸ h⟩

/-! ## Chains -/

/-- A configuration and the path of its file. -/
structure Link where
  path : String
  config : Config

/-- The files from a path on, each of which extends the next one; `next` is what the last one
extends. -/
inductive Linked (fs : FileSystem) : String → List Link → Option String → Prop
  | single {path : String} {c : Config} {next : Option String} (read : readFile fs path = .ok c)
    (onward : c.base.map (basePath path) = next) : Linked fs path [⟨path, c⟩] next
  | cons {path base : String} {c : Config} {links : List Link} {next : Option String}
    (read : readFile fs path = .ok c) (extending : c.base = some base)
    (rest : Linked fs (basePath path base) links next) :
    Linked fs path (⟨path, c⟩ :: links) next

variable {links : List Link}

/-- The first link is the file itself. -/
theorem Linked.head {next : Option String} (h : Linked fs path links next) :
    ∃ c rest, links = ⟨path, c⟩ :: rest ∧ readFile fs path = .ok c := by
  cases h with
  | single read _ => exact ⟨_, [], rfl, read⟩
  | cons read _ _ => exact ⟨_, _, rfl, read⟩

/-- A chain that ends is the only one from there. -/
theorem Linked.unique {links' : List Link} {next : Option String} (h : Linked fs path links next)
    (hend : next = none) (h' : Linked fs path links' none) : links = links' := by
  induction h generalizing links' with
  | single read onward =>
    rw [hend, Option.map_eq_none_iff] at onward
    cases h' with
    | single read' _ => simp_all
    | cons read' extending _ => simp_all
  | cons read extending _ ih =>
    cases h' with
    | single read' onward => simp_all
    | cons read' extending' rest' =>
      rw [read, Except.ok.injEq] at read'
      subst read'
      rw [extending, Option.some.injEq] at extending'
      subst extending'
      rw [ih hend rest']

theorem Linked.exists? {next : Option String} (h : Linked fs path links next) :
    fs.exists? path = true := by
  obtain ⟨c, rest, -, read⟩ := h.head
  obtain ⟨loc, -, hloc⟩ := locate?_of_readFile read
  exact FileSystem.exists?_of_locate? hloc

/-- **A chain that ends** is filled in from file to file. -/
theorem resolved_of_linked {next : Option String} (h : Linked fs path links next)
    (hend : next = none) (hfresh : ∀ x ∈ links, fs.canonical x.path ∉ visited)
    (hnodup : (links.map fun x => fs.canonical x.path).Nodup) :
    Resolved fs visited path (.ok (merged (links.map (·.config)))) := by
  induction h generalizing visited with
  | @single path c next read onward =>
    have hbase : c.base = none := by rwa [hend, Option.map_eq_none_iff] at onward
    have hmerged : c.withoutBase = c := by rw [withoutBase, ← hbase]
    rw [List.map_singleton, merged_singleton, hmerged]
    exact .last (hfresh _ List.mem_cons_self) read hbase
  | @cons path base c links next read extending rest ih =>
    rw [List.map_cons, List.nodup_cons] at hnodup
    have hfresh' : ∀ x ∈ links, fs.canonical x.path ∉ fs.canonical path :: visited := by
      intro x hx hseen
      rcases List.mem_cons.mp hseen with heq | hseen
      · exact hnodup.1 (List.mem_map.mpr ⟨x, hx, heq⟩)
      · exact hfresh x (List.mem_cons_of_mem _ hx) hseen
    have hrest := ih hend hfresh' hnodup.2
    obtain ⟨c', links', rfl, -⟩ := rest.head
    have hlinked := Resolved.linked (hfresh _ List.mem_cons_self) read extending rest.exists? hrest
    rwa [List.map_cons, List.map_cons, merged_cons]

/-- **What gave a configuration is a chain that ends.** -/
theorem exists_links_of_resolved (h : Resolved fs visited path r) (hok : r = .ok c) :
    ∃ links, Linked fs path links none ∧ c = merged (links.map (·.config)) ∧
      (∀ x ∈ links, fs.canonical x.path ∉ visited) ∧
      (links.map fun x => fs.canonical x.path).Nodup := by
  induction h generalizing c with
  | circular _ | unread _ _ | missing _ _ _ _ => cases hok
  | @last visited path d fresh read alone =>
    cases hok
    refine ⟨[⟨path, d⟩], .single read (by rw [alone]; rfl), ?_, ?_, List.pairwise_singleton _ _⟩
    · rw [List.map_singleton, merged_singleton, withoutBase, ← alone]
    · exact List.forall_mem_singleton.mpr fresh
  | @linked visited path base d r fresh read extending _ _ ih =>
    obtain ⟨b, rfl, rfl⟩ := map_eq_ok_iff.mp hok
    obtain ⟨links, hlinked, rfl, hfresh, hnodup⟩ := ih rfl
    refine ⟨⟨path, d⟩ :: links, .cons read extending hlinked, ?_, ?_, ?_⟩
    · obtain ⟨b, rest, rfl, -⟩ := hlinked.head
      exact (merged_cons d b (rest.map (·.config))).symm
    · exact List.forall_mem_cons.mpr
        ⟨fresh, fun x hx hseen => hfresh x hx (List.mem_cons_of_mem _ hseen)⟩
    · rw [List.map_cons, List.nodup_cons]
      refine ⟨fun hmem => ?_, hnodup⟩
      obtain ⟨x, hx, heq⟩ := List.mem_map.mp hmem
      exact hfresh x hx (heq ▸ List.mem_cons_self)

/-- **A chain that comes back** to a file is rejected, there or where it came back before. -/
theorem rejected_of_linked {onward : Option String} (h : Linked fs path links onward)
    (hnext : onward = some next) (hthere : fs.exists? next = true)
    (hback : fs.canonical next ∈ visited ∨ ∃ x ∈ links, fs.canonical x.path = fs.canonical next) :
    ∃ p, (p = next ∨ ∃ x ∈ links, x.path = p) ∧
      Resolved fs visited path (.error (.circularConfig p)) := by
  induction h generalizing visited with
  | @single path c onward read hon =>
    by_cases hseen : fs.canonical path ∈ visited
    · exact ⟨path, Or.inr ⟨_, List.mem_cons_self, rfl⟩, .circular hseen⟩
    rw [hnext, Option.map_eq_some_iff] at hon
    obtain ⟨base, hbase, rfl⟩ := hon
    refine ⟨_, Or.inl rfl, .linked hseen read hbase hthere (.circular ?_)⟩
    rcases hback with hback | ⟨x, hx, hback⟩
    · exact List.mem_cons_of_mem _ hback
    · rw [List.mem_singleton.mp hx] at hback
      exact hback ▸ List.mem_cons_self
  | @cons path base c links onward read extending rest ih =>
    by_cases hseen : fs.canonical path ∈ visited
    · exact ⟨path, Or.inr ⟨_, List.mem_cons_self, rfl⟩, .circular hseen⟩
    have hback' : fs.canonical next ∈ fs.canonical path :: visited ∨
        ∃ x ∈ links, fs.canonical x.path = fs.canonical next := by
      rcases hback with hback | ⟨x, hx, hback⟩
      · exact Or.inl (List.mem_cons_of_mem _ hback)
      · rcases List.mem_cons.mp hx with rfl | hx
        · exact Or.inl (hback ▸ List.mem_cons_self)
        · exact Or.inr ⟨x, hx, hback⟩
    obtain ⟨p, hp, hrest⟩ := ih hnext hback'
    refine ⟨p, hp.imp_right fun ⟨x, hx, heq⟩ => ⟨x, List.mem_cons_of_mem _ hx, heq⟩, ?_⟩
    exact .linked hseen read extending rest.exists? hrest

/-- The files of a chain are there. -/
theorem Linked.located {onward : Option String} (h : Linked fs path links onward) {x : Link}
    (hx : x ∈ links) : ∃ loc, fs.locate? x.path = some loc := by
  induction h with
  | single read _ =>
    rw [List.mem_singleton.mp hx]
    obtain ⟨loc, -, hloc⟩ := locate?_of_readFile read
    exact ⟨loc, hloc⟩
  | cons read _ _ ih =>
    rcases List.mem_cons.mp hx with rfl | hx
    · obtain ⟨loc, -, hloc⟩ := locate?_of_readFile read
      exact ⟨loc, hloc⟩
    · exact ih hx

/-- Different files have different canonical paths. -/
theorem Linked.nodup_canonical {onward : Option String} (h : Linked fs path links onward)
    (hfs : fs.WellFormed) (hnodup : (links.map fun x => fs.locate? x.path).Nodup) :
    (links.map fun x => fs.canonical x.path).Nodup := by
  rw [List.Nodup, List.pairwise_map] at hnodup ⊢
  refine hnodup.imp_of_mem fun {x y} hx hy hne heq => hne ?_
  obtain ⟨loc, hloc⟩ := h.located hx
  obtain ⟨loc', hloc'⟩ := h.located hy
  rw [hloc, hloc', hfs.locate?_eq_of_canonical_eq hloc hloc' heq]

/-! ## The configuration of a directory -/

/-- The file that the configuration of a directory begins with: the one that is asked for, or the
nearest one. -/
def startFile? (fs : FileSystem) (directory : String) (custom : Option String) : Option String :=
  match custom with
  | some path =>
    let path := Files.Path.join directory path
    if fs.exists? path then some path else none
  | none => nearest? fs directory

theorem load_eq_loadFile {directory start : String} {custom : Option String}
    (h : startFile? fs directory custom = some start) :
    load fs directory custom = loadFile fs start := by
  unfold startFile? at h
  unfold load
  cases custom with
  | none => simp only [h]
  | some path =>
    simp only [Option.ite_none_right_eq_some, Option.some.injEq] at h
    obtain ⟨hthere, rfl⟩ := h
    exact if_pos hthere

/-- **A configuration is filled in along its chain.** Whatever the files are, a start file has one
result. If the chain ends and no file occurs twice in it, each setting comes from the first
configuration that has it, and the patterns of all are put together from the far end on; this is
the first configuration with the others merged into it. If the chain comes back to a file where it
was, however the way there is spelled, it is rejected. -/
theorem load_along_chain (hfs : fs.WellFormed) {directory start : String} {custom : Option String}
    (hstart : startFile? fs directory custom = some start) :
    (∃! r, Resolved fs [] start r) ∧
    Resolved fs [] start (load fs directory custom) ∧
    (∀ links, Linked fs start links none → (links.map fun x => fs.locate? x.path).Nodup →
      ∃ c, load fs directory custom = .ok c ∧ c.FilledFrom (links.map (·.config)) ∧
        c = merged (links.map (·.config))) ∧
    ∀ links next, Linked fs start links (some next) →
      (∃ x ∈ links, fs.locate? x.path = fs.locate? next) →
      ∃ p, (p = next ∨ ∃ x ∈ links, x.path = p) ∧
        load fs directory custom = .error (.circularConfig p) := by
  rw [load_eq_loadFile hstart]
  refine ⟨⟨_, resolved_iff.mpr rfl, fun r hr => (resolved_iff.mp hr).symm⟩, resolved_iff.mpr rfl,
    fun links hlinked hnodup => ?_, fun links next hlinked hback => ?_⟩
  · have hresolved : Resolved fs [] start (.ok (merged (links.map (·.config)))) :=
      resolved_of_linked hlinked rfl (fun x _ => List.not_mem_nil)
        (hlinked.nodup_canonical hfs hnodup)
    refine ⟨_, resolved_iff.mp hresolved, ?_, rfl⟩
    obtain ⟨c, rest, rfl, -⟩ := hlinked.head
    exact filledFrom_merged c (rest.map (·.config))
  · obtain ⟨x, hx, hsame⟩ := hback
    obtain ⟨loc, hloc⟩ := hlinked.located hx
    have hnext := hsame.symm.trans hloc
    have hcanonical : fs.canonical x.path = fs.canonical next := by
      rw [FileSystem.canonical_of_locate? hloc, FileSystem.canonical_of_locate? hnext]
    have hcircular : ∃ p, (p = next ∨ ∃ x ∈ links, x.path = p) ∧
        Resolved fs [] start (.error (.circularConfig p)) :=
      rejected_of_linked hlinked rfl (FileSystem.exists?_of_locate? hnext)
        (Or.inr ⟨x, hx, hcanonical⟩)
    obtain ⟨p, hp, hresolved⟩ := hcircular
    exact ⟨p, hp, resolved_iff.mp hresolved⟩

/-- A configuration that switches something off, and one that it extends, which switches it on. -/
def switchedOff : FileSystem where
  nodes :=
    [(["w"], .directory),
      (["w", ".treedocrc.json"],
        .file "\x7b\"extends\":\"./base\",\"expandAll\":false\x7d".toUTF8.data.toList ⟨0, 0⟩),
      (["w", "base.json"],
        .file "\x7b\"title\":\"t\",\"expandAll\":true\x7d".toUTF8.data.toList ⟨0, 0⟩)]
  workingDirectory := ["w"]

/-- What is switched off is not switched on by another configuration. -/
theorem load_switchedOff :
    switchedOff.WellFormed ∧ startFile? switchedOff "." none = some "/w/.treedocrc.json" ∧
      ∃ c, load switchedOff "." none = .ok c ∧ c.title = some "t" ∧ c.expandAll = some false := by
  have hfs : switchedOff.WellFormed := ⟨by decide, by decide, by decide⟩
  have hstart : startFile? switchedOff "." none = some "/w/.treedocrc.json" := by decide +kernel
  have hchild : readFile switchedOff "/w/.treedocrc.json" =
    .ok { base := some "./base", expandAll := some false } := by decide +kernel
  have hbase : readFile switchedOff (basePath "/w/.treedocrc.json" "./base") =
    .ok { title := some "t", expandAll := some true } := by decide +kernel
  obtain ⟨-, -, hchain, -⟩ := load_along_chain hfs hstart
  obtain ⟨c, hload, hfilled, -⟩ := hchain _ (.cons hchild rfl (.single hbase rfl))
    (by decide +kernel)
  exact ⟨hfs, hstart, c, hload, hfilled.title, hfilled.expandAll⟩

end EntryReport.Config
