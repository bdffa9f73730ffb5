import EntryReport.CommandLine.Run
import EntryReport.Proofs.Results
import EntryReport.Proofs.State.Operations
import EntryReport.Proofs.Tree.Building

/-!
# Runs without a report

A command is `Hindered` if something that it needs is not there: a path, a configuration that can
be read, patterns that can be used, entries, a node at each path that is to be expanded, an item at
the path that is to be selected, a place for the page. Each hindrance is met before anything is
printed, and the page is the only file of a report, so that nothing is left behind.

* `Request.uiState_cases`: the state that is asked for exists unless one of its paths leads nowhere;
* `Hindered.leavesNothing`, `hindered_of_noReport`: what comes of a hindered command, and that no
  other command ends without a report;
* `exists_gathers`, `exists_uiState`: what a report that is made was made of;
* `failed_run_leaves_nothing`: both for the arguments that a command is read from.
-/

namespace EntryReport.CommandLine

open Files (FileSystem)

variable {fs : FileSystem} {env : Surroundings} {r : Request} {path : String} {config : Config}
  {ignore : IgnoreSet} {loaded : Loaded} {t : Tree} {s s' : UiState} {err : Failure} {c : Command}

/-! ## The state that is asked for -/

/-- Every path that is to be expanded leads to a node, and the one to be selected to an item. -/
def Request.Addresses (r : Request) (t : Tree) : Prop :=
  (∀ path ∈ r.expand, t.find? path ≠ none) ∧
    ∀ path ∈ r.select, ∃ id, t.find? path = some id ∧ t.isItem id = true

/-- The paths can be expanded, or one of them leads nowhere. -/
theorem expandPaths_cases (h : t.WellFormed) (s : UiState) (paths : List String) :
    ((∃ path ∈ paths, t.find? path = none) ∧ ∃ err, expandPaths t s paths = .error err) ∨
      ((∀ path ∈ paths, t.find? path ≠ none) ∧ ∃ s', expandPaths t s paths = .ok s') := by
  induction paths generalizing s with
  | nil => exact Or.inr ⟨fun path hp => absurd hp List.not_mem_nil, s, rfl⟩
  | cons path paths ih =>
    rw [expandPaths]
    cases hf : t.find? path with
    | none =>
      rw [s.expandPath_of_none hf]
      exact Or.inl ⟨⟨path, List.mem_cons_self, hf⟩, _, rfl⟩
    | some id =>
      obtain ⟨s₁, hs₁⟩ : ∃ s₁, s.expandPath t path = (s₁, .ok id) :=
        ⟨_, s.expandPath_of_some hf (h.find?_eq_some_iff.mp hf).1⟩
      rw [hs₁]
      simp only [succeeding, ok_bind]
      rcases ih s₁ with ⟨⟨p, hp, hnone⟩, herr⟩ | ⟨hall, hok⟩
      · exact Or.inl ⟨⟨p, List.mem_cons_of_mem _ hp, hnone⟩, herr⟩
      · exact Or.inr ⟨List.forall_mem_cons.mpr ⟨by simp [hf], hall⟩, hok⟩

/-- The item can be selected and displayed, or there is none. -/
theorem selectAndReveal_cases (h : t.WellFormed) (s : UiState) (select : Option String) :
    ((∃ path ∈ select, ¬ ∃ id, t.find? path = some id ∧ t.isItem id = true) ∧
        ∃ err, selectAndReveal t s select = .error err) ∨
      ((∀ path ∈ select, ∃ id, t.find? path = some id ∧ t.isItem id = true) ∧
        ∃ s', selectAndReveal t s select = .ok s') := by
  cases select with
  | none => exact Or.inr ⟨fun path hp => absurd hp (by simp), s, rfl⟩
  | some path =>
    rw [selectAndReveal]
    cases hf : t.find? path with
    | none =>
      rw [s.selectPath_of_none hf]
      exact Or.inl ⟨⟨path, rfl, by simp [hf]⟩, _, rfl⟩
    | some id =>
      have hid := (h.find?_eq_some_iff.mp hf).1
      obtain ⟨n, hn⟩ := Tree.node?_eq_some_iff.mpr hid
      rw [s.selectPath_of_some hf hn, ← Tree.isItem_of_node? hn]
      cases hi : t.isItem id with
      | false => exact Or.inl ⟨⟨path, rfl, by simp [hf, hi]⟩, _, rfl⟩
      | true =>
        rw [if_pos rfl]
        simp only [succeeding, ok_bind, UiState.reveal_of_lt _ hid]
        refine Or.inr ⟨?_, _, rfl⟩
        rintro _ ⟨⟩
        exact ⟨id, hf, hi⟩

/-- **The state that is asked for** exists if and only if its paths lead where they have to. -/
theorem Request.uiState_cases (h : t.WellFormed) (r : Request) (config : Config) :
    (¬ r.Addresses t ∧ ∃ err, r.uiState config t = .error err) ∨
      (r.Addresses t ∧ ∃ s, r.uiState config t = .ok s) := by
  unfold Request.uiState Request.Addresses
  rcases expandPaths_cases h
      (if config.expandAll.getD false then UiState.new.expandAll t else .new) r.expand with
    ⟨⟨p, hp, hnone⟩, err, hr⟩ | ⟨hexpand, s, hr⟩
  · simp only [hr]
    exact Or.inl ⟨fun hall => hall.1 p hp hnone, err, rfl⟩
  · simp only [hr, ok_bind]
    rcases selectAndReveal_cases h s r.select with ⟨⟨p, hp, hnone⟩, err, hs⟩ | ⟨hselect, s', hs⟩
    · simp only [hs]
      exact Or.inl ⟨fun hall => hnone (hall.2 p hp), err, rfl⟩
    · simp only [hs, ok_bind]
      exact Or.inr ⟨⟨hexpand, hselect⟩, _, rfl⟩

/-! ## Hindrances -/

/-- No text can be written to the path. -/
def Unwritable (fs : FileSystem) (path : String) : Prop :=
  ∃ cause, ∀ text now, fs.writeText path text now = .error cause

/-- The page that is asked for cannot be written. -/
def Request.LacksRoom (r : Request) (fs : FileSystem) : Prop :=
  ∃ out ∈ r.html, Unwritable fs out

/-- The entries at a path can be read, with the configuration that the report is made by. -/
def Request.Gathers (r : Request) (fs : FileSystem) (path : String) (config : Config)
    (loaded : Loaded) : Prop :=
  ∃ ignore, r.settings fs path = .ok (config, ignore) ∧ Loaded.load fs path ignore = .ok loaded

/-- The path of a new configuration file. -/
def initialPath (fs : FileSystem) (directory : Option String) : String :=
  Files.Path.join (directory.getD (FileSystem.pathOf fs.workingDirectory)) Config.fileName

/-- Something that the command needs is not there. -/
inductive Hindered (fs : FileSystem) : Command → Prop
  | path {r : Request} (missing : r.path = none) : Hindered fs (.report r)
  | config {r : Request} {path : String} {err : Failure} (given : r.path = some path)
    (bad : Config.load fs (workDirectory fs path) r.config = .error err) : Hindered fs (.report r)
  | patterns {r : Request} {path : String} {config : Config} {err : Failure}
    (given : r.path = some path)
    (found : Config.load fs (workDirectory fs path) r.config = .ok config)
    (bad : IgnoreSet.ofPatterns config.ignore = .error err) : Hindered fs (.report r)
  | input {r : Request} {path : String} {config : Config} {ignore : IgnoreSet} {err : Failure}
    (given : r.path = some path) (settings : r.settings fs path = .ok (config, ignore))
    (bad : Loaded.load fs path ignore = .error err) : Hindered fs (.report r)
  | entries {r : Request} {path : String} {config : Config} {loaded : Loaded}
    (given : r.path = some path) (gathers : r.Gathers fs path config loaded)
    (none : loaded.entries = []) : Hindered fs (.report r)
  | address {r : Request} {path : String} {config : Config} {loaded : Loaded}
    (given : r.path = some path) (gathers : r.Gathers fs path config loaded)
    (bad : ¬ r.Addresses (Tree.build config.rootText loaded.entries).1) : Hindered fs (.report r)
  | page {r : Request} {path : String} {config : Config} {loaded : Loaded}
    (given : r.path = some path) (gathers : r.Gathers fs path config loaded)
    (bad : r.LacksRoom fs) : Hindered fs (.report r)
  | configFile {directory : Option String} (new : fs.exists? (initialPath fs directory) = false)
    (bad : Unwritable fs (initialPath fs directory)) : Hindered fs (.init directory)

/-- There is no report, nothing was printed, and the files are what they were. -/
structure Outcome.LeavesNothing (o : Outcome) (fs : FileSystem) : Prop where
  exitCode : o.exitCode = Outcome.noReport
  output : o.output = ""
  files : o.files = fs

theorem leavesNothing_failed (before : List Message) (err : Failure) :
    (Outcome.failed fs before err).LeavesNothing fs :=
  ⟨rfl, rfl, rfl⟩

/-! ## The steps of a report -/

/-- A file is put at one place whatever its text is, or no text can be written. -/
theorem writeText_cases (fs : FileSystem) (path : String) :
    Unwritable fs path ∨ ∃ loc, ∀ text now,
      fs.writeText path text now = .ok (fs.put loc (.file text.toUTF8.data.toList now)) := by
  unfold Unwritable FileSystem.writeText
  split
  · exact Or.inl ⟨_, fun _ _ => rfl⟩
  split
  · exact Or.inl ⟨_, fun _ _ => rfl⟩
  simp only []
  cases fs.walk (fs.start path)
      (((Text.slashParts path.toList).reverse.dropWhile (· = [])).reverse.dropLast ++ [[]]) with
  | error cause => exact Or.inl ⟨cause, fun _ _ => rfl⟩
  | ok directory =>
    simp only [ok_bind]
    split
    · exact Or.inl ⟨_, fun _ _ => rfl⟩
    cases fs.enter directory
        (((Text.slashParts path.toList).reverse.dropWhile (· = [])).reverse.getLastD []) with
    | error cause => exact Or.inl ⟨cause, fun _ _ => rfl⟩
    | ok loc =>
      simp only [ok_bind]
      split
      · exact Or.inl ⟨_, fun _ _ => rfl⟩
      · exact Or.inr ⟨loc, fun _ _ => rfl⟩

/-- The settings fail with the configuration, or with its patterns. -/
theorem Request.settings_cases (r : Request) (fs : FileSystem) (path : String) :
    (∃ err, r.settings fs path = .error err ∧
      (Config.load fs (workDirectory fs path) r.config = .error err ∨
        ∃ config, Config.load fs (workDirectory fs path) r.config = .ok config ∧
          IgnoreSet.ofPatterns config.ignore = .error err)) ∨
    ∃ config ignore, r.settings fs path =
        .ok (config.withFlags (r.isSet .expandAll) (r.isSet .failOnError), ignore) ∧
      Config.load fs (workDirectory fs path) r.config = .ok config ∧
      IgnoreSet.ofPatterns config.ignore = .ok ignore := by
  unfold Request.settings
  cases hload : Config.load fs (workDirectory fs path) r.config with
  | error err => exact Or.inl ⟨err, rfl, Or.inl rfl⟩
  | ok config =>
    have hignore : (config.withFlags (r.isSet .expandAll) (r.isSet .failOnError)).ignore =
      config.ignore := rfl
    simp only [ok_bind, hignore]
    cases hset : IgnoreSet.ofPatterns config.ignore with
    | error err => exact Or.inl ⟨err, rfl, Or.inr ⟨config, rfl, hset⟩⟩
    | ok ignore => exact Or.inr ⟨config, ignore, rfl, rfl, hset⟩

theorem report_of_settings_error (h : r.settings fs path = .error err) :
    report fs env r path = .failed fs [] err := by
  unfold report
  rw [h]
  rfl

theorem report_of_load_error (hs : r.settings fs path = .ok (config, ignore))
    (h : Loaded.load fs path ignore = .error err) : report fs env r path = .failed fs [] err := by
  unfold report
  rw [hs]
  simp only [ok_bind, h]
  rfl

theorem report_of_gathers (h : r.Gathers fs path config loaded) :
    report fs env r path =
      if loaded.entries.isEmpty then
        { exitCode := Outcome.noReport
          output := ""
          messages := r.warnings loaded.skipped ++ [⟨.warning, "No entries found in " ++ path⟩]
          files := fs }
      else reportOn fs env r config loaded := by
  obtain ⟨ignore, hs, hl⟩ := h
  unfold report
  rw [hs]
  simp only [ok_bind, hl]
  rfl

theorem Request.writePage_cases (r : Request) (fs : FileSystem) (now : Timestamp) (title : String)
    (v : View) :
    (r.LacksRoom fs ∧ ∃ err, r.writePage fs now title v = .error err) ∨
      (¬ r.LacksRoom fs ∧ ∃ result, r.writePage fs now title v = .ok result) := by
  unfold Request.writePage Request.LacksRoom
  cases hr : r.html with
  | none => exact Or.inr ⟨by simp, _, rfl⟩
  | some out =>
    simp only [Option.mem_some_iff, exists_eq_left']
    rcases writeText_cases fs out with ⟨cause, h⟩ | ⟨loc, h⟩
    · simp only [h]
      exact Or.inl ⟨⟨cause, h⟩, _, rfl⟩
    · simp only [h]
      exact Or.inr ⟨fun ⟨cause, hc⟩ => by simpa [h] using hc "" now, _, rfl⟩

/-- **The last steps**: the state, the page, and then the report. -/
theorem reportOn_cases (fs : FileSystem) (env : Surroundings) (r : Request) (config : Config)
    (loaded : Loaded) :
    ((¬ r.Addresses (Tree.build config.rootText loaded.entries).1 ∨ r.LacksRoom fs) ∧
      (reportOn fs env r config loaded).LeavesNothing fs) ∨
    (r.Addresses (Tree.build config.rootText loaded.entries).1 ∧ ¬ r.LacksRoom fs ∧
      (reportOn fs env r config loaded).exitCode ≠ Outcome.noReport) := by
  have hwf := (Tree.holds_build config.rootText loaded.entries).settled.wellFormed
  unfold reportOn
  rcases hb : Tree.build config.rootText loaded.entries with ⟨t, skipped⟩
  rw [hb] at hwf
  simp only []
  rcases r.uiState_cases hwf config with ⟨hno, err, hs⟩ | ⟨hall, s, hs⟩
  · simp only [hs]
    exact Or.inl ⟨Or.inl hno, leavesNothing_failed _ _⟩
  · simp only [hs]
    rcases r.writePage_cases fs env.now ((config.title.or loaded.title).getD Page.defaultTitle)
      (View.render t s config.renderOptions) with ⟨hno, err, hp⟩ | ⟨hroom, ⟨files, notes⟩, hp⟩
    · simp only [hp]
      exact Or.inl ⟨Or.inr hno, leavesNothing_failed _ _⟩
    · simp only [hp]
      refine Or.inr ⟨hall, hroom, ?_⟩
      unfold exitCode
      split <;> decide

/-! ## What comes of a hindered command -/

theorem leavesNothing_of_gathers (h : r.Gathers fs path config loaded)
    (hbad : loaded.entries = [] ∨
      ¬ r.Addresses (Tree.build config.rootText loaded.entries).1 ∨ r.LacksRoom fs) :
    (report fs env r path).LeavesNothing fs := by
  rw [report_of_gathers h]
  split
  · exact ⟨rfl, rfl, rfl⟩
  · next hne =>
    rcases reportOn_cases fs env r config loaded with ⟨-, hnothing⟩ | ⟨hall, hroom, -⟩
    · exact hnothing
    · rcases hbad with hnone | hno | hno
      · exact absurd (List.isEmpty_iff.mpr hnone) hne
      · exact absurd hall hno
      · exact absurd hno hroom

theorem run_report (hp : r.path = some path) :
    run fs env (.report r) = report fs env r path := by
  simp only [run, hp]

/-- A configuration file is written unless there is one, or no room for it. -/
theorem init_cases (fs : FileSystem) (env : Surroundings) (directory : Option String) :
    (fs.exists? (initialPath fs directory) = false ∧ Unwritable fs (initialPath fs directory) ∧
      (init fs env directory).LeavesNothing fs) ∨
    (¬ (fs.exists? (initialPath fs directory) = false ∧ Unwritable fs (initialPath fs directory)) ∧
      (init fs env directory).exitCode = Outcome.success) := by
  have hpath : Files.Path.join (directory.getD (FileSystem.pathOf fs.workingDirectory))
    Config.fileName = initialPath fs directory := rfl
  unfold init
  simp only [hpath]
  cases hex : fs.exists? (initialPath fs directory) with
  | true => exact Or.inr ⟨fun hbad => absurd hbad.1 (by simp), rfl⟩
  | false =>
    rcases writeText_cases fs (initialPath fs directory) with ⟨cause, h⟩ | ⟨loc, h⟩
    · simp only [h]
      exact Or.inl ⟨trivial, ⟨cause, h⟩, leavesNothing_failed _ _⟩
    · simp only [h]
      exact Or.inr ⟨fun ⟨_, cause, hc⟩ => by simpa [h] using hc "" env.now, rfl⟩

/-- **A hindered command leaves nothing behind.** -/
theorem Hindered.leavesNothing (h : Hindered fs c) : (run fs env c).LeavesNothing fs := by
  cases h with
  | @path r missing =>
    simp only [run, missing]
    exact leavesNothing_failed _ _
  | @config r path err given bad =>
    rw [run_report given]
    rcases r.settings_cases fs path with ⟨err', hs, -⟩ | ⟨config, ignore, -, hload, -⟩
    · rw [report_of_settings_error hs]
      exact leavesNothing_failed _ _
    · rw [bad] at hload
      exact absurd hload (by simp)
  | @patterns r path config err given found bad =>
    rw [run_report given]
    rcases r.settings_cases fs path with ⟨err', hs, -⟩ | ⟨config', ignore, -, hload, hset⟩
    · rw [report_of_settings_error hs]
      exact leavesNothing_failed _ _
    · rw [found, Except.ok.injEq] at hload
      rw [← hload, bad] at hset
      exact absurd hset (by simp)
  | input given settings bad =>
    rw [run_report given, report_of_load_error settings bad]
    exact leavesNothing_failed _ _
  | entries given gathers none =>
    rw [run_report given]
    exact leavesNothing_of_gathers gathers (Or.inl none)
  | address given gathers bad =>
    rw [run_report given]
    exact leavesNothing_of_gathers gathers (Or.inr (Or.inl bad))
  | page given gathers bad =>
    rw [run_report given]
    exact leavesNothing_of_gathers gathers (Or.inr (Or.inr bad))
  | @configFile directory new bad =>
    rcases init_cases fs env directory with ⟨-, -, hnothing⟩ | ⟨hno, -⟩
    · exact hnothing
    · exact absurd ⟨new, bad⟩ hno

/-- **Only a hindered command ends without a report.** -/
theorem hindered_of_noReport (h : (run fs env c).exitCode = Outcome.noReport) : Hindered fs c := by
  cases c with
  | version => exact absurd (show Outcome.success = Outcome.noReport from h) (by decide)
  | help => exact absurd (show Outcome.success = Outcome.noReport from h) (by decide)
  | init directory =>
    rcases init_cases fs env directory with ⟨hnew, hbad, -⟩ | ⟨-, hdone⟩
    · exact .configFile hnew hbad
    · have hrun : (run fs env (.init directory)).exitCode = Outcome.success := hdone
      rw [h] at hrun
      exact absurd hrun (by decide)
  | report r =>
    cases hp : r.path with
    | none => exact .path hp
    | some path =>
      rw [run_report hp] at h
      rcases r.settings_cases fs path with
        ⟨err, -, hload | ⟨config, hload, hset⟩⟩ | ⟨config, ignore, hs, -, -⟩
      · exact .config hp hload
      · exact .patterns hp hload hset
      · cases hl : Loaded.load fs path ignore with
        | error err => exact .input hp hs hl
        | ok loaded =>
          have hg : r.Gathers fs path _ loaded := ⟨ignore, hs, hl⟩
          rw [report_of_gathers hg] at h
          split at h
          · next hnone => exact .entries hp hg (List.isEmpty_iff.mp hnone)
          · rcases reportOn_cases fs env r _ loaded with ⟨hno | hno, -⟩ | ⟨-, -, hne⟩
            · exact .address hp hg hno
            · exact .page hp hg hno
            · exact absurd h hne

/-! ## Reports that are made -/

/-- **A report that is made** is the one on the entries that are gathered. -/
theorem exists_gathers (h : (run fs env (.report r)).exitCode ≠ Outcome.noReport) :
    ∃ path config ignore loaded, r.path = some path ∧
      Config.load fs (workDirectory fs path) r.config = .ok config ∧
      IgnoreSet.ofPatterns config.ignore = .ok ignore ∧
      Loaded.load fs path ignore = .ok loaded ∧
      r.Gathers fs path (config.withFlags (r.isSet .expandAll) (r.isSet .failOnError)) loaded ∧
      run fs env (.report r) = reportOn fs env r
        (config.withFlags (r.isSet .expandAll) (r.isSet .failOnError)) loaded := by
  cases hp : r.path with
  | none =>
    have hmissing : Hindered fs (.report r) := .path hp
    exact absurd hmissing.leavesNothing.exitCode h
  | some path =>
    rw [run_report hp] at h ⊢
    rcases r.settings_cases fs path with ⟨err, hs, -⟩ | ⟨config, ignore, hs, hload, hset⟩
    · rw [report_of_settings_error hs] at h
      exact absurd rfl h
    cases hl : Loaded.load fs path ignore with
    | error err =>
      rw [report_of_load_error hs hl] at h
      exact absurd rfl h
    | ok loaded =>
      have hgathers : r.Gathers fs path _ loaded := ⟨ignore, hs, hl⟩
      rw [report_of_gathers hgathers] at h ⊢
      split at h
      · exact absurd rfl h
      · next hne =>
        exact ⟨path, config, ignore, loaded, rfl, hload, hset, hl, hgathers, if_neg hne⟩

/-- It is of the view in the state that is asked for. -/
theorem exists_uiState (h : (reportOn fs env r config loaded).exitCode ≠ Outcome.noReport) :
    ∃ s title, r.uiState config (Tree.build config.rootText loaded.entries).1 = .ok s ∧
      (reportOn fs env r config loaded).exitCode =
        exitCode config (.render (Tree.build config.rootText loaded.entries).1 s
          config.renderOptions) ∧
      (reportOn fs env r config loaded).output = r.output env.colors title
        (.render (Tree.build config.rootText loaded.entries).1 s config.renderOptions) := by
  unfold reportOn at h ⊢
  simp only [] at h ⊢
  split at h
  · exact absurd rfl h
  · next s hs =>
    split at h
    · exact absurd rfl h
    · exact ⟨s, _, hs, rfl, rfl⟩

/-! ## Reports from arguments -/

/-- **A failing run leaves nothing behind.** If arguments are accepted and the run ends with the
exit code for that there is no report, then nothing was printed and no file was made or changed.
This is how it ends if and only if what the arguments ask for is hindered. -/
theorem failed_run_leaves_nothing (fs : FileSystem) (env : Surroundings) {args : List String}
    {o : Outcome} (h : (Command.read args).map (run fs env) = .ok o) :
    (o.exitCode = Outcome.noReport → o.output = "" ∧ o.files = fs) ∧
    ∃ c, Command.read args = .ok c ∧ (o.exitCode = Outcome.noReport ↔ Hindered fs c) := by
  obtain ⟨c, hc, rfl⟩ := map_eq_ok_iff.mp h
  refine ⟨fun hcode => ?_, c, hc, hindered_of_noReport, fun hbad => hbad.leavesNothing.exitCode⟩
  have hnothing : (run fs env c).LeavesNothing fs := (hindered_of_noReport hcode).leavesNothing
  exact ⟨hnothing.output, hnothing.files⟩

/-- A directory `in` with one entry, in the folder `a`. -/
def oneEntry : FileSystem where
  nodes :=
    [(["w"], .directory), (["w", "in"], .directory), (["w", "in", "a"], .directory),
      (["w", "in", "a", "b.json"], .file [123, 125] ⟨0, 0⟩)]
  workingDirectory := ["w"]

/-- What is to be selected is a folder. -/
theorem nothing_of_selected_folder :
    ∃ o, (Command.read ["in", "--select", "a"]).map (run oneEntry ⟨false, ⟨0, 0⟩⟩) = .ok o ∧
      o.exitCode = Outcome.noReport ∧ o.output = "" ∧ o.files = oneEntry := by
  have haccepted : (Command.read ["in", "--select", "a"]).map (run oneEntry ⟨false, ⟨0, 0⟩⟩) =
    .ok (run oneEntry ⟨false, ⟨0, 0⟩⟩
      (.report { path := some "in", select := some "a" })) := rfl
  have hcode : (run oneEntry ⟨false, ⟨0, 0⟩⟩
      (.report { path := some "in", select := some "a" })).exitCode = Outcome.noReport := by
    decide +kernel
  exact ⟨_, haccepted, hcode,
    (failed_run_leaves_nothing oneEntry ⟨false, ⟨0, 0⟩⟩ haccepted).1 hcode⟩

end EntryReport.CommandLine
