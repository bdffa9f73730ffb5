import EntryReport.Proofs.CommandLine.Failing
import EntryReport.Proofs.CommandLine.Incidental
import EntryReport.Proofs.Panel.Warnings
import EntryReport.Proofs.Tree.Finding
import EntryReport.Proofs.View.Counts

/-!
# What decides the exit code

A report that is written ends with the exit code for errors if it is to fail on them, by a switch or
by its configuration, and one of the entries that have become items has an error. What is shown of
the report does not matter: the errors are counted over all items of the tree, those that the
criteria hide among them.

* `exitCode_of_report`: the exit code by the entries of the report;
* `Request.Variant.exitCode_eq`: variants of a report end with the same exit code;
* `errors_decide_exit_code`: both for the arguments that a report is read from.

The exit codes of akin arguments that are accepted need not be the same where one of the two lists
asks for a report and the other one for something else (`command_name_decides`).
-/

namespace EntryReport

/-- The entry has an error, and it is not an empty one. -/
def Entry.HasError (e : Entry) : Prop := ∃ err, e.error = some err ∧ err ≠ ""

namespace Tree

variable {t : Tree} {root : String} {es : List Entry}

/-- An item has the tags of an entry. -/
theorem Holds.exists_entry_of_item (h : t.Holds root es) {id : Nat} {n : Node}
    (hn : t.node? id = some n) (hi : n.isItem = true) : ∃ e ∈ es, e.panel.tags = n.tags := by
  obtain ⟨d, hd, -, htags⟩ := h.settled.panel_of_item (bare?_of_node? hn)
    ((isItem_of_node? hn).trans hi)
  rw [h.panels] at hd
  obtain ⟨e, he, rfl⟩ := List.mem_map.mp hd
  exact ⟨e, he, by rw [htags, Node.tags_bare]⟩

/-- An entry is an item with its tags. -/
theorem Holds.exists_item_of_entry (h : t.Holds root es) {e : Entry} (he : e ∈ es) :
    ∃ id n, t.node? id = some n ∧ n.isItem = true ∧ n.tags = e.panel.tags := by
  have hd : e.panel ∈ t.panels.toList := by
    rw [h.panels]
    exact List.mem_map_of_mem he
  obtain ⟨i, hi⟩ := List.mem_iff_getElem?.mp hd
  obtain ⟨id, m, tags, hm, hk, -⟩ := h.settled.item_of_panel hi
  obtain ⟨d, hd', -, -, htags⟩ := h.settled.described.panel hm hk
  rw [← Array.getElem?_toList, hi, Option.some.injEq] at hd'
  obtain ⟨n, hn, rfl⟩ := node?_of_bare? hm
  refine ⟨id, n, hn, ?_, ?_⟩
  · rw [← Node.isItem_bare]
    simp [Node.isItem, Node.isFolder, hk]
  · rw [← Node.tags_bare, Node.tags, hk, ← htags, ← hd']

/-- **An item with an error** is an entry with one. -/
theorem Holds.exists_error_iff (h : t.Holds root es) :
    (∃ id n, t.node? id = some n ∧ n.isItem = true ∧ n.tags.hasError = true) ↔
      ∃ e ∈ es, e.HasError := by
  have herror : ∀ e : Entry, e.panel.tags.hasError = true ↔ e.HasError := fun _ =>
    Panel.isSome_nonempty_iff
  constructor
  · rintro ⟨id, n, hn, hi, herr⟩
    obtain ⟨e, he, htags⟩ := h.exists_entry_of_item hn hi
    exact ⟨e, he, (herror e).mp (by rw [htags, herr])⟩
  · rintro ⟨e, he, herr⟩
    obtain ⟨id, n, hn, hi, htags⟩ := h.exists_item_of_entry he
    exact ⟨id, n, hn, hi, by rw [htags, (herror e).mpr herr]⟩

end Tree

namespace CommandLine

open Files (FileSystem)

variable {fs : FileSystem} {env : Surroundings} {r r' : Request} {path : String} {config : Config}
  {ignore : IgnoreSet} {loaded : Loaded} {es : List Entry}

/-! ## Reports that are written -/

/-- The report is on these entries, the ones that have become items, by this configuration. -/
def Request.Covers (r : Request) (fs : FileSystem) (config : Config) (es : List Entry) : Prop :=
  ∃ path ignore loaded, r.path = some path ∧
    Config.load fs (workDirectory fs path) r.config = .ok config ∧
    IgnoreSet.ofPatterns config.ignore = .ok ignore ∧ Loaded.load fs path ignore = .ok loaded ∧
    es = (Tree.new config.rootText).taken loaded.entries

theorem Request.Covers.unique {config' : Config} {es' : List Entry} (h : r.Covers fs config es)
    (h' : r.Covers fs config' es') : config = config' ∧ es = es' := by
  obtain ⟨path, ignore, loaded, hp, hload, hset, hl, rfl⟩ := h
  obtain ⟨path', ignore', loaded', hp', hload', hset', hl', rfl⟩ := h'
  obtain rfl := Option.some.inj (hp.symm.trans hp')
  obtain rfl := Except.ok.inj (hload.symm.trans hload')
  obtain rfl := Except.ok.inj (hset.symm.trans hset')
  obtain rfl := Except.ok.inj (hl.symm.trans hl')
  exact ⟨rfl, rfl⟩

/-- The report fails on errors: the switch is set, or it is configured so. -/
def Request.FailsOnErrors (r : Request) (config : Config) : Prop :=
  r.isSet .failOnError = true ∨ config.failOnError = some true

/-- The exit code is the one for errors if the report fails on them and an entry has one, and is
otherwise the one for success. -/
structure Request.Judged (r : Request) (config : Config) (es : List Entry) (code : Nat) : Prop where
  errors : code = Outcome.errorsFound ↔ r.FailsOnErrors config ∧ ∃ e ∈ es, e.HasError
  success : code ≠ Outcome.errorsFound → code = Outcome.success

theorem Request.Judged.unique {code code' : Nat} (h : r.Judged config es code)
    (h' : r'.Judged config es code') (hf : r'.FailsOnErrors config ↔ r.FailsOnErrors config) :
    code' = code := by
  have herrors : code' = Outcome.errorsFound ↔ code = Outcome.errorsFound := by
    rw [h.errors, h'.errors, hf]
  by_cases hcode : code = Outcome.errorsFound
  · rw [hcode, herrors.mpr hcode]
  · rw [h.success hcode, h'.success (mt herrors.mp hcode)]

theorem failOnError_withFlags (expandAll failOnError : Bool) :
    (config.withFlags expandAll failOnError).failOnError.getD false = true ↔
      failOnError = true ∨ config.failOnError = some true := by
  unfold Config.withFlags
  cases failOnError <;> cases config.failOnError <;> simp

/-- **The exit code of a view** of entries, whatever state the view is of. -/
theorem Request.judged_exitCode (r : Request) (config : Config) (es : List Entry) (s : UiState)
    (options : RenderOptions) (expandAll : Bool) :
    r.Judged config ((Tree.new config.rootText).taken es)
      (exitCode (config.withFlags expandAll (r.isSet .failOnError))
        (View.render (Tree.build config.rootText es).1 s options)) := by
  have hiff : ((config.withFlags expandAll (r.isSet .failOnError)).failOnError.getD false &&
      0 < (View.render (Tree.build config.rootText es).1 s options).summary.errors) = true ↔
        r.FailsOnErrors config ∧ ∃ e ∈ (Tree.new config.rootText).taken es, e.HasError := by
    rw [Bool.and_eq_true, failOnError_withFlags, decide_eq_true_eq, View.errors_pos_iff,
      (Tree.holds_build config.rootText es).exists_error_iff]
    rfl
  unfold exitCode
  constructor
  · rw [← hiff]
    split
    · next h => exact iff_of_true rfl h
    · next h => exact iff_of_false (by decide) h
  · split
    · exact fun h => absurd rfl h
    · exact fun _ => rfl

/-- **The exit code of a report** that is written. -/
theorem exitCode_of_report (h : (run fs env (.report r)).exitCode ≠ Outcome.noReport) :
    ∃ config es, r.Covers fs config es ∧
      r.Judged config es (run fs env (.report r)).exitCode := by
  obtain ⟨path, config, ignore, loaded, hp, hload, hset, hl, -, hrun⟩ := exists_gathers h
  rw [hrun] at h ⊢
  obtain ⟨s, -, -, hcode, -⟩ := exists_uiState h
  refine ⟨config, _, ⟨path, ignore, loaded, hp, hload, hset, hl, rfl⟩, ?_⟩
  rw [hcode]
  exact r.judged_exitCode config loaded.entries s _ _

/-! ## Variants of a report -/

namespace Request.Variant

theorem symm (h : r.Variant r') : r'.Variant r where
  path := h.path.symm
  html := h.html.symm
  select := h.select.symm
  expand := h.expand.symm
  config := h.config.symm
  failOnError := h.failOnError.symm

/-- Variants have the same settings, apart from the flags. -/
theorem settings (h : r.Variant r') (hs : r.settings fs path = .ok (config, ignore)) :
    ∃ config', config'.rootText = config.rootText ∧
      r'.settings fs path = .ok (config', ignore) := by
  rcases r.settings_cases fs path with ⟨err, hbad, -⟩ | ⟨config₀, ignore₀, hok, hload, hset⟩
  · rw [hs] at hbad
    cases hbad
  rw [hs, Except.ok.injEq, Prod.mk.injEq] at hok
  obtain ⟨rfl, rfl⟩ := hok
  rcases r'.settings_cases fs path with
    ⟨err, -, hbad | ⟨config₁, hload', hbad⟩⟩ | ⟨config₁, ignore₁, hok, hload', hset'⟩
  · rw [h.config, hload] at hbad
    cases hbad
  · rw [h.config, hload, Except.ok.injEq] at hload'
    rw [← hload', hset] at hbad
    cases hbad
  · rw [h.config, hload, Except.ok.injEq] at hload'
    rw [← hload', hset, Except.ok.injEq] at hset'
    rw [← hload', ← hset'] at hok
    exact ⟨config₀.withFlags (r'.isSet .expandAll) (r'.isSet .failOnError), rfl, hok⟩

/-- Variants gather the same entries. -/
theorem gathers (h : r.Variant r') (hg : r.Gathers fs path config loaded) :
    ∃ config', config'.rootText = config.rootText ∧ r'.Gathers fs path config' loaded := by
  obtain ⟨ignore, hs, hl⟩ := hg
  obtain ⟨config', hroot, hs'⟩ := h.settings hs
  exact ⟨config', hroot, ignore, hs', hl⟩

theorem covers (h : r.Variant r') (hr : r.Covers fs config es) : r'.Covers fs config es := by
  unfold Covers at hr ⊢
  rwa [h.path, h.config]

/-- **What hinders a report hinders its variants.** -/
theorem hindered (h : r.Variant r') (hr : Hindered fs (.report r)) : Hindered fs (.report r') := by
  cases hr with
  | path missing => exact .path (h.path.trans missing)
  | config given bad => exact .config (h.path.trans given) (by rw [h.config, bad])
  | patterns given found bad =>
    exact .patterns (h.path.trans given) (by rw [h.config, found]) bad
  | input given settings bad =>
    obtain ⟨config', -, hs⟩ := h.settings settings
    exact .input (h.path.trans given) hs bad
  | entries given gathers none =>
    obtain ⟨config', -, hg⟩ := h.gathers gathers
    exact .entries (h.path.trans given) hg none
  | address given gathers bad =>
    obtain ⟨config', hroot, hg⟩ := h.gathers gathers
    refine .address (h.path.trans given) hg ?_
    unfold Request.Addresses at bad ⊢
    rwa [hroot, h.expand, h.select]
  | page given gathers bad =>
    obtain ⟨config', -, hg⟩ := h.gathers gathers
    refine .page (h.path.trans given) hg ?_
    unfold LacksRoom at bad ⊢
    rwa [h.html]

/-- **Variants of a report end with the same exit code.** -/
theorem exitCode_eq (h : r.Variant r') (env' : Surroundings) :
    (run fs env' (.report r')).exitCode = (run fs env (.report r)).exitCode := by
  by_cases hcode : (run fs env (.report r)).exitCode = Outcome.noReport
  · rw [hcode, (h.hindered (hindered_of_noReport hcode)).leavesNothing.exitCode]
  have hcode' : (run fs env' (.report r')).exitCode ≠ Outcome.noReport := fun hnone =>
    hcode (h.symm.hindered (hindered_of_noReport hnone)).leavesNothing.exitCode
  obtain ⟨config, es, hcovers, hjudged⟩ := exitCode_of_report hcode
  obtain ⟨config', es', hcovers', hjudged'⟩ := exitCode_of_report hcode'
  obtain ⟨rfl, rfl⟩ := (h.covers hcovers).unique hcovers'
  exact hjudged.unique hjudged' (by unfold FailsOnErrors; rw [h.failOnError])

end Request.Variant

/-- **The exit code tells of errors, whatever is shown.** If arguments ask for a report that can be
made, its exit code is the one for errors exactly if the report is to fail on them, by the switch or
by its configuration, and one of the entries that have become items has an error. Arguments that are
akin and ask for a report as well end with the same exit code. -/
theorem errors_decide_exit_code (fs : FileSystem) (env : Surroundings) {args : List String}
    {r : Request} (h : Command.read args = .ok (.report r)) :
    ((run fs env (.report r)).exitCode ≠ Outcome.noReport → ∃ config es,
      r.Covers fs config es ∧ r.Judged config es (run fs env (.report r)).exitCode) ∧
    ∀ {args' r'} (env' : Surroundings), Akin args args' →
      Command.read args' = .ok (.report r') →
        (run fs env' (.report r')).exitCode = (run fs env (.report r)).exitCode :=
  ⟨exitCode_of_report, fun env' hakin h' => (variant_of_akin hakin h h').exitCode_eq env'⟩

/-- A directory `in` with one entry, in the folder `a`, that has the error `x`. -/
def oneError : FileSystem where
  nodes :=
    [(["w"], .directory), (["w", "in"], .directory), (["w", "in", "a"], .directory),
      (["w", "in", "a", "b.json"],
        .file [123, 34, 101, 114, 114, 111, 114, 34, 58, 34, 120, 34, 125] ⟨0, 0⟩)]
  workingDirectory := ["w"]

/-- The search finds nothing, and the item with the error is not shown. -/
theorem hidden_error_decides : ∃ r r', Command.read ["in", "--fail-on-error"] = .ok (.report r) ∧
    Command.read ["--search", "c", "in", "-q", "--fail-on-error"] = .ok (.report r') ∧
    (∃ config es, r.Covers oneError config es ∧ r.FailsOnErrors config ∧ ∃ e ∈ es, e.HasError) ∧
    (run oneError ⟨false, ⟨0, 0⟩⟩ (.report r')).output =
      "1 items, 1 warnings, 1 errors (0 shown)\n" ∧
    (run oneError ⟨false, ⟨0, 0⟩⟩ (.report r')).exitCode = Outcome.errorsFound := by
  have hread : Command.read ["in", "--fail-on-error"] =
    .ok (.report { path := some "in", switches := [.failOnError] }) := rfl
  have hread' : Command.read ["--search", "c", "in", "-q", "--fail-on-error"] = .ok (.report
    { path := some "in", switches := [.quiet, .failOnError], search := some "c" }) := rfl
  have hcode : (run oneError ⟨false, ⟨0, 0⟩⟩ (.report
    { path := some "in", switches := [.failOnError] })).exitCode = Outcome.errorsFound := by
    decide +kernel
  have hquiet : IncidentalOption [String.ofList ('-' :: ['q'])] := by
    refine .letters (by decide) fun letter hletter => ?_
    obtain rfl := List.mem_singleton.mp hletter
    exact ⟨.switch .quiet, by decide, rfl⟩
  have hakin : Akin ["in", "--fail-on-error"] ["--search", "c", "in", "-q", "--fail-on-error"] :=
    .less (.setting (s := .search) (by decide) "c") (.keep (by decide) (.less hquiet (.same _)))
  obtain ⟨hjudged, hsame⟩ := errors_decide_exit_code oneError ⟨false, ⟨0, 0⟩⟩ hread
  obtain ⟨config, es, hcovers, herrors, -⟩ := hjudged (by rw [hcode]; decide)
  exact ⟨_, _, hread, hread', ⟨config, es, hcovers, herrors.mp hcode⟩, by decide +kernel,
    (hsame _ hakin hread').trans hcode⟩

/-- A directory with the name of a command, with one entry, that has an error, and a configuration
above it by which reports fail on errors. -/
def namedInit : FileSystem where
  nodes :=
    [(["w"], .directory),
      (["w", ".treedocrc.json"],
        .file "\x7b\"failOnError\":true\x7d".toUTF8.data.toList ⟨0, 0⟩),
      (["w", "init"], .directory),
      (["w", "init", "a.json"], .file "\x7b\"error\":\"x\"\x7d".toUTF8.data.toList ⟨0, 0⟩)]
  workingDirectory := ["w"]

/-- **The name of a command** is a path behind an option, and a command where nothing stands in
front. So `--warn init` reports on the directory and ends with the exit code for errors, and `init`
finds its configuration written and ends with the one for success. -/
theorem command_name_decides : Akin ["--warn", "init"] ["init"] ∧
    ∃ r command, Command.read ["--warn", "init"] = .ok (.report r) ∧
      Command.read ["init"] = .ok command ∧
      (run namedInit ⟨false, ⟨0, 0⟩⟩ (.report r)).exitCode = Outcome.errorsFound ∧
      (run namedInit ⟨false, ⟨0, 0⟩⟩ command).exitCode = Outcome.success := by
  have hread : Command.read ["--warn", "init"] =
    .ok (.report { path := some "init", switches := [.warnings] }) := rfl
  have hread' : Command.read ["init"] = .ok (.init none) := rfl
  exact ⟨.more (.switch (s := .warnings) (by decide)) (.same _), _, _, hread, hread',
    by decide +kernel, by decide +kernel⟩

end CommandLine

end EntryReport
