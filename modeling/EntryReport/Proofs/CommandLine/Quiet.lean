import EntryReport.Proofs.CommandLine.Failing

/-!
# Reports that are made quietly

Who wants it quiet is told neither what is left out nor where the page was written. What is still
told is the error that a run ends with, and no more than one (`tellsErrorOnly_of_quiet`).

One warning is not held back: that there are no entries. A report `FindsNothing` if its entries can
be read and there are none; then this warning is all that is told (`messages_of_findsNothing`).

* `quiet_tells_errors_only`: what is told of a report that is made from arguments;
* `warned_though_quiet`: the warning that is told all the same.
-/

namespace EntryReport.CommandLine

open Files (FileSystem)

variable {fs : FileSystem} {env : Surroundings} {r : Request} {path : String} {config : Config}
  {loaded : Loaded}

/-- The entries at the path can be read, and there are none. -/
def Request.FindsNothing (r : Request) (fs : FileSystem) : Prop :=
  ∃ path config loaded, r.path = some path ∧ r.Gathers fs path config loaded ∧ loaded.entries = []

/-- Nothing is told if there is a report, and otherwise the error only that the run ends with. -/
def Outcome.TellsErrorOnly (o : Outcome) : Prop :=
  (o.exitCode ≠ Outcome.noReport ∧ o.messages = []) ∨
    (o.exitCode = Outcome.noReport ∧ ∃ err : Failure, o.messages = [⟨.error, err.message⟩])

theorem tellsErrorOnly_failed (fs : FileSystem) (err : Failure) :
    (Outcome.failed fs [] err).TellsErrorOnly :=
  Or.inr ⟨rfl, err, rfl⟩

/-! ## What is held back -/

theorem Request.unlessQuiet_of_quiet (hquiet : r.isSet .quiet = true) (messages : List Message) :
    r.unlessQuiet messages = [] :=
  if_pos hquiet

theorem Request.warnings_of_quiet (hquiet : r.isSet .quiet = true) (skipped : List Skipped) :
    r.warnings skipped = [] :=
  Request.unlessQuiet_of_quiet hquiet _

/-- Nothing is told about the page. -/
theorem Request.notes_of_quiet (hquiet : r.isSet .quiet = true) {now : Timestamp} {title : String}
    {v : View} {files : FileSystem} {notes : List Message}
    (h : r.writePage fs now title v = .ok (files, notes)) : notes = [] := by
  unfold Request.writePage at h
  split at h
  · cases h
    rfl
  · split at h
    · cases h
      exact Request.unlessQuiet_of_quiet hquiet _
    · cases h

/-! ## What is told -/

theorem reportOn_tellsErrorOnly (hquiet : r.isSet .quiet = true) :
    (reportOn fs env r config loaded).TellsErrorOnly := by
  unfold reportOn
  rcases Tree.build config.rootText loaded.entries with ⟨t, skipped⟩
  simp only [Request.warnings_of_quiet hquiet]
  split
  · exact tellsErrorOnly_failed fs _
  · split
    · exact tellsErrorOnly_failed fs _
    · next files notes hpage =>
      refine Or.inl ⟨?_, Request.notes_of_quiet hquiet hpage⟩
      show exitCode config _ ≠ Outcome.noReport
      unfold exitCode
      split <;> decide

/-- **A quiet report tells its error only**, unless it finds nothing. -/
theorem tellsErrorOnly_of_quiet (hquiet : r.isSet .quiet = true) (hfound : ¬ r.FindsNothing fs) :
    (run fs env (.report r)).TellsErrorOnly := by
  cases hp : r.path with
  | none =>
    simp only [run, hp]
    exact tellsErrorOnly_failed fs _
  | some path =>
    rw [run_report hp]
    cases hs : r.settings fs path with
    | error err =>
      rw [report_of_settings_error hs]
      exact tellsErrorOnly_failed fs err
    | ok settings =>
      obtain ⟨config, ignore⟩ := settings
      cases hl : Loaded.load fs path ignore with
      | error err =>
        rw [report_of_load_error hs hl]
        exact tellsErrorOnly_failed fs err
      | ok loaded =>
        have hgathers : r.Gathers fs path config loaded := ⟨ignore, hs, hl⟩
        have hentries : ¬ loaded.entries.isEmpty = true := fun hnone =>
          hfound ⟨path, config, loaded, hp, hgathers, List.isEmpty_iff.mp hnone⟩
        rw [report_of_gathers hgathers, if_neg hentries]
        exact reportOn_tellsErrorOnly hquiet

/-- What a quiet report tells that finds nothing. -/
theorem messages_of_findsNothing (hquiet : r.isSet .quiet = true) (hp : r.path = some path)
    (hnothing : r.FindsNothing fs) :
    (run fs env (.report r)).exitCode = Outcome.noReport ∧
      (run fs env (.report r)).messages = [⟨.warning, "No entries found in " ++ path⟩] := by
  obtain ⟨path', config, loaded, hp', hgathers, hnone⟩ := hnothing
  obtain rfl : path = path' := Option.some.inj (hp.symm.trans hp')
  rw [run_report hp, report_of_gathers hgathers, if_pos (List.isEmpty_iff.mpr hnone),
    Request.warnings_of_quiet hquiet]
  exact ⟨rfl, rfl⟩

/-- **What is told quietly.** A report that is accepted and finds entries to report on tells no
information and no warning: there is nothing to read, or the one line of the error that the run ends
with. One that finds nothing warns of that, and of nothing else. -/
theorem quiet_tells_errors_only (fs : FileSystem) (env : Surroundings) {args : List String}
    (hread : Command.read args = .ok (.report r)) (hquiet : r.isSet .quiet = true) {o : Outcome}
    (ho : (Command.read args).map (run fs env) = .ok o) :
    ((∀ m ∈ o.messages, m.severity = .error) ↔ ¬ r.FindsNothing fs) ∧
    (¬ r.FindsNothing fs →
      (o.exitCode ≠ Outcome.noReport ∧ ∀ colors, o.messageText colors = "") ∨
      (o.exitCode = Outcome.noReport ∧ ∃ err : Failure, ∀ colors,
        o.messageText colors = Console.linesText colors [Message.line ⟨.error, err.message⟩])) ∧
    (∀ path, r.path = some path → r.FindsNothing fs →
      o.messages = [⟨.warning, "No entries found in " ++ path⟩]) := by
  rw [hread] at ho
  obtain rfl : run fs env (.report r) = o := Except.ok.inj ho
  have htold : ¬ r.FindsNothing fs → (run fs env (.report r)).TellsErrorOnly :=
    tellsErrorOnly_of_quiet hquiet
  refine ⟨⟨fun herrors hnothing => ?_, fun hfound m hm => ?_⟩, fun hfound => ?_,
    fun path hp hnothing => (messages_of_findsNothing hquiet hp hnothing).2⟩
  · obtain ⟨path, _, _, hp, -, -⟩ := id hnothing
    rw [(messages_of_findsNothing hquiet hp hnothing).2] at herrors
    have hwarning : Severity.warning = Severity.error := herrors _ List.mem_cons_self
    cases hwarning
  · rcases htold hfound with ⟨-, hnone⟩ | ⟨-, err, herr⟩
    · rw [hnone] at hm
      exact absurd hm List.not_mem_nil
    · rw [herr] at hm
      rw [List.mem_singleton.mp hm]
  · rcases htold hfound with ⟨hcode, hnone⟩ | ⟨hcode, err, herr⟩
    · refine Or.inl ⟨hcode, fun colors => ?_⟩
      rw [Outcome.messageText, hnone]
      rfl
    · refine Or.inr ⟨hcode, err, fun colors => ?_⟩
      rw [Outcome.messageText, herr]
      rfl

/-- A manifest with an entry, and with another one that has no room below it. -/
def crowdedText : String :=
  "\x7b\"entries\":[\x7b\"name\":\"a\"\x7d,\x7b\"name\":\"a/b\"\x7d]\x7d"

/-- A directory with that manifest. -/
def crowded : FileSystem where
  nodes :=
    [(["w"], .directory), (["w", "m.json"], .file crowdedText.toUTF8.data.toList ⟨0, 0⟩)]
  workingDirectory := ["w"]

/-- A page of it is asked for, quietly. -/
def quietPage : Request :=
  { path := some "m.json", html := some "p.html", switches := [.quiet] }

/-- Nothing is told of an entry that is left out, nor of the page that is written. -/
theorem nothing_told_of_crowded :
    ∃ o, (Command.read ["m.json", "--html", "p.html", "-q"]).map (run crowded ⟨false, ⟨0, 0⟩⟩) =
        .ok o ∧
      o.exitCode = Outcome.success ∧ o.messageText false = "" := by
  have hread : Command.read ["m.json", "--html", "p.html", "-q"] = .ok (.report quietPage) := rfl
  have hcode : (run crowded ⟨false, ⟨0, 0⟩⟩ (.report quietPage)).exitCode = Outcome.success := by
    decide +kernel
  have ho : (Command.read ["m.json", "--html", "p.html", "-q"]).map (run crowded ⟨false, ⟨0, 0⟩⟩) =
      .ok (run crowded ⟨false, ⟨0, 0⟩⟩ (.report quietPage)) := by
    rw [hread]
    rfl
  have hfound : ¬ quietPage.FindsNothing crowded := fun hnothing =>
    absurd (hcode.symm.trans (messages_of_findsNothing rfl rfl hnothing).1) (by decide)
  obtain ⟨-, htold, -⟩ := quiet_tells_errors_only crowded ⟨false, ⟨0, 0⟩⟩ hread rfl ho
  rcases htold hfound with ⟨-, hnone⟩ | ⟨hnoReport, -⟩
  · exact ⟨_, ho, hcode, hnone false⟩
  · exact absurd (hcode.symm.trans hnoReport) (by decide)

/-- A directory without entry files. -/
def withoutEntries : FileSystem where
  nodes := [(["w"], .directory), (["w", "in"], .directory)]
  workingDirectory := ["w"]

/-- **The warning that there are no entries** is not held back. -/
theorem warned_though_quiet :
    ∃ o, (Command.read ["in", "--quiet"]).map (run withoutEntries ⟨false, ⟨0, 0⟩⟩) = .ok o ∧
      o.messages = [⟨.warning, "No entries found in in"⟩] ∧
      o.messageText false = "Warning: No entries found in in\n" := by
  refine ⟨_, rfl, ?_, ?_⟩ <;> decide +kernel

end EntryReport.CommandLine
