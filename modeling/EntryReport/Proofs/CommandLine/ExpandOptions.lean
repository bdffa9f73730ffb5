import EntryReport.Proofs.CommandLine.Expanding

/-!
# Options for paths to be expanded

Arguments that differ by `--expand` options, where no other option waits for its value, give the
same to every parameter that may be given once only (`Reexpanded.exists_givings`). If the one list
is accepted, so is the other (`reordered_of_reexpanded`), since what can be put together depends on
these alone. An option in front of an argument that is the name of a command keeps it from being
taken for that, which is why the other list must not begin with one.

* `expanding_commutes`: the order and the number of the paths that are expanded do not matter, on a
  tree that is built and in a run that is asked for.
-/

namespace EntryReport.CommandLine

open Files (FileSystem)

/-- The arguments are an option to expand a path. -/
inductive ExpandOption (path : String) : List String → Prop
  /-- The path is an argument of its own, and not taken for an option. -/
  | apart (plain : Word.ofArgument path = .plain path) :
    ExpandOption path ["--" ++ Setting.expand.name, path]
  | joined : ExpandOption path ["--" ++ Setting.expand.name ++ "=" ++ path]

/-- The arguments differ by options to expand paths, these ones and those. They stand where no
parameter waits for its value; that one waits at the beginning is possible. -/
inductive Reexpanded : Option Parameter → (args args' paths paths' : List String) → Prop
  | same (q : Option Parameter) (args : List String) : Reexpanded q args args [] []
  | keep {q w : Option Parameter} {argument : String} {given : List Giving}
    {args args' paths paths' : List String}
    (gives : Scope.report.gives q (Word.ofArgument argument) = some (given, w))
    (rest : Reexpanded w args args' paths paths') :
    Reexpanded q (argument :: args) (argument :: args') paths paths'
  | less {path : String} {option args args' paths paths' : List String}
    (expand : ExpandOption path option) (rest : Reexpanded none args args' paths paths') :
    Reexpanded none (option ++ args) args' (path :: paths) paths'
  | more {path : String} {option args args' paths paths' : List String}
    (expand : ExpandOption path option) (rest : Reexpanded none args args' paths paths') :
    Reexpanded none args (option ++ args') paths (path :: paths')

/-- What is given to the parameters that may be given once only. -/
def onceOnly (givings : List Giving) : List Giving :=
  givings.filter (!·.1.isRepeatable)

variable {givings givings' more : List Giving} {p : Parameter} {q : Option Parameter} {g g' : Given}
  {args args' option rest paths paths' : List String} {path : String} {r r' : Request}

/-! ## What is given once only -/

theorem isRepeatable_of_ne (h : p ≠ .setting .expand) : p.isRepeatable = false :=
  decide_eq_false h

theorem mem_onceOnly {giving : Giving} (hp : giving.1 ≠ .setting .expand) :
    giving ∈ onceOnly givings ↔ giving ∈ givings := by
  unfold onceOnly
  rw [List.mem_filter, isRepeatable_of_ne hp]
  exact and_iff_left rfl

theorem onceOnly_append : onceOnly (givings ++ more) = onceOnly givings ++ onceOnly more :=
  List.filter_append ..

theorem onceOnly_cons_expand {value : Option String} :
    onceOnly ((.setting .expand, value) :: more) = onceOnly more :=
  List.filter_cons_of_neg (by simp [Parameter.isRepeatable])

theorem valuesOf_onceOnly (hp : p ≠ .setting .expand) :
    valuesOf p (onceOnly givings) = valuesOf p givings :=
  valuesOf_filter (fun p => !p.isRepeatable) (by rw [isRepeatable_of_ne hp]; rfl)

theorem any_onceOnly (hp : p ≠ .setting .expand) :
    (onceOnly givings).any (·.1 = p) = givings.any (·.1 = p) :=
  any_filter (fun p => !p.isRepeatable) (by rw [isRepeatable_of_ne hp]; rfl)

theorem unquestioning_congr (h : onceOnly givings' = onceOnly givings)
    (hquiet : Unquestioning givings) : Unquestioning givings' := by
  intro giving hg
  by_cases hp : giving.1 = .setting .expand
  · rw [hp]
    rfl
  · exact hquiet giving ((mem_onceOnly hp).mp (h ▸ (mem_onceOnly hp).mpr hg))

theorem Given.admits_congr (h : onceOnly givings' = onceOnly givings) (hg : g.Admits givings) :
    g.Admits givings' := by
  have hmem {giving : Giving} (hp : giving.1 ≠ .setting .expand) (hin : giving ∈ givings') :
      giving ∈ givings := (mem_onceOnly hp).mp (h ▸ (mem_onceOnly hp).mpr hin)
  refine ⟨fun giving hin hfile => ?_, fun giving hin honce => ?_, ?_⟩
  · refine hg.value giving (hmem ?_ hin) hfile
    rintro heq
    rw [heq] at hfile
    cases hfile
  · refine hg.new giving (hmem ?_ hin) honce
    rintro heq
    rw [heq] at honce
    cases honce
  · have honce := hg.once
    rw [List.filter_map] at honce ⊢
    exact (show (givings'.filter _).map _ = (givings.filter _).map _ from
      congrArg (List.map (·.1)) h) ▸ honce

/-- **Requests** that are given the same but for paths to be expanded. -/
theorem Request.reordered_of_onceOnly (h : Given.putAll [] givings = .ok g)
    (h' : Given.putAll [] givings' = .ok g') (honce : onceOnly givings' = onceOnly givings)
    (hexpand : ∀ path, path ∈ valuesOf (.setting .expand) givings' ↔
      path ∈ valuesOf (.setting .expand) givings) : g.request.Reordered g'.request := by
  have hvalues {p : Parameter} (hp : p ≠ .setting .expand) : g'.values p = g.values p := by
    rw [Given.values_putAll h, Given.values_putAll h', ← valuesOf_onceOnly hp, honce,
      valuesOf_onceOnly hp]
  constructor
  case path => exact congrArg List.head? (hvalues (by decide))
  case isSet =>
    intro s
    have hp : Parameter.switch s ≠ .setting .expand := by simp
    rw [Given.isSet_request, Given.isSet_request, Given.has_putAll h, Given.has_putAll h',
      ← any_onceOnly hp, honce, any_onceOnly hp]
  case html => exact congrArg List.head? (hvalues (by decide))
  case search => exact congrArg List.head? (hvalues (by decide))
  case select => exact congrArg List.head? (hvalues (by decide))
  case config => exact congrArg List.head? (hvalues (by decide))
  case expand =>
    intro path
    have hpaths : g.request.expand = valuesOf (.setting .expand) givings := Given.values_putAll h
    have hpaths' : g'.request.expand = valuesOf (.setting .expand) givings' :=
      Given.values_putAll h'
    rw [hpaths, hpaths', hexpand]

/-! ## Arguments -/

/-- **An option to expand a path** gives that path. -/
theorem ExpandOption.givings_append (h : ExpandOption path option) (rest : List String) :
    Scope.report.givings none (option ++ rest) =
      (Scope.report.givings none rest).map ((.setting .expand, some path) :: ·) := by
  have hname : Scope.report.option? Setting.expand.name = some (.setting .expand) := rfl
  cases h with
  | apart plain =>
    rw [List.cons_append, List.cons_append, List.nil_append, Scope.givings, ofArgument_setting]
    simp only [Scope.gives, hname, Option.bind_eq_bind, Option.bind_some, Parameter.valueName?,
      Scope.givings, plain]
    cases Scope.report.givings none rest <;> rfl
  | joined =>
    rw [List.cons_append, List.nil_append, Scope.givings, ofArgument_joined]
    simp only [Scope.gives, hname, Option.bind_eq_bind, Option.bind_some, Parameter.valueName?]
    cases Scope.report.givings none rest <;> rfl

/-- **Arguments that differ by paths to be expanded** give the same once only, and some paths in
common. -/
theorem Reexpanded.exists_givings (h : Reexpanded q args args' paths paths')
    (hg : Scope.report.givings q args = some givings) :
    ∃ (givings' : List Giving) (common : List String),
      Scope.report.givings q args' = some givings' ∧ onceOnly givings' = onceOnly givings ∧
      (∀ path, path ∈ valuesOf (.setting .expand) givings ↔ path ∈ paths ∨ path ∈ common) ∧
      ∀ path, path ∈ valuesOf (.setting .expand) givings' ↔ path ∈ paths' ∨ path ∈ common := by
  have hcons (path : String) (more : List Giving) :
      valuesOf (.setting .expand) ((.setting .expand, some path) :: more) =
        path :: valuesOf (.setting .expand) more := rfl
  induction h generalizing givings with
  | same q args =>
    exact ⟨givings, valuesOf (.setting .expand) givings, hg, rfl, by simp, by simp⟩
  | @keep q w argument given args args' paths paths' gives rest ih =>
    have hne : Word.ofArgument argument ≠ .noMoreOptions := by
      intro hend
      rw [hend] at gives
      cases q <;> cases gives
    obtain ⟨given, w, more, hgives, hmore, rfl⟩ := (Scope.givings_cons_eq_some_iff hne).mp hg
    rw [gives] at hgives
    cases hgives
    obtain ⟨more', common, hmore', honce, hpaths, hpaths'⟩ := ih hmore
    have happend (more : List Giving) : valuesOf (.setting .expand) (given ++ more) =
        valuesOf (.setting .expand) given ++ valuesOf (.setting .expand) more := by
      simp [valuesOf]
    refine ⟨given ++ more', valuesOf (.setting .expand) given ++ common,
      (Scope.givings_cons_eq_some_iff hne).mpr ⟨given, w, more', gives, hmore', rfl⟩, ?_, ?_, ?_⟩
    · rw [onceOnly_append, onceOnly_append, honce]
    · intro path
      rw [happend, List.mem_append, List.mem_append, hpaths]
      exact or_left_comm
    · intro path
      rw [happend, List.mem_append, List.mem_append, hpaths']
      exact or_left_comm
  | @less path option args args' paths paths' expand rest ih =>
    rw [expand.givings_append] at hg
    obtain ⟨more, hmore, rfl⟩ := Option.map_eq_some_iff.mp hg
    obtain ⟨givings', common, hgivings', honce, hpaths, hpaths'⟩ := ih hmore
    refine ⟨givings', common, hgivings', honce.trans onceOnly_cons_expand.symm, ?_, hpaths'⟩
    intro p
    rw [hcons, List.mem_cons, List.mem_cons, hpaths, or_assoc]
  | @more path option args args' paths paths' expand rest ih =>
    obtain ⟨more', common, hmore', honce, hpaths, hpaths'⟩ := ih hg
    refine ⟨(.setting .expand, some path) :: more', common, ?_,
      onceOnly_cons_expand.trans honce, hpaths, ?_⟩
    · rw [expand.givings_append, hmore']
      rfl
    · intro p
      rw [hcons, List.mem_cons, List.mem_cons, hpaths', or_assoc]

/-- **Arguments that name the same paths to be expanded** are accepted alike. -/
theorem reordered_of_reexpanded (h : Reexpanded none args args' paths paths')
    (hsame : ∀ path, path ∈ paths' ↔ path ∈ paths) (hcommand : ¬ NamesCommand args')
    (hread : Command.read args = .ok (.report r)) :
    ∃ r', Command.read args' = .ok (.report r') ∧ r.Reordered r' := by
  obtain ⟨-, givings, g, hgives, hquiet, hput, rfl⟩ := read_eq_report_iff.mp hread
  obtain ⟨givings', common, hgives', honce, hpaths, hpaths'⟩ := h.exists_givings hgives
  have hadmits : Given.Admits [] givings := Given.exists_putAll_iff.mp ⟨g, hput⟩
  obtain ⟨g', hput'⟩ : ∃ g', Given.putAll [] givings' = .ok g' :=
    Given.exists_putAll_iff.mpr (Given.admits_congr honce hadmits)
  refine ⟨g'.request, read_eq_report_iff.mpr ⟨hcommand, givings', g', hgives',
    unquestioning_congr honce hquiet, hput', rfl⟩, ?_⟩
  refine Request.reordered_of_onceOnly hput hput' honce fun path => ?_
  rw [hpaths', hpaths, hsame]

/-- **Expanding commutes.** In a tree that is built, paths that lead to nodes expand the folders
along them and leave the rest, in whatever order they come and however often, and expand nothing
where everything is expanded. And arguments that name the same paths to be expanded, in another
order or more often, are accepted if one of them are, and the runs end alike: with the same exit
code, output and files, and for the same reason if they fail. -/
theorem expanding_commutes :
    (∀ {t : Tree} {s : UiState} {paths}, t.Reachable → (∀ path ∈ paths, t.find? path ≠ none) →
      (∃ s', UiState.Expanded t s paths s' ∧
        ∀ paths', (∀ path, path ∈ paths' ↔ path ∈ paths) → expandPaths t s paths' = .ok s') ∧
      expandPaths t (s.expandAll t) paths = .ok (s.expandAll t)) ∧
    ∀ {fs env args args' r paths paths'}, Command.read args = .ok (.report r) →
      Reexpanded none args args' paths paths' → (∀ path, path ∈ paths' ↔ path ∈ paths) →
        ¬ NamesCommand args' →
          ∃ r', Command.read args' = .ok (.report r') ∧ r.SameRun r' fs env := by
  refine ⟨fun {t s paths} h hall => ?_, fun hread hargs hsame hcommand => ?_⟩
  · have hwf := h.settled.wellFormed
    obtain ⟨s', hok⟩ := (exists_expandPaths_iff (s := s) hwf).mpr hall
    exact ⟨⟨s', expanded_of_expandPaths hwf hok, fun paths' hp => expandPaths_congr hwf hp hok⟩,
      expandPaths_expandAll hwf hall⟩
  · obtain ⟨r', hread', hreordered⟩ := reordered_of_reexpanded hargs hsame hcommand hread
    exact ⟨r', hread', hreordered.sameRun _ _⟩

/-- The paths `a` and `a/b`, each in another place than before, and `a` once more. -/
theorem expanding_commutes_repeated :
    (∃ s', UiState.Expanded ((Tree.new "r").add { name := "a/b" }).1 .new ["a/b", "a"] s' ∧
      expandPaths ((Tree.new "r").add { name := "a/b" }).1 .new ["a", "a/b", "a"] = .ok s') ∧
    ∃ r r', Command.read ["--expand", "a", "in", "--expand", "a/b"] = .ok (.report r) ∧
      Command.read ["--expand=a/b", "in", "--expand", "a", "--expand=a"] = .ok (.report r') ∧
      r.SameRun r' oneEntry ⟨false, ⟨0, 0⟩⟩ ∧ ¬ r.FailsToExpand oneEntry ⟨false, ⟨0, 0⟩⟩ := by
  have hreachable := (Tree.reachable_new "r").step (.add _ { name := "a/b" })
  have hall : ∀ path ∈ ["a/b", "a"],
      ((Tree.new "r").add { name := "a/b" }).1.find? path ≠ none := by decide
  have hread : Command.read ["--expand", "a", "in", "--expand", "a/b"] =
    .ok (.report { path := some "in", expand := ["a", "a/b"] }) := rfl
  have hone : ExpandOption "a" ["--expand", "a"] := .apart rfl
  have hother : ExpandOption "a/b" ["--expand", "a/b"] := .apart rfl
  have hone' : ExpandOption "a" ["--expand=a"] := .joined
  have hother' : ExpandOption "a/b" ["--expand=a/b"] := .joined
  have hargs : Reexpanded none ["--expand", "a", "in", "--expand", "a/b"]
      ["--expand=a/b", "in", "--expand", "a", "--expand=a"] ["a", "a/b"] ["a/b", "a", "a"] :=
    .less hone (.more hother' (.keep rfl (.less hother (.more hone (.more hone' (.same none []))))))
  have hcommand : ¬ NamesCommand ["--expand=a/b", "in", "--expand", "a", "--expand=a"] := by
    rintro ⟨name, ⟨⟩, hname⟩
    exact absurd hname (by decide)
  have hsame : ∀ path, path ∈ ["a/b", "a", "a"] ↔ path ∈ ["a", "a/b"] := by
    simp [or_comm]
  obtain ⟨⟨s', hexpanded, horder⟩, -⟩ := expanding_commutes.1 (s := .new) hreachable hall
  obtain ⟨r', hread', hrun⟩ := expanding_commutes.2 hread hargs hsame hcommand
  refine ⟨⟨s', hexpanded, horder ["a", "a/b", "a"] (by simp)⟩, _, r', hread, hread', hrun, ?_⟩
  intro hfails
  have hcode : (run oneEntry ⟨false, ⟨0, 0⟩⟩
      (.report { path := some "in", expand := ["a", "a/b"] })).exitCode = Outcome.success := by
    decide +kernel
  rw [hfails.leavesNothing.exitCode] at hcode
  exact absurd hcode (by decide)

end EntryReport.CommandLine
