import EntryReport.Proofs.CommandLine.Giving

/-!
# Options that are incidental

Some parameters of a report say what is shown of it, in which form, or how it is worked out, and
leave alone what it is about: `Parameter.incidental`. Lists of arguments are `Akin` if they differ
by options for these only. An option in front of the name of a command keeps it from being taken for
that, so that one list may ask for a report and an akin one for something else: `--warn init` is a
report on a path, and `init` is not.

* `Akin.essential_eq`: akin arguments give the same, apart from the incidental;
* `variant_of_akin`: of akin arguments that ask for reports, the reports are variants of one.
-/

namespace EntryReport.CommandLine

/-- The parameters that leave alone what a report is about. -/
def Parameter.incidental : List Parameter :=
  [.switch .warnings, .switch .errors, .setting .search, .switch .json, .switch .quiet,
    .switch .verbose, .switch .expandAll, .switch .parallel]

/-- What is given, apart from the incidental. -/
def essential (givings : List Giving) : List Giving :=
  givings.filter (·.1 ∉ Parameter.incidental)

/-- The arguments are an option for incidental parameters, with its value if it takes one. -/
inductive IncidentalOption : List String → Prop
  | switch {s : Switch} (incidental : .switch s ∈ Parameter.incidental) :
    IncidentalOption ["--" ++ s.name]
  | letters {letters : List Char} (nonempty : letters ≠ [])
    (incidental : ∀ letter ∈ letters, ∃ p ∈ Parameter.incidental, p.letter? = some letter) :
    IncidentalOption [String.ofList ('-' :: letters)]
  | setting {s : Setting} (incidental : .setting s ∈ Parameter.incidental) (value : String) :
    IncidentalOption ["--" ++ s.name, value]
  | joined {s : Setting} (incidental : .setting s ∈ Parameter.incidental) (value : String) :
    IncidentalOption ["--" ++ s.name ++ "=" ++ value]

/-- The arguments differ by options for incidental parameters. No options stand behind `--`. -/
inductive Akin : List String → List String → Prop
  | same (args : List String) : Akin args args
  | keep {argument : String} {args args' : List String} (option : argument ≠ "--")
    (akin : Akin args args') : Akin (argument :: args) (argument :: args')
  | more {option args args' : List String} (incidental : IncidentalOption option)
    (akin : Akin args args') : Akin (option ++ args) args'
  | less {option args args' : List String} (incidental : IncidentalOption option)
    (akin : Akin args args') : Akin args (option ++ args')

/-- The requests are for one report, and differ by what is incidental. -/
structure Request.Variant (r r' : Request) : Prop where
  path : r'.path = r.path
  html : r'.html = r.html
  select : r'.select = r.select
  expand : r'.expand = r.expand
  config : r'.config = r.config
  failOnError : r'.isSet .failOnError = r.isSet .failOnError

variable {givings givings' more : List Giving} {p : Parameter} {q : Option Parameter}
  {args args' option rest : List String} {argument : String} {r r' : Request}

/-! ## What is essential -/

theorem essential_append : essential (givings ++ more) = essential givings ++ essential more :=
  List.filter_append ..

theorem essential_cons {giving : Giving} (h : giving.1 ∈ Parameter.incidental) :
    essential (giving :: more) = essential more :=
  List.filter_cons_of_neg (by simpa using h)

theorem essential_eq_nil (h : ∀ giving ∈ givings, giving.1 ∈ Parameter.incidental) :
    essential givings = [] :=
  List.filter_eq_nil_iff.mpr fun giving hg => by simpa using h giving hg

theorem valuesOf_essential (h : p ∉ Parameter.incidental) :
    valuesOf p (essential givings) = valuesOf p givings :=
  valuesOf_filter (· ∉ Parameter.incidental) (decide_eq_true h)

theorem any_essential (h : p ∉ Parameter.incidental) :
    (essential givings).any (·.1 = p) = givings.any (·.1 = p) :=
  any_filter (· ∉ Parameter.incidental) (decide_eq_true h)

/-- **The report is made of what is essential.** -/
theorem Request.variant_of_givings {g g' : Given} (h : Given.putAll [] givings = .ok g)
    (h' : Given.putAll [] givings' = .ok g') (he : essential givings = essential givings') :
    g.request.Variant g'.request := by
  have hvalues : ∀ p ∉ Parameter.incidental, g'.values p = g.values p := fun p hp => by
    rw [Given.values_putAll h, Given.values_putAll h', ← valuesOf_essential hp, ← he,
      valuesOf_essential hp]
  constructor
  case path => exact congrArg List.head? (hvalues .path (by decide))
  case html => exact congrArg List.head? (hvalues (.setting .html) (by decide))
  case select => exact congrArg List.head? (hvalues (.setting .select) (by decide))
  case expand => exact hvalues (.setting .expand) (by decide)
  case config => exact congrArg List.head? (hvalues (.setting .config) (by decide))
  case failOnError =>
    have hp : .switch .failOnError ∉ Parameter.incidental := by decide
    rw [Given.isSet_request, Given.isSet_request, Given.has_putAll h, Given.has_putAll h',
      ← any_essential hp, ← he, any_essential hp]

/-! ## Arguments that are akin -/

theorem ofArgument_eq_noMoreOptions (h : Word.ofArgument argument = .noMoreOptions) :
    argument = "--" := by
  unfold Word.ofArgument at h
  split at h
  · next hchars => exact String.toList_inj.mp hchars
  · split at h <;> cases h
  · cases h
  · cases h

/-- The letter of an incidental parameter is known as its letter, and not taken for a dash. -/
theorem optionOf?_incidental {letter : Char}
    (h : ∃ p ∈ Parameter.incidental, p.letter? = some letter) :
    letter ≠ '-' ∧ ∃ p ∈ Parameter.incidental, Scope.report.optionOf? letter = some p := by
  obtain ⟨p, hp, hletter⟩ := h
  simp only [Parameter.incidental, List.mem_cons, List.not_mem_nil, or_false] at hp
  rcases hp with rfl | rfl | rfl | rfl | rfl | rfl | rfl | rfl
  all_goals cases hletter
  all_goals exact ⟨by decide, _, by decide, rfl⟩

theorem mapM_incidental {letters : List Char} {ps : List Parameter}
    (h : ∀ letter ∈ letters, ∃ p ∈ Parameter.incidental, p.letter? = some letter)
    (hps : letters.mapM Scope.report.optionOf? = some ps) : ∀ p ∈ ps, p ∈ Parameter.incidental := by
  induction letters generalizing ps with
  | nil =>
    cases hps
    exact fun p hp => absurd hp List.not_mem_nil
  | cons letter letters ih =>
    obtain ⟨-, p, hp, hoption⟩ := optionOf?_incidental (h letter List.mem_cons_self)
    simp only [List.mapM_cons, bind, pure, hoption, Option.bind_some, Option.bind_eq_some_iff,
      Option.some.injEq] at hps
    obtain ⟨ps', hps', rfl⟩ := hps
    exact List.forall_mem_cons.mpr
      ⟨hp, ih (fun letter hl => h letter (List.mem_cons_of_mem _ hl)) hps'⟩

theorem ofArgument_switch (s : Switch) :
    Word.ofArgument ("--" ++ s.name) = .option s.name none := by
  cases s <;> rfl

theorem ofArgument_setting (s : Setting) :
    Word.ofArgument ("--" ++ s.name) = .option s.name none := by
  cases s <;> rfl

theorem ofArgument_joined (s : Setting) (value : String) :
    Word.ofArgument ("--" ++ s.name ++ "=" ++ value) = .option s.name (some value) := by
  unfold Word.ofArgument
  cases s <;> simp [Setting.name]

theorem ofArgument_letters {letters : List Char} (hne : letters ≠ []) (h : '-' ∉ letters) :
    Word.ofArgument (String.ofList ('-' :: letters)) = .letters letters := by
  obtain ⟨letter, letters, rfl⟩ := List.exists_cons_of_ne_nil hne
  have hdash : letter ≠ '-' := fun heq => h (heq ▸ List.mem_cons_self)
  unfold Word.ofArgument
  rw [String.toList_ofList]
  split
  · next heq => simp_all
  · next heq => simp_all
  · next heq =>
    cases heq
    rfl
  · next hother => exact absurd rfl (hother _ _)

theorem option?_switch (s : Switch) : Scope.report.option? s.name = some (.switch s) := by
  cases s <;> rfl

theorem option?_setting {s : Setting} (h : .setting s ∈ Parameter.incidental) :
    Scope.report.option? s.name = some (.setting s) := by
  cases s <;> first | rfl | exact absurd h (by decide)

/-- A value that is waited for is plain. -/
theorem gives_waiting {word : Word} {given : List Giving} {w : Option Parameter}
    (h : Scope.report.gives (some p) word = some (given, w)) :
    ∃ text, word = .plain text ∧ given = [(p, some text)] ∧ w = none := by
  cases word with
  | plain text =>
    cases h
    exact ⟨text, rfl, rfl, rfl⟩
  | noMoreOptions => cases h
  | option name value => cases h
  | letters letters => cases h

theorem givings_waiting (h : Scope.report.givings (some p) (argument :: rest) = some givings) :
    ∃ text more, Scope.report.givings none rest = some more ∧ (p, text) :: more = givings := by
  have hne : Word.ofArgument argument ≠ .noMoreOptions := by
    intro hword
    rw [Scope.givings, hword] at h
    cases h
  obtain ⟨given, w, more, hgives, hmore, rfl⟩ := (Scope.givings_cons_eq_some_iff hne).mp h
  obtain ⟨text, -, rfl, rfl⟩ := gives_waiting hgives
  exact ⟨some text, more, hmore, rfl⟩

/-- Nothing waits for its value when an option comes. -/
theorem givings_option {word : Word} (hword : Word.ofArgument argument = word)
    (hne : word ≠ .noMoreOptions) (hplain : ∀ text, word ≠ .plain text)
    (h : Scope.report.givings q (argument :: rest) = some givings) :
    q = none ∧ ∃ given w more, Scope.report.gives none word = some (given, w) ∧
      Scope.report.givings w rest = some more ∧ given ++ more = givings := by
  subst hword
  obtain ⟨given, w, more, hgives, hmore, rfl⟩ := (Scope.givings_cons_eq_some_iff hne).mp h
  cases q with
  | none => exact ⟨rfl, given, w, more, hgives, hmore, rfl⟩
  | some p =>
    obtain ⟨text, hword, -⟩ := gives_waiting hgives
    exact absurd hword (hplain text)

/-- **An incidental option** stands where nothing waits, and gives nothing that is essential. -/
theorem IncidentalOption.essential_eq (h : IncidentalOption option)
    (hg : Scope.report.givings q (option ++ rest) = some givings) : q = none ∧
      ∃ more, Scope.report.givings none rest = some more ∧ essential givings = essential more := by
  cases h with
  | @switch s incidental =>
    obtain ⟨rfl, given, w, more, hgives, hmore, rfl⟩ :=
      givings_option (ofArgument_switch s) (by simp) (by simp) hg
    simp only [Scope.gives, option?_switch] at hgives
    cases hgives
    exact ⟨rfl, more, hmore, essential_cons incidental⟩
  | @letters letters nonempty incidental =>
    have hdash : '-' ∉ letters := fun hmem => (optionOf?_incidental (incidental _ hmem)).1 rfl
    obtain ⟨rfl, given, w, more, hgives, hmore, rfl⟩ :=
      givings_option (ofArgument_letters nonempty hdash) (by simp) (by simp) hg
    obtain ⟨ps, hps, hgiven⟩ := Option.bind_eq_some_iff.mp hgives
    cases hgiven
    have hnone : essential (ps.map (·, none)) = [] := essential_eq_nil fun giving hmem => by
      obtain ⟨p, hp, rfl⟩ := List.mem_map.mp hmem
      exact mapM_incidental incidental hps p hp
    exact ⟨rfl, more, hmore, by rw [essential_append, hnone, List.nil_append]⟩
  | @setting s incidental value =>
    obtain ⟨rfl, given, w, more, hgives, hmore, rfl⟩ :=
      givings_option (ofArgument_setting s) (by simp) (by simp) hg
    simp only [Scope.gives, option?_setting incidental] at hgives
    cases hgives
    obtain ⟨text, more, hrest, rfl⟩ := givings_waiting hmore
    exact ⟨rfl, more, hrest, essential_cons incidental⟩
  | @joined s incidental value =>
    obtain ⟨rfl, given, w, more, hgives, hmore, rfl⟩ :=
      givings_option (ofArgument_joined s value) (by simp) (by simp) hg
    simp only [Scope.gives, option?_setting incidental] at hgives
    cases hgives
    exact ⟨rfl, more, hmore, essential_cons incidental⟩

/-- **Akin arguments** give the same, apart from the incidental. -/
theorem Akin.essential_eq (h : Akin args args')
    (hg : Scope.report.givings q args = some givings)
    (hg' : Scope.report.givings q args' = some givings') :
    essential givings = essential givings' := by
  induction h generalizing q givings givings' with
  | same args =>
    rw [hg] at hg'
    cases hg'
    rfl
  | keep option akin ih =>
    have hne := mt ofArgument_eq_noMoreOptions option
    obtain ⟨given, w, more, hgives, hmore, rfl⟩ := (Scope.givings_cons_eq_some_iff hne).mp hg
    obtain ⟨given', w', more', hgives', hmore', rfl⟩ :=
      (Scope.givings_cons_eq_some_iff hne).mp hg'
    rw [hgives] at hgives'
    cases hgives'
    rw [essential_append, essential_append, ih hmore hmore']
  | more incidental akin ih =>
    obtain ⟨rfl, more, hmore, heq⟩ := incidental.essential_eq hg
    rw [heq, ih hmore hg']
  | less incidental akin ih =>
    obtain ⟨rfl, more, hmore, heq⟩ := incidental.essential_eq hg'
    rw [heq, ih hg hmore]

/-- **Reports that akin arguments ask for** are variants of one. -/
theorem variant_of_akin (h : Akin args args') (hr : Command.read args = .ok (.report r))
    (hr' : Command.read args' = .ok (.report r')) : r.Variant r' := by
  obtain ⟨givings, g, hgivings, hput, rfl⟩ := request_of_read hr
  obtain ⟨givings', g', hgivings', hput', rfl⟩ := request_of_read hr'
  exact Request.variant_of_givings hput hput' (h.essential_eq hgivings hgivings')

end EntryReport.CommandLine
