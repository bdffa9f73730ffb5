import EntryReport.Proofs.CommandLine.Giving

/-!
# Arguments that are accepted

Arguments ask for a report exactly if they do not begin with the name of a command, each word of
them gives something, none of it asks about the program, and all of it can be put together
(`read_eq_report_iff`). The last is so unless a parameter is repeated that must not be, or the path
of a file is empty (`Given.exists_putAll_iff`), so that the order of what is given does not matter.

* `Scope.unquestioning_of_read`: who asks for a report does not ask about the program;
* `Scope.read_of_givings`: what can be put together is accepted.
-/

namespace EntryReport.CommandLine

/-- The parameter asks about the program. -/
def Parameter.isQuestion (p : Parameter) : Bool := p = .help || p = .version

/-- Nothing of what is given asks about the program. -/
def Unquestioning (givings : List Giving) : Prop :=
  ∀ giving ∈ givings, giving.1.isQuestion = false

/-- The arguments begin with the name of a command. -/
def NamesCommand (args : List String) : Prop :=
  ∃ name ∈ args.head?, name ∈ Scope.report.commands.map (·.1)

variable {g g' : Given} {p : Parameter} {q w : Option Parameter} {value : Option String}
  {givings given : List Giving} {r r' : Reading} {request : Request} {scope : Scope}
  {name text argument : String} {letters : List Char} {args rest texts : List String}
  {word : Word} {n : Next}

/-! ## Parameters that can be put -/

namespace Given

/-- Nothing keeps the givings from being put, one after the other. -/
structure Admits (g : Given) (givings : List Giving) : Prop where
  /-- No path of a file is empty. -/
  value : ∀ giving ∈ givings, giving.1.isFilePath = true → giving.2 ≠ some ""
  /-- What is there already is not given again, unless it may be. -/
  new : ∀ giving ∈ givings, giving.1.isRepeatable = false → g.has giving.1 = false
  /-- Nothing is given twice, unless it may be. -/
  once : ((givings.map (·.1)).filter (!·.isRepeatable)).Nodup

theorem exists_put_iff : (∃ g', g.put p value = .ok g') ↔
    (p.isFilePath = true → value ≠ some "") ∧ (p.isRepeatable = false → g.has p = false) := by
  unfold put
  cases g.has p <;> cases p.isRepeatable <;> cases p.isFilePath <;>
    by_cases h : value = some "" <;> simp [h]

theorem admits_cons_iff : g.Admits ((p, value) :: givings) ↔
    ((p.isFilePath = true → value ≠ some "") ∧ (p.isRepeatable = false → g.has p = false)) ∧
      (g.add p value.toList).Admits givings := by
  constructor
  · rintro ⟨hvalue, hnew, honce⟩
    obtain ⟨hfirst, hvalue⟩ := List.forall_mem_cons.mp hvalue
    obtain ⟨hpnew, hnew⟩ := List.forall_mem_cons.mp hnew
    rw [List.map_cons] at honce
    refine ⟨⟨hfirst, hpnew⟩, hvalue, fun giving hg hr => ?_, ?_⟩
    · rw [has_add, hnew giving hg hr, Bool.false_or, decide_eq_false_iff_not]
      rintro rfl
      rw [List.filter_cons_of_pos (by simp [hr])] at honce
      refine (List.nodup_cons.mp honce).1
        (List.mem_filter.mpr ⟨List.mem_map_of_mem (f := (·.1)) hg, ?_⟩)
      simp [hr]
    · exact honce.sublist ((List.sublist_cons_self ..).filter _)
  · rintro ⟨⟨hfirst, hpnew⟩, hvalue, hnew, honce⟩
    refine ⟨List.forall_mem_cons.mpr ⟨hfirst, hvalue⟩,
      List.forall_mem_cons.mpr ⟨hpnew, fun giving hg hr => ?_⟩, ?_⟩
    · have hboth := hnew giving hg hr
      rw [has_add, Bool.or_eq_false_iff] at hboth
      exact hboth.1
    · rw [List.map_cons, List.filter_cons]
      split
      · refine List.nodup_cons.mpr ⟨fun hmem => ?_, honce⟩
        obtain ⟨hmem, hr⟩ := List.mem_filter.mp hmem
        obtain ⟨giving, hg, rfl⟩ := List.mem_map.mp hmem
        have hboth := hnew giving hg (by simpa using hr)
        rw [has_add, Bool.or_eq_false_iff] at hboth
        exact of_decide_eq_false hboth.2 rfl
      · exact honce

/-- **What can be put together** is decided without regard to the order. -/
theorem exists_putAll_iff : (∃ g', g.putAll givings = .ok g') ↔ g.Admits givings := by
  induction givings generalizing g with
  | nil => exact iff_of_true ⟨g, rfl⟩ ⟨by simp, by simp, List.nodup_nil⟩
  | cons giving givings ih =>
    obtain ⟨p, value⟩ := giving
    rw [admits_cons_iff, ← exists_put_iff, ← ih]
    constructor
    · rintro ⟨g', h⟩
      obtain ⟨g₁, hput, hall⟩ := bind_eq_ok_iff.mp h
      exact ⟨⟨g₁, hput⟩, g', eq_add_of_put hput ▸ hall⟩
    · rintro ⟨⟨g₁, hput⟩, g', hall⟩
      exact ⟨g', bind_eq_ok_iff.mpr ⟨g₁, hput, (eq_add_of_put hput).symm ▸ hall⟩⟩

end Given

/-! ## Nothing is asked about the program -/

theorem Reading.at_unique {q' : Option Parameter} (h : r.At q g) (h' : r.At q' g') :
    q' = q ∧ g' = g := by
  cases q with
  | some p =>
    rw [show r = ⟨g, some (p, none)⟩ from h] at h'
    exact at_waiting h'
  | none =>
    cases q' with
    | none => exact ⟨rfl, Except.ok.inj (Eq.trans (Eq.symm h') h)⟩
    | some p =>
      rw [show r = ⟨g', some (p, none)⟩ from h'] at h
      cases h

namespace Scope

/-- Only a plain word can be waited for. -/
theorem eq_none_of_gives (h : scope.gives q word = some (given, w))
    (hplain : ∀ text, word ≠ .plain text) : q = none := by
  cases q with
  | none => rfl
  | some p =>
    cases word with
    | plain text => exact absurd rfl (hplain text)
    | noMoreOptions => cases h
    | option name value => cases h
    | letters letters => cases h

theorem isQuestion_of_valueName? (h : p.valueName?.isSome = true) : p.isQuestion = false := by
  cases p <;> first | rfl | cases h

theorem isQuestion_of_takeSwitch (h : scope.takeSwitch r p = .ok (.go r')) :
    p.isQuestion = false := by
  obtain ⟨g, -, hn⟩ := bind_eq_ok_iff.mp h
  split at hn
  · cases hn
  · cases hn
  · next hhelp hversion =>
    simpa [Parameter.isQuestion] using ⟨fun h => hhelp h, fun h => hversion h⟩

theorem unquestioning_of_takeOption (h : scope.takeOption r name value rest = .ok (.go r'))
    (hgives : scope.gives none (.option name value) = some (given, w)) :
    Unquestioning given ∧ ∀ p ∈ w, p.isQuestion = false := by
  unfold takeOption at h
  split at h
  · cases h
  · next p hp =>
    simp only [gives, hp, Option.bind_eq_bind, Option.bind_some] at hgives
    split at h
    · next hv =>
      rw [hv] at hgives
      cases hgives
      exact ⟨List.forall_mem_singleton.mpr (isQuestion_of_takeSwitch h), by simp⟩
    · cases h
    · next hv =>
      rw [hv] at hgives
      cases hgives
      refine ⟨fun _ hg => absurd hg List.not_mem_nil, ?_⟩
      rintro _ ⟨⟩
      exact isQuestion_of_valueName? (by simp [hv])
    · next hv =>
      rw [hv] at hgives
      cases hgives
      exact ⟨List.forall_mem_singleton.mpr (isQuestion_of_valueName? (by simp [hv])), by simp⟩

theorem unquestioning_of_takeLetters {ps : List Parameter}
    (h : scope.takeLetters r letters = .ok (.go r'))
    (hps : letters.mapM scope.optionOf? = some ps) : ∀ p ∈ ps, p.isQuestion = false := by
  induction letters generalizing r ps with
  | nil =>
    cases hps
    exact fun _ hp => absurd hp List.not_mem_nil
  | cons letter letters ih =>
    simp only [List.mapM_cons, Option.bind_eq_bind, Option.bind_eq_some_iff, pure,
      Option.some.injEq] at hps
    obtain ⟨p, hp, ps, hps, rfl⟩ := hps
    simp only [takeLetters, hp] at h
    obtain ⟨next, hnext, h⟩ := bind_eq_ok_iff.mp h
    split at h
    · exact List.forall_mem_cons.mpr ⟨isQuestion_of_takeSwitch hnext, ih h hps⟩
    · cases h

/-- After a word of arguments that ask for a report, the reading has come to what the word says. -/
theorem Comes.at_of_read (h : scope.Comes r word (.go r')) (hat : r.At q g)
    (hgives : scope.gives q word = some (given, w))
    (hread : scope.read r' rest = .ok (.report request)) : ∃ g', r'.At w g' := by
  cases h with
  | go before gives after =>
    obtain ⟨rfl, rfl⟩ := Reading.at_unique hat before
    rw [hgives] at gives
    cases gives
    generalize hc : Command.report request = c at hread
    cases yields_of_read hread with
    | help => cases hc
    | version => cases hc
    | command hat' =>
      obtain ⟨rfl, -⟩ := after hat'
      exact ⟨_, hat'⟩

/-- **Who asks for a report** does not ask about the program. -/
theorem unquestioning_of_read (hat : r.At q g) (hq : ∀ p ∈ q, p.isQuestion = false)
    (hgives : scope.givings q args = some givings)
    (h : scope.read r args = .ok (.report request)) : Unquestioning givings := by
  induction args generalizing r q g givings with
  | nil =>
    cases q with
    | none =>
      cases hgives
      exact fun _ hg => absurd hg List.not_mem_nil
    | some p => cases hgives
  | cons argument rest ih =>
    by_cases hend : Word.ofArgument argument = .noMoreOptions
    · rw [Scope.givings, hend] at hgives
      obtain ⟨-, hgives⟩ := Option.ite_none_right_eq_some.mp hgives
      cases hgives
      intro giving hg
      obtain ⟨text, -, rfl⟩ := List.mem_map.mp hg
      rfl
    obtain ⟨given, w, more, hword, hmore, rfl⟩ := (givings_cons_eq_some_iff hend).mp hgives
    -- it remains to show that the word asks nothing, and what is read after it
    suffices hstep : ∃ r' g', Unquestioning given ∧ (∀ p ∈ w, p.isQuestion = false) ∧
        r'.At w g' ∧ scope.read r' rest = .ok (.report request) by
      obtain ⟨r', g', hgiven, hw, hat', hrest⟩ := hstep
      exact List.forall_mem_append.mpr ⟨hgiven, ih hat' hw hmore hrest⟩
    rw [read] at h
    split at h
    case h_1 hno => exact absurd hno hend
    case h_2 text hplain =>
      obtain ⟨r', htake, hrest⟩ := bind_eq_ok_iff.mp h
      rw [hplain] at hword
      obtain ⟨g', hat'⟩ := (comes_of_takePlain htake).at_of_read hat hword hrest
      suffices hquiet : Unquestioning given ∧ ∀ p ∈ w, p.isQuestion = false from
        ⟨r', g', hquiet.1, hquiet.2, hat', hrest⟩
      cases q with
      | none =>
        cases hword
        exact ⟨fun giving hg => List.mem_singleton.mp hg ▸ rfl, by simp⟩
      | some p =>
        cases hword
        exact ⟨fun giving hg => List.mem_singleton.mp hg ▸ hq p rfl, by simp⟩
    case h_3 name value hoption =>
      obtain ⟨n, htake, hrest⟩ := bind_eq_ok_iff.mp h
      rw [hoption] at hword
      obtain rfl := eq_none_of_gives hword (by simp)
      cases n with
      | stop c =>
        cases hrest
        cases comes_of_takeOption htake
      | go r' =>
        obtain ⟨g', hat'⟩ := (comes_of_takeOption htake).at_of_read hat hword hrest
        obtain ⟨hgiven, hw⟩ := unquestioning_of_takeOption htake hword
        exact ⟨r', g', hgiven, hw, hat', hrest⟩
    case h_4 letters hletters =>
      obtain ⟨n, htake, hrest⟩ := bind_eq_ok_iff.mp h
      rw [hletters] at hword
      obtain rfl := eq_none_of_gives hword (by simp)
      have hne : letters ≠ [] := by
        rintro rfl
        exact ofArgument_ne_letters_nil hletters
      cases n with
      | stop c =>
        cases hrest
        cases comes_of_takeLetters hne htake
      | go r' =>
        obtain ⟨g', hat'⟩ := (comes_of_takeLetters hne htake).at_of_read hat hword hrest
        obtain ⟨ps, hps, hgiven⟩ := Option.bind_eq_some_iff.mp hword
        cases hgiven
        refine ⟨r', g', fun giving hg => ?_, by simp, hat', hrest⟩
        obtain ⟨p, hp, rfl⟩ := List.mem_map.mp hg
        exact unquestioning_of_takeLetters htake hps p hp

/-! ## What can be put is accepted -/

theorem takeSwitch_of_put (hr : r.settle = .ok g) (hp : p.isQuestion = false)
    (hput : g.put p none = .ok g') : scope.takeSwitch r p = .ok (.go ⟨g', none⟩) := by
  unfold takeSwitch
  rw [checked_eq_ok_iff.mpr hr, ok_bind]
  split
  · cases hp
  · cases hp
  · exact bind_eq_ok_iff.mpr ⟨g', checked_eq_ok_iff.mpr hput, rfl⟩

theorem takePath_of_put (hscope : scope.takesPath = true) (hr : r.settle = .ok g)
    (hput : g.put .path (some text) = .ok g') :
    scope.takePath r text = .ok ⟨g, some (.path, some text)⟩ := by
  have hnone : g.has .path = false := (Given.exists_put_iff.mp ⟨g', hput⟩).2 rfl
  have hhas : r.hasPath = false := by
    obtain ⟨given, waiting⟩ := r
    unfold Reading.hasPath
    match waiting, hr with
    | none, hr =>
      cases hr
      simpa using hnone
    | some (p, some value), hr =>
      rw [Given.eq_add_of_put hr, Given.has_add] at hnone
      simpa using hnone
  unfold takePath
  rw [hscope, hhas]
  exact bind_eq_ok_iff.mpr ⟨g, checked_eq_ok_iff.mpr hr, rfl⟩

theorem takePlain_of_put (hscope : scope.takesPath = true) (hat : r.At q g)
    (hgives : scope.gives q (.plain text) = some (given, w)) (hput : g.putAll given = .ok g') :
    ∃ r', scope.takePlain r text = .ok r' ∧ r'.At w g' := by
  unfold takePlain
  cases q with
  | some p =>
    cases hgives
    obtain ⟨g₁, hput, hdone⟩ := bind_eq_ok_iff.mp hput
    cases hdone
    rw [show r = ⟨g, some (p, none)⟩ from hat]
    exact ⟨_, rfl, hput⟩
  | none =>
    cases hgives
    obtain ⟨g₁, hput, hdone⟩ := bind_eq_ok_iff.mp hput
    cases hdone
    split
    · next p hwaiting =>
      have hsettle : r.settle = .ok g := hat
      rw [Reading.settle, hwaiting] at hsettle
      cases hsettle
    · exact ⟨_, takePath_of_put hscope hat hput, hput⟩

theorem takeOption_of_put (hat : r.At none g)
    (hgives : scope.gives none (.option name value) = some (given, w))
    (hquiet : Unquestioning given) (hput : g.putAll given = .ok g') :
    ∃ r', scope.takeOption r name value rest = .ok (.go r') ∧ r'.At w g' := by
  have hr : r.settle = .ok g := hat
  obtain ⟨p, hp, hgives⟩ := Option.bind_eq_some_iff.mp hgives
  unfold takeOption
  simp only [hp]
  cases hv : p.valueName? with
  | none =>
    rw [hv] at hgives
    cases value with
    | none =>
      cases hgives
      obtain ⟨g₁, hput, hdone⟩ := bind_eq_ok_iff.mp hput
      cases hdone
      exact ⟨_, takeSwitch_of_put hr (hquiet (p, none) List.mem_cons_self) hput, rfl⟩
    | some value => cases hgives
  | some label =>
    rw [hv] at hgives
    cases value with
    | none =>
      cases hgives
      cases hput
      exact ⟨_, bind_eq_ok_iff.mpr ⟨g, checked_eq_ok_iff.mpr hr, rfl⟩, rfl⟩
    | some value =>
      cases hgives
      obtain ⟨g₁, hput, hdone⟩ := bind_eq_ok_iff.mp hput
      cases hdone
      exact ⟨⟨g', none⟩, bind_eq_ok_iff.mpr ⟨g, checked_eq_ok_iff.mpr hr,
        bind_eq_ok_iff.mpr ⟨g', checked_eq_ok_iff.mpr hput, rfl⟩⟩, rfl⟩

theorem takeLetters_of_put {ps : List Parameter} (hr : r.settle = .ok g)
    (hps : letters.mapM scope.optionOf? = some ps) (hquiet : ∀ p ∈ ps, p.isQuestion = false)
    (hput : g.putAll (ps.map (·, none)) = .ok g') :
    ∃ r', scope.takeLetters r letters = .ok (.go r') ∧ r'.settle = .ok g' := by
  induction letters generalizing r g ps with
  | nil =>
    cases hps
    cases hput
    exact ⟨r, rfl, hr⟩
  | cons letter letters ih =>
    simp only [List.mapM_cons, Option.bind_eq_bind, Option.bind_eq_some_iff, pure,
      Option.some.injEq] at hps
    obtain ⟨p, hp, ps, hps, rfl⟩ := hps
    obtain ⟨hpquiet, hquiet⟩ := List.forall_mem_cons.mp hquiet
    obtain ⟨g₁, hput, hall⟩ := bind_eq_ok_iff.mp hput
    obtain ⟨r', htake, hr'⟩ := ih (r := ⟨g₁, none⟩) rfl hps hquiet hall
    refine ⟨r', ?_, hr'⟩
    simp only [takeLetters, hp]
    exact bind_eq_ok_iff.mpr ⟨_, takeSwitch_of_put hr hpquiet hput, htake⟩

theorem foldlM_takePath_of_put (hscope : scope.takesPath = true) (hr : r.settle = .ok g)
    (hput : g.putAll (texts.map fun text => (.path, some text)) = .ok g') :
    ∃ r', texts.foldlM scope.takePath r = .ok r' ∧ r'.settle = .ok g' := by
  induction texts generalizing r g with
  | nil =>
    cases hput
    exact ⟨r, rfl, hr⟩
  | cons text texts ih =>
    obtain ⟨g₁, hput, hall⟩ := bind_eq_ok_iff.mp hput
    obtain ⟨r', hfold, hr'⟩ := ih (r := ⟨g, some (.path, some text)⟩) hput hall
    exact ⟨r', bind_eq_ok_iff.mpr ⟨_, takePath_of_put hscope hr hput, hfold⟩, hr'⟩

/-- **What can be put together is accepted**, if it asks nothing about the program. -/
theorem read_of_givings (hscope : scope.takesPath = true) (hat : r.At q g)
    (hgives : scope.givings q args = some givings) (hquiet : Unquestioning givings)
    (hput : g.putAll givings = .ok g') : scope.read r args = .ok (scope.command g') := by
  induction args generalizing r q g givings with
  | nil =>
    cases q with
    | none =>
      cases hgives
      cases hput
      exact finish_eq_ok_iff.mpr ⟨g', hat, rfl⟩
    | some p => cases hgives
  | cons argument rest ih =>
    by_cases hend : Word.ofArgument argument = .noMoreOptions
    · rw [Scope.givings, hend] at hgives
      obtain ⟨hq, hgives⟩ := Option.ite_none_right_eq_some.mp hgives
      cases hgives
      obtain rfl := Option.isNone_iff_eq_none.mp hq
      obtain ⟨r', hfold, hr'⟩ := foldlM_takePath_of_put hscope hat hput
      rw [read, hend]
      exact bind_eq_ok_iff.mpr ⟨r', hfold, finish_eq_ok_iff.mpr ⟨g', hr', rfl⟩⟩
    obtain ⟨given, w, more, hword, hmore, rfl⟩ := (givings_cons_eq_some_iff hend).mp hgives
    obtain ⟨hgiven, hquiet⟩ := List.forall_mem_append.mp hquiet
    obtain ⟨g₁, hfirst⟩ : ∃ g₁, g.putAll given = .ok g₁ := by
      rw [Given.exists_putAll_iff]
      have hall : g.Admits (given ++ more) := Given.exists_putAll_iff.mp ⟨g', hput⟩
      refine ⟨fun giving hg => hall.value giving (List.mem_append_left _ hg),
        fun giving hg => hall.new giving (List.mem_append_left _ hg), ?_⟩
      exact hall.once.sublist (((List.sublist_append_left ..).map _).filter _)
    rw [Given.putAll_append hfirst] at hput
    have hnext {r' : Reading} (hat' : r'.At w g₁) : scope.read r' rest = .ok (scope.command g') :=
      ih hat' hmore hquiet hput
    rw [read]
    split
    case h_1 hno => exact absurd hno hend
    case h_2 text hplain =>
      rw [hplain] at hword
      obtain ⟨r', htake, hat'⟩ := takePlain_of_put hscope hat hword hfirst
      exact bind_eq_ok_iff.mpr ⟨r', htake, hnext hat'⟩
    case h_3 name value hoption =>
      rw [hoption] at hword
      obtain rfl := eq_none_of_gives hword (by simp)
      obtain ⟨r', htake, hat'⟩ := takeOption_of_put hat hword hgiven hfirst
      exact bind_eq_ok_iff.mpr ⟨_, htake, hnext hat'⟩
    case h_4 letters hletters =>
      rw [hletters] at hword
      obtain rfl := eq_none_of_gives hword (by simp)
      obtain ⟨ps, hps, heq⟩ := Option.bind_eq_some_iff.mp hword
      cases heq
      have hpsquiet : ∀ p ∈ ps, p.isQuestion = false := fun p hp =>
        hgiven (p, none) (List.mem_map_of_mem hp)
      obtain ⟨r', htake, hat'⟩ := takeLetters_of_put hat hps hpsquiet hfirst
      exact bind_eq_ok_iff.mpr ⟨_, htake, hnext hat'⟩

end Scope

/-! ## Reports that are asked for -/

theorem read_of_not_namesCommand (h : ¬ NamesCommand args) :
    Command.read args = Scope.report.read {} args := by
  unfold Command.read
  split
  · exact absurd ⟨"init", rfl, by decide⟩ h
  · exact absurd ⟨"help", rfl, by decide⟩ h
  · rfl

theorem not_namesCommand_of_read (h : Command.read args = .ok (.report request)) :
    ¬ NamesCommand args := by
  rintro ⟨name, hhead, hname⟩
  obtain ⟨rest, rfl⟩ : ∃ rest, args = name :: rest := List.head?_eq_some_iff.mp hhead
  simp only [Scope.commands, List.map_cons, List.map_nil, List.mem_cons, List.not_mem_nil,
    or_false] at hname
  rcases hname with rfl | rfl
  · cases (Scope.yields_of_read h).of_report.1
  · cases Scope.readHelp_eq_help h

/-- **Arguments that ask for a report.** -/
theorem read_eq_report_iff : Command.read args = .ok (.report request) ↔
    ¬ NamesCommand args ∧ ∃ givings g, Scope.report.givings none args = some givings ∧
      Unquestioning givings ∧ Given.putAll [] givings = .ok g ∧ request = g.request := by
  constructor
  · intro h
    have hcommand := not_namesCommand_of_read h
    obtain ⟨givings, g, hgives, hput, hrequest⟩ := request_of_read h
    rw [read_of_not_namesCommand hcommand] at h
    have hstart : ({} : Reading).At none [] := rfl
    exact ⟨hcommand, givings, g, hgives,
      Scope.unquestioning_of_read hstart (by simp) hgives h, hput, hrequest⟩
  · rintro ⟨hcommand, givings, g, hgives, hquiet, hput, rfl⟩
    have hstart : ({} : Reading).At none [] := rfl
    rw [read_of_not_namesCommand hcommand]
    exact Scope.read_of_givings (by decide) hstart hgives hquiet hput

end EntryReport.CommandLine
