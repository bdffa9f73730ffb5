import EntryReport.CommandLine.Arguments
import EntryReport.Proofs.Results

/-!
# What arguments give

A reading holds back what it has taken until it knows what comes next. That decides which mistake is
told, and nothing else: of arguments that are accepted, each word gives its parameters at once
(`Scope.gives`), all words together are what the arguments give (`Scope.givings`), and the
parameters are put one after the other (`Given.putAll`).

* `Scope.Comes`: what one word does to a reading, once the readings before and after it are settled;
* `Scope.yields_of_read`: arguments that are accepted ask for what they give, or about the program;
* `Given.values_putAll`, `Given.has_putAll`: the values of a parameter are all that are given to it,
  in order.
-/

namespace EntryReport.CommandLine

/-- A parameter as it is given once, with its value if it has one. -/
abbrev Giving := Parameter × Option String

/-- The values that are given to a parameter. -/
def valuesOf (p : Parameter) (givings : List Giving) : List String :=
  (givings.filter (·.1 = p)).flatMap (·.2.toList)

section Filtered

variable {p : Parameter} {givings : List Giving} (keeps : Parameter → Bool)

/-- What is given to a parameter stays if other parameters are left out. -/
theorem valuesOf_filter (h : keeps p = true) :
    valuesOf p (givings.filter (keeps ·.1)) = valuesOf p givings := by
  unfold valuesOf
  rw [List.filter_filter]
  congr 1
  refine List.filter_congr fun giving _ => ?_
  by_cases hp : giving.1 = p <;> simp [hp, h]

theorem any_filter (h : keeps p = true) :
    (givings.filter (keeps ·.1)).any (·.1 = p) = givings.any (·.1 = p) := by
  rw [List.any_filter]
  congr 1
  funext giving
  by_cases hp : giving.1 = p <;> simp [hp, h]

end Filtered

/-! ## Parameters that are put -/

namespace Given

variable {g g' : Given} {p q : Parameter} {value : Option String} {values : List String}
  {givings more : List Giving}

/-- The parameters with more of them, one after the other. -/
def putAll (g : Given) : List Giving → Except (Given × Mistake) Given
  | [] => .ok g
  | (p, value) :: givings => do (← g.put p value).putAll givings

theorem putAll_append (h : g.putAll givings = .ok g') :
    g.putAll (givings ++ more) = g'.putAll more := by
  induction givings generalizing g with
  | nil =>
    cases h
    rfl
  | cons giving givings ih =>
    obtain ⟨g₁, hput, hall⟩ := bind_eq_ok_iff.mp h
    rw [List.cons_append, putAll, hput, ok_bind, ih hall]

theorem putAll_singleton (h : g.put p value = .ok g') : g.putAll [(p, value)] = .ok g' := by
  rw [putAll, h]
  rfl

theorem has_eq_isSome_find? : g.has p = (g.find? (·.1 = p)).isSome := by
  rw [List.isSome_find?]
  rfl

theorem has_add : (g.add p values).has q = (g.has q || decide (p = q)) := by
  unfold add
  split
  · next hp =>
    have hq : p = q → g.has q = true := fun h => h ▸ hp
    by_cases h : p = q <;> simp_all [has, Function.comp_def]
  · simp [has]

/-- Other values leave each parameter at its place. -/
theorem find?_map_values (f : Parameter → List String → List String) :
    (g.map fun (q, old) => (q, f q old)).find? (·.1 = p) =
      (g.find? (·.1 = p)).map fun (q, old) => (q, f q old) := by
  rw [List.find?_map]
  rfl

theorem values_add_self : (g.add p values).values p = g.values p ++ values := by
  unfold add Given.values
  split
  · next hp =>
    rw [has_eq_isSome_find?] at hp
    obtain ⟨⟨q, old⟩, hfound⟩ := Option.isSome_iff_exists.mp hp
    obtain rfl : q = p := by simpa using List.find?_some hfound
    rw [find?_map_values fun r old => if r = q then old ++ values else old, hfound]
    simp
  · next hp =>
    rw [has_eq_isSome_find?, Option.not_isSome_iff_eq_none] at hp
    simp [List.find?_append, hp]

theorem values_add_of_ne (h : p ≠ q) : (g.add p values).values q = g.values q := by
  unfold add Given.values
  split
  · rw [find?_map_values fun r old => if r = p then old ++ values else old]
    cases hfound : g.find? (·.1 = q) with
    | none => rfl
    | some entry =>
      obtain rfl : entry.1 = q := by simpa using List.find?_some hfound
      simp [h.symm]
  · simp [List.find?_append, h]

theorem eq_add_of_put (h : g.put p value = .ok g') : g' = g.add p value.toList := by
  unfold put at h
  split at h
  · cases h
  split at h
  · cases h
  · exact (Except.ok.inj h).symm

/-- **What is given is there.** -/
theorem has_putAll (h : g.putAll givings = .ok g') :
    g'.has p = (g.has p || givings.any (·.1 = p)) := by
  induction givings generalizing g with
  | nil =>
    cases h
    simp
  | cons giving givings ih =>
    obtain ⟨g₁, hput, hall⟩ := bind_eq_ok_iff.mp h
    rw [ih hall, eq_add_of_put hput, has_add, List.any_cons, Bool.or_assoc]

/-- **The values of a parameter** are those that it had, and then those that are given to it. -/
theorem values_putAll (h : g.putAll givings = .ok g') :
    g'.values p = g.values p ++ valuesOf p givings := by
  induction givings generalizing g with
  | nil =>
    cases h
    simp [valuesOf]
  | cons giving givings ih =>
    obtain ⟨g₁, hput, hall⟩ := bind_eq_ok_iff.mp h
    rw [ih hall, eq_add_of_put hput]
    by_cases hp : giving.1 = p
    · simp [hp, values_add_self, valuesOf]
    · simp [hp, values_add_of_ne, valuesOf]

/-- The request has the switches that are there. -/
theorem isSet_request (g : Given) (s : Switch) : g.request.isSet s = g.has (.switch s) := by
  rw [Bool.eq_iff_iff]
  unfold Request.isSet has
  simp only [request, List.contains_iff_mem, List.mem_filterMap, List.any_eq_true,
    decide_eq_true_eq]
  constructor
  · rintro ⟨⟨p, values⟩, hmem, hp⟩
    refine ⟨_, hmem, ?_⟩
    cases p <;> simp_all
  · rintro ⟨⟨p, values⟩, hmem, rfl⟩
    exact ⟨_, hmem, rfl⟩

end Given

/-! ## Words -/

namespace Scope

variable (scope : Scope)

/-- What a word gives, and the parameter that waits for its value after it, if one waits before. -/
def gives : Option Parameter → Word → Option (List Giving × Option Parameter)
  | some p, .plain text => some ([(p, some text)], none)
  | none, .plain text => some ([(.path, some text)], none)
  | none, .option name value => do
    let p ← scope.option? name
    match p.valueName?, value with
    | none, none => some ([(p, none)], none)
    | none, some _ => none
    | some _, none => some ([], some p)
    | some _, some value => some ([(p, some value)], none)
  | none, .letters letters => do
    let ps ← letters.mapM scope.optionOf?
    return (ps.map (·, none), none)
  | _, _ => none

/-- What arguments give, while a parameter may wait for its value. -/
def givings : Option Parameter → List String → Option (List Giving)
  | none, [] => some []
  | some _, [] => none
  | waiting, argument :: rest =>
    match Word.ofArgument argument with
    | .noMoreOptions =>
      if waiting.isNone then some (rest.map fun text => (.path, some text)) else none
    | word => do
      let (given, waiting) ← scope.gives waiting word
      return given ++ (← givings waiting rest)

end Scope

/-- The reading has come to parameters, with the last one settled, unless it still waits for its
value. -/
def Reading.At (r : Reading) : Option Parameter → Given → Prop
  | some p, g => r = ⟨g, some (p, none)⟩
  | none, g => r.settle = .ok g

/-- What comes of a word: it asks about the program, or it gives what it gives. A mistake in the
parameter that it holds back shows later only, which is why nothing is said of a reading after it
that cannot be settled. -/
inductive Scope.Comes (scope : Scope) (r : Reading) (word : Word) : Next → Prop
  | go {r' : Reading} {q w : Option Parameter} {g : Given} {givings : List Giving}
    (before : r.At q g) (gives : scope.gives q word = some (givings, w))
    (after : ∀ {q' g'}, r'.At q' g' → q' = w ∧ g.putAll givings = .ok g') :
    Comes scope r word (.go r')
  | help : Comes scope r word (.stop .help)
  | version : Comes scope r word (.stop .version)

/-- What arguments ask for behind a reading: for what they give, or about the program. -/
inductive Scope.Yields (scope : Scope) (r : Reading) (args : List String) : Command → Prop
  | command {q : Option Parameter} {g g' : Given} {givings : List Giving} (before : r.At q g)
    (gives : scope.givings q args = some givings) (put : g.putAll givings = .ok g') :
    Yields scope r args (scope.command g')
  | help : Yields scope r args .help
  | version : Yields scope r args .version

namespace Reading

variable {g g' : Given} {p : Parameter} {q : Option Parameter}

theorem at_settled (h : (⟨g, none⟩ : Reading).At q g') : q = none ∧ g' = g := by
  cases q with
  | none => exact ⟨rfl, (Except.ok.inj h).symm⟩
  | some p => cases h

theorem at_waiting (h : (⟨g, some (p, none)⟩ : Reading).At q g') : q = some p ∧ g' = g := by
  cases q with
  | none => cases h
  | some p' =>
    cases h
    exact ⟨rfl, rfl⟩

theorem at_held {text : String} (h : (⟨g, some (p, some text)⟩ : Reading).At q g') :
    q = none ∧ g.put p (some text) = .ok g' := by
  cases q with
  | none => exact ⟨rfl, h⟩
  | some p' => cases h

end Reading

namespace Scope

variable {scope : Scope} {r r' : Reading} {g g' : Given} {p : Parameter} {n : Next}
  {value : Option String} {name text argument : String}
  {letters : List Char} {args rest texts : List String} {c : Command}

theorem checked_eq_ok_iff {result : Except (Given × Mistake) Given} :
    scope.checked result = .ok g ↔ result = .ok g :=
  mapError_eq_ok_iff

theorem put_cases (h : scope.put g p value = .ok n) :
    ∃ g', g.put p value = .ok g' ∧ n = .go ⟨g', none⟩ := by
  obtain ⟨g', hput, hn⟩ := bind_eq_ok_iff.mp h
  exact ⟨g', checked_eq_ok_iff.mp hput, (Except.ok.inj hn).symm⟩

theorem takeSwitch_cases (h : scope.takeSwitch r p = .ok n) : ∃ g, r.settle = .ok g ∧
    (n = .stop .help ∨ n = .stop .version ∨
      ∃ g', g.put p none = .ok g' ∧ n = .go ⟨g', none⟩) := by
  obtain ⟨g, hg, hn⟩ := bind_eq_ok_iff.mp h
  refine ⟨g, checked_eq_ok_iff.mp hg, ?_⟩
  split at hn
  · exact Or.inl (Except.ok.inj hn).symm
  · exact Or.inr (Or.inl (Except.ok.inj hn).symm)
  · exact Or.inr (Or.inr (put_cases hn))

theorem takePath_cases (h : scope.takePath r text = .ok r') :
    ∃ g, r.settle = .ok g ∧ r' = ⟨g, some (.path, some text)⟩ := by
  unfold takePath at h
  split at h
  · obtain ⟨g, hg, hr⟩ := bind_eq_ok_iff.mp h
    exact ⟨g, checked_eq_ok_iff.mp hg, (Except.ok.inj hr).symm⟩
  · cases h

theorem comes_of_takePlain (h : scope.takePlain r text = .ok r') :
    scope.Comes r (.plain text) (.go r') := by
  unfold takePlain at h
  split at h
  · next p hp =>
    obtain ⟨g, waiting⟩ := r
    cases hp
    cases h
    exact .go (q := some p) rfl rfl fun hat =>
      ⟨(Reading.at_held hat).1, Given.putAll_singleton (Reading.at_held hat).2⟩
  · obtain ⟨g, hg, rfl⟩ := takePath_cases h
    exact .go (q := none) hg rfl fun hat =>
      ⟨(Reading.at_held hat).1, Given.putAll_singleton (Reading.at_held hat).2⟩

/-- An option that is put at once. -/
theorem comes_of_put {word : Word} (hg : r.settle = .ok g) (hput : g.put p value = .ok g')
    (hgives : scope.gives none word = some ([(p, value)], none)) :
    scope.Comes r word (.go ⟨g', none⟩) := by
  refine .go (q := none) hg hgives fun hat => ?_
  obtain ⟨rfl, rfl⟩ := Reading.at_settled hat
  exact ⟨rfl, Given.putAll_singleton hput⟩

theorem comes_of_takeOption (h : scope.takeOption r name value rest = .ok n) :
    scope.Comes r (.option name value) n := by
  unfold takeOption at h
  split at h
  case h_1 => cases h
  case h_2 p hp =>
    split at h
    case h_1 hv =>
      obtain ⟨g, hg, rfl | rfl | ⟨g', hput, rfl⟩⟩ := takeSwitch_cases h
      · exact .help
      · exact .version
      · exact comes_of_put hg hput (by simp [gives, hp, hv])
    case h_2 => cases h
    case h_3 hv =>
      obtain ⟨g, hg, hn⟩ := bind_eq_ok_iff.mp h
      cases hn
      refine .go (q := none) (checked_eq_ok_iff.mp hg)
        (show scope.gives none (.option name none) = some ([], some p) by
          simp [gives, hp, hv]) fun hat => ?_
      obtain ⟨rfl, rfl⟩ := Reading.at_waiting hat
      exact ⟨rfl, rfl⟩
    case h_4 text hv =>
      obtain ⟨g, hg, hn⟩ := bind_eq_ok_iff.mp h
      obtain ⟨g', hput, rfl⟩ := put_cases hn
      exact comes_of_put (checked_eq_ok_iff.mp hg) hput (by simp [gives, hp, hv])

/-- A letter in front of others. -/
theorem Comes.cons_letter {letter : Char} (hr : r.settle = .ok g)
    (hp : scope.optionOf? letter = some p) (hput : g.put p none = .ok g')
    (h : scope.Comes ⟨g', none⟩ (.letters letters) n) :
    scope.Comes r (.letters (letter :: letters)) n := by
  cases h with
  | help => exact .help
  | version => exact .version
  | go before hgives after =>
    obtain ⟨rfl, rfl⟩ := Reading.at_settled before
    obtain ⟨ps, hps, hgivings⟩ := Option.bind_eq_some_iff.mp hgives
    cases hgivings
    have hall : scope.gives none (.letters (letter :: letters)) =
        some ((p, none) :: ps.map (·, none), none) := by
      rw [gives, List.mapM_cons, hp, hps]
      rfl
    refine .go (q := none) hr hall fun hat => ⟨(after hat).1, ?_⟩
    rw [Given.putAll, hput]
    exact (after hat).2

/-- Letters behind one dash. The first one settles the reading, and each of the others finds it
settled, so that it is the settled readings that the induction is about. -/
theorem comes_of_settled_takeLetters (hr : r.settle = .ok g)
    (h : scope.takeLetters r letters = .ok n) : scope.Comes r (.letters letters) n := by
  induction letters generalizing r g with
  | nil =>
    cases h
    refine .go (q := none) hr rfl fun {q g'} hat => ?_
    cases q with
    | none => exact ⟨rfl, hr.symm.trans hat⟩
    | some p =>
      rw [hat] at hr
      cases hr
  | cons letter letters ih =>
    unfold takeLetters at h
    split at h
    · cases h
    · next p hp =>
      obtain ⟨next, hnext, h⟩ := bind_eq_ok_iff.mp h
      obtain ⟨g₀, hg, rfl | rfl | ⟨g₁, hput, rfl⟩⟩ := takeSwitch_cases hnext
      · cases h
        exact .help
      · cases h
        exact .version
      · exact .cons_letter hg hp hput (ih (r := ⟨g₁, none⟩) rfl h)

theorem comes_of_takeLetters (hne : letters ≠ []) (h : scope.takeLetters r letters = .ok n) :
    scope.Comes r (.letters letters) n := by
  obtain ⟨g, hg⟩ : ∃ g, r.settle = .ok g := by
    obtain ⟨letter, letters, rfl⟩ := List.exists_cons_of_ne_nil hne
    unfold takeLetters at h
    split at h
    · cases h
    · obtain ⟨_, hnext, -⟩ := bind_eq_ok_iff.mp h
      obtain ⟨g, hg, -⟩ := takeSwitch_cases hnext
      exact ⟨g, hg⟩
  exact comes_of_settled_takeLetters hg h

/-- What stands behind the last option is put for the path, all of it. -/
theorem foldlM_takePath (h : texts.foldlM scope.takePath r = .ok r') (hr : r'.settle = .ok g') :
    ∃ g, r.settle = .ok g ∧ g.putAll (texts.map fun text => (.path, some text)) = .ok g' := by
  induction texts generalizing r with
  | nil =>
    cases h
    exact ⟨g', hr, rfl⟩
  | cons text texts ih =>
    obtain ⟨r₁, htake, hrest⟩ := bind_eq_ok_iff.mp h
    obtain ⟨g, hg, rfl⟩ := takePath_cases htake
    obtain ⟨g₁, hput, hall⟩ := ih hrest
    refine ⟨g, hg, ?_⟩
    rw [List.map_cons, Given.putAll, show g.put .path (some text) = .ok g₁ from hput]
    exact hall

theorem ofArgument_ne_letters_nil : Word.ofArgument argument ≠ .letters [] := by
  unfold Word.ofArgument
  split
  · nofun
  · split <;> nofun
  · nofun
  · nofun

theorem finish_eq_ok_iff :
    scope.finish r = .ok c ↔ ∃ g, r.settle = .ok g ∧ scope.command g = c := by
  unfold finish
  simp only [bind_eq_ok_iff, checked_eq_ok_iff, pure, Except.pure, Except.ok.injEq]

/-! ## Arguments -/

theorem givings_cons_eq_some_iff {q : Option Parameter} {givings : List Giving}
    (h : Word.ofArgument argument ≠ .noMoreOptions) :
    scope.givings q (argument :: rest) = some givings ↔
      ∃ given w more, scope.gives q (Word.ofArgument argument) = some (given, w) ∧
        scope.givings w rest = some more ∧ given ++ more = givings := by
  rw [Scope.givings]
  split
  · next hword => exact absurd hword h
  · simp only [Option.bind_eq_bind, Option.bind_eq_some_iff, Prod.exists, pure, Option.some.injEq,
      exists_and_left]

/-- A word, and what the arguments after it ask for. -/
theorem Comes.yields {word : Word} (h : scope.Comes r word n)
    (hword : Word.ofArgument argument = word) (hne : word ≠ .noMoreOptions)
    (ih : ∀ {r'}, scope.read r' rest = .ok c → scope.Yields r' rest c)
    (hrest : (match n with
      | .go r' => scope.read r' rest
      | .stop c' => pure c') = .ok c) : scope.Yields r (argument :: rest) c := by
  subst hword
  cases h with
  | help =>
    cases hrest
    exact .help
  | version =>
    cases hrest
    exact .version
  | go before gives after =>
    cases ih hrest with
    | help => exact .help
    | version => exact .version
    | command hat hgivings hput =>
      obtain ⟨rfl, hfirst⟩ := after hat
      refine .command before
        ((givings_cons_eq_some_iff hne).mpr ⟨_, _, _, gives, hgivings, rfl⟩) ?_
      rw [Given.putAll_append hfirst]
      exact hput

/-- **Arguments that are accepted** ask for what they give, or about the program. -/
theorem yields_of_read (h : scope.read r args = .ok c) : scope.Yields r args c := by
  induction args generalizing r with
  | nil =>
    obtain ⟨g, hg, rfl⟩ := finish_eq_ok_iff.mp h
    exact .command (q := none) hg rfl rfl
  | cons argument rest ih =>
    rw [read] at h
    split at h
    case h_1 hword =>
      obtain ⟨r', hall, hfinish⟩ := bind_eq_ok_iff.mp h
      obtain ⟨g', hr', rfl⟩ := finish_eq_ok_iff.mp hfinish
      obtain ⟨g, hg, hput⟩ := foldlM_takePath hall hr'
      exact .command (q := none) hg (by rw [Scope.givings, hword]; rfl) hput
    case h_2 text hword =>
      obtain ⟨r', htake, hrest⟩ := bind_eq_ok_iff.mp h
      exact (comes_of_takePlain htake).yields hword (by simp) ih hrest
    case h_3 name value hword =>
      obtain ⟨n, htake, hrest⟩ := bind_eq_ok_iff.mp h
      exact (comes_of_takeOption htake).yields hword (by simp) ih hrest
    case h_4 letters hword =>
      obtain ⟨n, htake, hrest⟩ := bind_eq_ok_iff.mp h
      have hne : letters ≠ [] := by
        rintro rfl
        exact ofArgument_ne_letters_nil hword
      exact (comes_of_takeLetters hne htake).yields hword (by simp) ih hrest

theorem readHelp_eq_help {names : List String} (h : scope.readHelp names = .ok c) : c = .help := by
  induction names generalizing scope with
  | nil => exact (Except.ok.inj h).symm
  | cons name names ih =>
    unfold readHelp at h
    split at h
    · exact ih h
    · cases h

/-- Only the command for a report asks for one. -/
theorem Yields.of_report {request : Request} (h : scope.Yields {} args (.report request)) :
    scope = .report ∧ ∃ givings g, scope.givings none args = some givings ∧
      Given.putAll [] givings = .ok g ∧ request = g.request := by
  generalize hc : Command.report request = c at h
  cases h with
  | help => cases hc
  | version => cases hc
  | @command q g g' givings before gives put =>
    obtain ⟨rfl, rfl⟩ := Reading.at_settled before
    cases scope with
    | report => exact ⟨rfl, givings, g', gives, put, Command.report.inj hc⟩
    | init => cases hc
    | help => cases hc

end Scope

/-- **A report that is asked for** is what the arguments give. -/
theorem request_of_read {args : List String} {r : Request}
    (h : Command.read args = .ok (.report r)) : ∃ givings g,
      Scope.report.givings none args = some givings ∧ Given.putAll [] givings = .ok g ∧
        r = g.request := by
  unfold Command.read at h
  split at h
  · cases (Scope.yields_of_read h).of_report.1
  · cases Scope.readHelp_eq_help h
  · exact (Scope.yields_of_read h).of_report.2

end EntryReport.CommandLine
