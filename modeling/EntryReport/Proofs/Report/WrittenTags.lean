import EntryReport.Proofs.Report.Tags

/-!
# A tag as it is written

`beginTag` is a name with attributes, as it is written between the brackets of a tag; `bareTag` is
the same without the values. The values are escaped, so that they hold no bracket and no quote
(`not_mem_escapeChars`). If the names hold none either, a reader finds the tag whole
(`not_mem_beginTag`), its name (`name_beginTag`), the tag without its values (`bare_beginTag`) and
the values (`values_beginTag`).
-/

namespace EntryReport

open Markup

/-! ## Escaped text -/

namespace Html

/-- The characters that mean something in markup, each with what is written for it. -/
def entities : List (Char × String) :=
  [('&', "&amp;"), ('<', "&lt;"), ('>', "&gt;"), ('"', "&quot;"), ('\'', "&#39;")]

/-- **A character is written** as its entity, or as it is if it has none. -/
theorem escapeChar_cases (c : Char) :
    (∃ entity, (c, entity) ∈ entities ∧ escapeChar c = entity.toList) ∨
    (c ∉ entities.map Prod.fst ∧ escapeChar c = [c]) := by
  by_cases hc : c ∈ entities.map Prod.fst
  · left
    simp only [entities, List.map_cons, List.map_nil, List.mem_cons, List.not_mem_nil,
      or_false] at hc
    rcases hc with rfl | rfl | rfl | rfl | rfl <;> exact ⟨_, by simp [entities], rfl⟩
  · right
    refine ⟨hc, ?_⟩
    simp only [entities, List.map_cons, List.map_nil, List.mem_cons, List.not_mem_nil, or_false,
      not_or] at hc
    obtain ⟨hamp, hopen, hclose, hquote, happ⟩ := hc
    rw [escapeChar, if_neg hamp, if_neg hopen, if_neg hclose, if_neg hquote, if_neg happ]

theorem not_mem_escapeChar {c d : Char} (hd : d = '<' ∨ d = '>' ∨ d = '"' ∨ d = '\'') :
    d ∉ escapeChar c := by
  rcases escapeChar_cases c with ⟨entity, hmem, hc⟩ | ⟨hplain, hc⟩
  · have hentities : ∀ p ∈ entities,
        '<' ∉ p.2.toList ∧ '>' ∉ p.2.toList ∧ '"' ∉ p.2.toList ∧ '\'' ∉ p.2.toList := by decide
    obtain ⟨hopen, hclose, hquote, happ⟩ := hentities _ hmem
    rw [hc]
    rcases hd with rfl | rfl | rfl | rfl <;> assumption
  · rw [hc, List.mem_singleton]
    rintro rfl
    exact hplain (by rcases hd with rfl | rfl | rfl | rfl <;> decide)

/-- **No bracket and no quote is left** in what is escaped. -/
theorem not_mem_escapeChars {d : Char} (hd : d = '<' ∨ d = '>' ∨ d = '"' ∨ d = '\'')
    (cs : List Char) : d ∉ escapeChars cs := by
  unfold escapeChars
  intro h
  obtain ⟨c, -, hc⟩ := List.mem_flatMap.mp h
  exact not_mem_escapeChar hd hc

/-! ## Names -/

/-- The name holds letters, digits and dashes only. -/
def isName (s : String) : Bool :=
  s.toList.all fun c => c.isAlphanum || c == '-'

theorem not_mem_of_isName {s : String} {d : Char} (hs : isName s = true)
    (hd : (d.isAlphanum || d == '-') = false) : d ∉ s.toList := by
  intro h
  have hall := List.all_eq_true.mp hs d h
  rw [hd] at hall
  cases hall

end Html

/-! ## Attributes -/

namespace Attribute

open Html (isName not_mem_of_isName not_mem_escapeChars)

variable {a : Attribute} {as : List Attribute} {d : Char}

/-- The name of an attribute. -/
def name : Attribute → String
  | .value name _ => name
  | .flag name => name

/-- The value of an attribute as it is written, if it has one. -/
def written? : Attribute → Option (List Char)
  | .value _ v => some (Html.escapeChars v.toList)
  | .flag _ => none

/-- An attribute as it is written. -/
def chars (a : Attribute) : List Char :=
  Html.writeAttribute a []

/-- An attribute without its value. -/
def bare : Attribute → List Char
  | .value name _ => ' ' :: (name.toList ++ ['='])
  | .flag name => ' ' :: name.toList

theorem exists_chars_eq (a : Attribute) : ∃ cs, a.chars = ' ' :: cs := by
  cases a <;> exact ⟨_, rfl⟩

theorem exists_bare_eq (a : Attribute) : ∃ cs, a.bare = ' ' :: cs := by
  cases a <;> exact ⟨_, rfl⟩

theorem writeAttribute_eq (a : Attribute) (rest : List Char) :
    Html.writeAttribute a rest = a.chars ++ rest := by
  cases a <;> simp [chars, Html.writeAttribute]

theorem foldr_writeAttribute (as : List Attribute) (rest : List Char) :
    as.foldr Html.writeAttribute rest = as.flatMap chars ++ rest := by
  induction as with
  | nil => rfl
  | cons a as ih =>
    rw [List.foldr_cons, ih, writeAttribute_eq, List.flatMap_cons, List.append_assoc]

theorem not_mem_chars (ha : isName a.name = true) (hd : d = '<' ∨ d = '>') : d ∉ a.chars := by
  have hname : d ∉ a.name.toList :=
    not_mem_of_isName ha (by rcases hd with rfl | rfl <;> decide)
  cases a with
  | value name v =>
    have hv := not_mem_escapeChars (hd.imp_right Or.inl) v.toList
    simp only [Attribute.name] at hname
    rcases hd with rfl | rfl <;> simp [chars, Html.writeAttribute, hname, hv]
  | flag name =>
    simp only [Attribute.name] at hname
    rcases hd with rfl | rfl <;> simp [chars, Html.writeAttribute, hname]

/-- What stands in front of the attributes and the attributes, cut at the quotes. -/
def pieces (head : List Char) : List Attribute → List (List Char)
  | [] => [head]
  | .value name v :: as =>
    (head ++ ' ' :: (name.toList ++ ['='])) :: Html.escapeChars v.toList :: pieces [] as
  -- a flag has no quotes, and is taken to what stands in front of it
  | .flag name :: as => pieces (head ++ ' ' :: name.toList) as

/-- **A tag is cut at the quotes that were written.** -/
theorem splitOn_chars (ha : as.all (isName ·.name) = true) {head : List Char} (hq : '"' ∉ head) :
    (head ++ as.flatMap chars).splitOn '"' = pieces head as := by
  induction as generalizing head with
  | nil => simp [List.splitOn_eq_singleton hq, pieces]
  | cons a as ih =>
    rw [List.all_cons, Bool.and_eq_true] at ha
    have hname : '"' ∉ a.name.toList := not_mem_of_isName ha.1 (by decide)
    cases a with
    | value name v =>
      simp only [Attribute.name] at hname
      have hv : '"' ∉ Html.escapeChars v.toList := not_mem_escapeChars (by simp) v.toList
      have hhead : '"' ∉ head ++ ' ' :: (name.toList ++ ['=']) := by simp [hq, hname]
      have hcut : head ++ (Attribute.value name v :: as).flatMap chars =
          (head ++ ' ' :: (name.toList ++ ['='])) ++
            '"' :: (Html.escapeChars v.toList ++ '"' :: ([] ++ as.flatMap chars)) := by
        simp [chars, Html.writeAttribute]
      rw [hcut, List.splitOn_append_cons_self_of_not_mem hhead,
        List.splitOn_append_cons_self_of_not_mem hv, ih ha.2 List.not_mem_nil, pieces]
    | flag name =>
      simp only [Attribute.name] at hname
      have hhead : '"' ∉ head ++ ' ' :: name.toList := by simp [hq, hname]
      have hcut : head ++ (Attribute.flag name :: as).flatMap chars =
          (head ++ ' ' :: name.toList) ++ as.flatMap chars := by
        simp [chars, Html.writeAttribute]
      rw [hcut, ih ha.2 hhead, pieces]

theorem outside_pieces (as : List Attribute) (head : List Char) :
    outside (pieces head as) = head ++ as.flatMap bare := by
  induction as generalizing head with
  | nil => simp [pieces, outside]
  | cons a as ih =>
    cases a with
    | value name v => simp [pieces, outside, ih, bare]
    | flag name => simp [pieces, ih, bare]

theorem quoted_pieces (as : List Attribute) (head : List Char) :
    quoted (pieces head as) = as.filterMap written? := by
  induction as generalizing head with
  | nil => rfl
  | cons a as ih =>
    cases a with
    | value name v => simp [pieces, quoted, ih, written?]
    | flag name => simpa [pieces, written?, List.filterMap_cons] using ih _

end Attribute

/-! ## Tags -/

namespace Html

variable {tag : String} {as : List Attribute} {d : Char}

/-- What stands between the brackets of a tag with attributes. -/
def beginTag (tag : String) (as : List Attribute) : List Char :=
  tag.toList ++ as.flatMap Attribute.chars

/-- The same without the values. -/
def bareTag (tag : String) (as : List Attribute) : List Char :=
  tag.toList ++ as.flatMap Attribute.bare

/-- There is no bracket inside a tag. -/
theorem not_mem_beginTag (hn : isName tag = true) (ha : as.all (isName ·.name) = true)
    (hd : d = '<' ∨ d = '>') : d ∉ beginTag tag as := by
  unfold beginTag
  intro h
  rcases List.mem_append.mp h with h | h
  · exact not_mem_of_isName hn (by rcases hd with rfl | rfl <;> decide) h
  · obtain ⟨a, hmem, hda⟩ := List.mem_flatMap.mp h
    exact Attribute.not_mem_chars (List.all_eq_true.mp ha a hmem) hd hda

/-- **What is left without the values** of a tag. -/
theorem bare_beginTag (hn : isName tag = true) (ha : as.all (isName ·.name) = true) :
    bare (beginTag tag as) = bareTag tag as := by
  unfold bare beginTag
  rw [Attribute.splitOn_chars ha (not_mem_of_isName hn (by decide)), Attribute.outside_pieces]
  rfl

/-- **The values** of a tag. -/
theorem values_beginTag (hn : isName tag = true) (ha : as.all (isName ·.name) = true) :
    values (beginTag tag as) = as.filterMap Attribute.written? := by
  unfold values beginTag
  rw [Attribute.splitOn_chars ha (not_mem_of_isName hn (by decide)), Attribute.quoted_pieces]

/-- The name of a tag goes up to the first attribute. -/
theorem name_append {f : Attribute → List Char} (hn : isName tag = true)
    (hf : ∀ a, ∃ cs, f a = ' ' :: cs) (as : List Attribute) :
    name (tag.toList ++ as.flatMap f) = tag.toList := by
  have hspace : ∀ c ∈ tag.toList, decide (c ≠ ' ') = true := by
    intro c hc
    rw [decide_eq_true_eq]
    rintro rfl
    exact not_mem_of_isName hn (by decide) hc
  unfold name
  rw [List.takeWhile_append_of_pos hspace]
  cases as with
  | nil => simp
  | cons a as =>
    obtain ⟨cs, hcs⟩ := hf a
    simp [hcs]

theorem name_beginTag (hn : isName tag = true) (as : List Attribute) :
    name (beginTag tag as) = tag.toList :=
  name_append hn Attribute.exists_chars_eq as

theorem name_bareTag (hn : isName tag = true) (as : List Attribute) :
    name (bareTag tag as) = tag.toList :=
  name_append hn Attribute.exists_bare_eq as

/-- Only an end tag begins with a slash. -/
theorem head?_append_ne_slash {f : Attribute → List Char} (hn : isName tag = true)
    (hf : ∀ a, ∃ cs, f a = ' ' :: cs) (as : List Attribute) :
    (tag.toList ++ as.flatMap f).head? ≠ some '/' := by
  intro h
  obtain ⟨cs, hcs⟩ := List.head?_eq_some_iff.mp h
  have hname := name_append hn hf as
  rw [hcs] at hname
  have hslash : '/' ∉ tag.toList := not_mem_of_isName hn (by decide)
  simp [← hname, name] at hslash

theorem bareTag_ne_slash (hn : isName tag = true) (as : List Attribute) (ended : List Char) :
    bareTag tag as ≠ '/' :: ended := by
  intro h
  refine head?_append_ne_slash hn Attribute.exists_bare_eq as ?_
  rw [← bareTag, h, List.head?_cons]

end Html

end EntryReport
