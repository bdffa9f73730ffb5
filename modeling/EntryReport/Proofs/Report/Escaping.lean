import EntryReport.Proofs.Report.ReadTags

/-!
# Escaping is safe and loses nothing

Every text and every attribute value of a page is escaped. No bracket and no quote is left in it,
every ampersand begins an entity, and a reader who replaces the entities from left to right gets
what was escaped, also where that held entities itself (`Html.escaped_intact`).
-/

namespace EntryReport.Html

variable {cs more rest : List Char}

/-- A text with each entity replaced by what it stands for, in one pass from left to right. -/
def unescape (s : String) : String :=
  String.ofList (unescapeChars s.toList)

/-! ## Ampersands -/

/-- What begins with an ampersand does not begin inside a part that has none. -/
theorem suffix_of_not_mem (h : '&' ∉ cs) (hrest : '&' :: rest <:+ cs ++ more) :
    '&' :: rest <:+ more := by
  induction cs with
  | nil => exact hrest
  | cons c cs ih =>
    rw [List.mem_cons, not_or] at h
    rcases List.suffix_cons_iff.mp hrest with heq | hrest
    · exact absurd (List.cons.inj heq).1 h.1
    · exact ih h.2 hrest

/-- In what is written for a character an ampersand stands at the front only, and the entity of the
character begins with it. -/
theorem entity_or_suffix {c : Char} (hrest : '&' :: rest <:+ escapeChar c ++ more) :
    (∃ p ∈ entities, p.2.toList <+: '&' :: rest) ∨ '&' :: rest <:+ more := by
  rcases escapeChar_cases c with ⟨entity, hmem, hc⟩ | ⟨hplain, hc⟩
  · have hentities : ∀ p ∈ entities,
        p.2.toList = '&' :: p.2.toList.tail ∧ '&' ∉ p.2.toList.tail := by decide
    obtain ⟨hbegin, htail⟩ := hentities _ hmem
    rw [hc, hbegin, List.cons_append] at hrest
    rcases List.suffix_cons_iff.mp hrest with heq | hrest
    · refine Or.inl ⟨_, hmem, ?_⟩
      rw [heq, ← List.cons_append, ← hbegin]
      exact List.prefix_append _ _
    · exact Or.inr (suffix_of_not_mem htail hrest)
  · rw [hc] at hrest
    refine Or.inr (suffix_of_not_mem ?_ hrest)
    rw [List.mem_singleton]
    rintro rfl
    exact hplain (by decide)

/-- **Every ampersand in what is escaped begins an entity.** -/
theorem entity_of_suffix (h : '&' :: rest <:+ escapeChars cs) :
    ∃ p ∈ entities, p.2.toList <+: '&' :: rest := by
  unfold escapeChars at h
  induction cs with
  | nil => exact absurd (List.suffix_nil.mp h) (List.cons_ne_nil _ _)
  | cons c cs ih =>
    rw [List.flatMap_cons] at h
    rcases entity_or_suffix h with hentity | h
    · exact hentity
    · exact ih h

/-! ## Escaped texts -/

theorem toList_escape (s : String) : (escape s).toList = escapeChars s.toList :=
  String.toList_ofList

theorem unescape_escape (s : String) : unescape (escape s) = s := by
  rw [unescape, toList_escape, unescapeChars_escapeChars, String.ofList_toList]

/-- **Whatever the text is, it is safe and intact when it is escaped**: no bracket and no quote is
in it, every ampersand begins one of the five entities, and with these replaced from left to right
it is the text again. So no two texts are escaped alike. -/
theorem escaped_intact :
    (∀ s, ∀ c ∈ (escape s).toList, c ≠ '<' ∧ c ≠ '>' ∧ c ≠ '"' ∧ c ≠ '\'') ∧
    (∀ s rest, '&' :: rest <:+ (escape s).toList →
      ∃ entity ∈ ["&amp;", "&lt;", "&gt;", "&quot;", "&#39;"],
        entity.toList <+: '&' :: rest) ∧
    (∀ s, unescape (escape s) = s) ∧
    Function.Injective escape := by
  refine ⟨fun s c hc => ?_, fun s rest hrest => ?_, unescape_escape,
    Function.LeftInverse.injective unescape_escape⟩
  · rw [toList_escape] at hc
    have hnone : ∀ d, (d = '<' ∨ d = '>' ∨ d = '"' ∨ d = '\'') → c ≠ d :=
      fun d hd heq => not_mem_escapeChars hd s.toList (heq ▸ hc)
    exact ⟨hnone _ (by simp), hnone _ (by simp), hnone _ (by simp), hnone _ (by simp)⟩
  · rw [toList_escape] at hrest
    obtain ⟨p, hp, hprefix⟩ := entity_of_suffix hrest
    exact ⟨p.2, List.mem_map_of_mem hp, hprefix⟩

/-- An entity in the text, and an ampersand at its end. -/
example : escape "&lt;'&" = "&amp;lt;&#39;&amp;" ∧ unescape "&amp;lt;&#39;&amp;" = "&lt;'&" := by
  decide

end EntryReport.Html
