import EntryReport.Proofs.Report.WrittenTags

/-!
# The tags of a piece of a page

A piece of a page is written as its `tokens`, texts and tags (`write_eq`). Where their names are
`tidy`, a reader takes the text apart as it was put together, whatever the texts and values are:

* `rawTags_chars`: the tags are those of the tokens;
* `afterTag_tokens`: a piece leaves open what was open before it, and nothing else;
* `itemDepths_tokens`, `panelId?_eq_none`: where an element does not occur, no list item and no
  description panel is read;
* `clear_chars`: nor is there a mark that begins with the tag of that element.
-/

namespace EntryReport

namespace Markup

/-- A text, the tag at the begin or the end of an element, or that of a void element. -/
inductive Token where
  | text (s : String)
  | opening (tag : String) (attributes : List Attribute)
  | closing (tag : String)
  | void (tag : String) (attributes : List Attribute)

end Markup

open Markup

/-! ## Tokens of a piece -/

namespace Html

mutual
/-- The texts and tags of a piece. -/
def tokens : Html → List Token
  | .text s => [.text s]
  | .element tag attributes children =>
    .opening tag attributes :: (tokensAll children ++ [.closing tag])
  | .void tag attributes => [.void tag attributes]

/-- The texts and tags of pieces one after the other. -/
def tokensAll : List Html → List Token
  | [] => []
  | h :: hs => h.tokens ++ tokensAll hs
end

end Html

namespace Markup.Token

open Html (isName not_mem_of_isName not_mem_escapeChars beginTag bareTag)

/-- A token as it is written. -/
def chars : Token → List Char
  | text s => Html.escapeChars s.toList
  | opening tag attributes => '<' :: (beginTag tag attributes ++ ['>'])
  | closing tag => '<' :: ('/' :: tag.toList ++ ['>'])
  | void tag attributes => '<' :: (beginTag tag attributes ++ ['>'])

/-- What stands between the brackets of a tag. -/
def tag? : Token → Option (List Char)
  | text _ => none
  | opening tag attributes => some (beginTag tag attributes)
  | closing tag => some ('/' :: tag.toList)
  | void tag attributes => some (beginTag tag attributes)

/-- The same without values. -/
def bare? : Token → Option (List Char)
  | text _ => none
  | opening tag attributes => some (bareTag tag attributes)
  | closing tag => some ('/' :: tag.toList)
  | void tag attributes => some (bareTag tag attributes)

/-- The id of a description panel, if the tag begins one. -/
def panelId? : Token → Option (List Char)
  | opening tag attributes =>
    match attributes.filterMap Attribute.written? with
    | className :: id :: _ =>
      if tag = "div" ∧ className = "description".toList then some id else none
    | _ => none
  | _ => none

/-- All names are names, only `input` is void, and no element has a barred name. -/
def tidy (barred : List String) : Token → Bool
  | text _ => true
  | opening tag attributes =>
    isName tag && tag != "input" && !barred.contains tag && attributes.all (isName ·.name)
  | closing tag => isName tag && tag != "input" && !barred.contains tag
  | void tag attributes => tag == "input" && attributes.all (isName ·.name)

end Markup.Token

namespace Html

mutual
theorem write_eq : (h : Html) → (rest : List Char) →
    h.write rest = h.tokens.flatMap Token.chars ++ rest
  | .text s, rest => by simp [write, tokens, Token.chars]
  | .element tag attributes children, rest => by
    rw [write, writeTag, Attribute.foldr_writeAttribute, writeAll_eq children]
    simp [tokens, Token.chars, beginTag]
  | .void tag attributes, rest => by
    rw [write, writeTag, Attribute.foldr_writeAttribute]
    simp [tokens, Token.chars, beginTag]

theorem writeAll_eq : (hs : List Html) → (rest : List Char) →
    writeAll hs rest = (tokensAll hs).flatMap Token.chars ++ rest
  | [], rest => by simp [writeAll, tokensAll]
  | h :: hs, rest => by
    rw [writeAll, write_eq h, writeAll_eq hs, tokensAll, List.flatMap_append, List.append_assoc]
end

end Html

namespace Markup.Token

open Html (isName not_mem_of_isName not_mem_escapeChars beginTag bareTag)

variable {barred : List String} {t : Token} {ts : List Token} {tag word : String}
  {as : List Attribute}

/-! ## Tidy tokens -/

theorem tidy_opening (h : (opening tag as).tidy barred = true) :
    isName tag = true ∧ tag ≠ "input" ∧ tag ∉ barred ∧ as.all (isName ·.name) = true := by
  simpa [tidy, and_assoc] using h

theorem tidy_closing (h : (closing tag).tidy barred = true) :
    isName tag = true ∧ tag ≠ "input" ∧ tag ∉ barred := by
  simpa [tidy, and_assoc] using h

theorem tidy_void (h : (void tag as).tidy barred = true) :
    tag = "input" ∧ isName tag = true ∧ as.all (isName ·.name) = true := by
  simp only [tidy, Bool.and_eq_true, beq_iff_eq] at h
  obtain ⟨rfl, has⟩ := h
  exact ⟨rfl, by decide, has⟩

theorem tidy_mono {barred' : List String} (hsub : ∀ s ∈ barred, s ∈ barred')
    (h : t.tidy barred' = true) : t.tidy barred = true := by
  cases t with
  | text s => rfl
  | opening tag as =>
    obtain ⟨hn, hinput, hbarred, ha⟩ := tidy_opening h
    simp only [tidy, hn, ha, Bool.and_true, Bool.true_and, Bool.and_eq_true, bne_iff_ne]
    exact ⟨hinput, by simpa using mt (hsub tag) hbarred⟩
  | closing tag =>
    obtain ⟨hn, hinput, hbarred⟩ := tidy_closing h
    simp [tidy, hn, hinput, mt (hsub tag) hbarred]
  | void tag as => exact h

/-- A token is a text without brackets, or a tag with brackets around it and none inside. -/
theorem chars_cases (h : t.tidy barred = true) :
    (t.tag? = none ∧ '<' ∉ t.chars) ∨
      ∃ raw, t.tag? = some raw ∧ t.chars = '<' :: (raw ++ ['>']) ∧ '<' ∉ raw ∧ '>' ∉ raw := by
  cases t with
  | text s => exact Or.inl ⟨rfl, not_mem_escapeChars (by simp) s.toList⟩
  | opening tag as =>
    obtain ⟨hn, -, -, ha⟩ := tidy_opening h
    exact Or.inr ⟨_, rfl, rfl, Html.not_mem_beginTag hn ha (by simp),
      Html.not_mem_beginTag hn ha (by simp)⟩
  | closing tag =>
    obtain ⟨hn, -, -⟩ := tidy_closing h
    have hopen : '<' ∉ tag.toList := not_mem_of_isName hn (by decide)
    have hclose : '>' ∉ tag.toList := not_mem_of_isName hn (by decide)
    exact Or.inr ⟨_, rfl, rfl, by simp [hopen], by simp [hclose]⟩
  | void tag as =>
    obtain ⟨-, hn, ha⟩ := tidy_void h
    exact Or.inr ⟨_, rfl, rfl, Html.not_mem_beginTag hn ha (by simp),
      Html.not_mem_beginTag hn ha (by simp)⟩

/-- **A reader finds the tags that were written.** -/
theorem rawTags_chars (h : ts.all (tidy barred) = true) (rest : List Char) :
    rawTags (ts.flatMap chars ++ rest) = ts.filterMap tag? ++ rawTags rest := by
  induction ts with
  | nil => rfl
  | cons t ts ih =>
    rw [List.all_cons, Bool.and_eq_true] at h
    rw [List.flatMap_cons, List.append_assoc]
    rcases chars_cases h.1 with ⟨hnone, hopen⟩ | ⟨raw, htag, hchars, -, hclose⟩
    · rw [rawTags_append hopen, ih h.2, List.filterMap_cons_none hnone]
    · rw [hchars, List.cons_append, List.append_assoc, List.singleton_append, rawTags_tag hclose,
        ih h.2, List.filterMap_cons_some htag, List.cons_append]

/-- An end tag has no quotes. -/
theorem splitOn_closing (h : (closing tag).tidy barred = true) :
    ('/' :: tag.toList).splitOn '"' = ['/' :: tag.toList] := by
  have hq : '"' ∉ tag.toList := not_mem_of_isName (tidy_closing h).1 (by decide)
  exact List.splitOn_eq_singleton (by simpa using hq)

theorem bare_tag? (h : t.tidy barred = true) : t.tag?.map Markup.bare = t.bare? := by
  cases t with
  | text s => rfl
  | opening tag as =>
    obtain ⟨hn, -, -, ha⟩ := tidy_opening h
    exact congrArg some (Html.bare_beginTag hn ha)
  | closing tag => simp [tag?, bare?, Markup.bare, splitOn_closing h, outside]
  | void tag as =>
    obtain ⟨-, hn, ha⟩ := tidy_void h
    exact congrArg some (Html.bare_beginTag hn ha)

theorem map_bare_tag? (h : ts.all (tidy barred) = true) :
    (ts.filterMap tag?).map Markup.bare = ts.filterMap bare? := by
  rw [List.map_filterMap]
  exact List.filterMap_congr fun t ht => bare_tag? (List.all_eq_true.mp h t ht)

/-! ## Elements -/

theorem afterTag_opening (h : (opening tag as).tidy barred = true) (elements : List (List Char)) :
    afterTag elements (bareTag tag as) = some (tag.toList :: elements) := by
  obtain ⟨hn, hne, -⟩ := tidy_opening h
  have hinput : tag.toList ≠ "input".toList := fun heq => hne (String.toList_inj.mp heq)
  rw [afterTag_of_ne (Html.bareTag_ne_slash hn as), Html.name_bareTag hn, if_neg hinput]

theorem afterTag_void (h : (void tag as).tidy barred = true) (elements : List (List Char)) :
    afterTag elements (bareTag tag as) = some elements := by
  obtain ⟨hinput, hn, -⟩ := tidy_void h
  rw [afterTag_of_ne (Html.bareTag_ne_slash hn as), Html.name_bareTag hn,
    if_pos (congrArg String.toList hinput)]

mutual
/-- **A piece leaves open what was open before it**, and nothing else. -/
theorem afterTag_tokens : (h : Html) → h.tokens.all (tidy barred) = true →
    (elements : List (List Char)) →
    (h.tokens.filterMap bare?).foldlM afterTag elements = some elements
  | .text s, _, elements => rfl
  | .element tag attributes children, htidy, elements => by
    simp only [Html.tokens, List.all_cons, List.all_append, Bool.and_eq_true] at htidy
    obtain ⟨hopen, hchildren, -⟩ := htidy
    have hinner := afterTag_tokensAll children hchildren (tag.toList :: elements)
    simp only [Html.tokens, bare?, List.filterMap_cons, List.filterMap_append, List.filterMap_nil,
      List.foldlM_cons, List.foldlM_append, List.foldlM_nil, afterTag_opening hopen, hinner,
      Option.bind_eq_bind, Option.bind_some, afterTag_end]
    rfl
  | .void tag attributes, htidy, elements => by
    simp only [Html.tokens, List.all_cons, Bool.and_eq_true] at htidy
    simp only [Html.tokens, bare?, List.filterMap_cons, List.filterMap_nil, List.foldlM_cons,
      List.foldlM_nil, afterTag_void htidy.1, Option.bind_eq_bind, Option.bind_some]
    rfl

theorem afterTag_tokensAll : (hs : List Html) → (Html.tokensAll hs).all (tidy barred) = true →
    (elements : List (List Char)) →
    ((Html.tokensAll hs).filterMap bare?).foldlM afterTag elements = some elements
  | [], _, elements => rfl
  | h :: hs, htidy, elements => by
    rw [Html.tokensAll, List.all_append, Bool.and_eq_true] at htidy
    rw [Html.tokensAll, List.filterMap_append, List.foldlM_append, afterTag_tokens h htidy.1,
      Option.bind_eq_bind, Option.bind_some, afterTag_tokensAll hs htidy.2]
end

/-! ## List items -/

theorem itemDepths_opening (h : (opening tag as).tidy barred = true) (hli : tag ≠ "li")
    (depth : Nat) (tags : List (List Char)) :
    itemDepths depth (bareTag tag as :: tags) = itemDepths depth tags := by
  obtain ⟨hn, -⟩ := tidy_opening h
  have hbegin : tag.toList ≠ "li".toList := fun heq => hli (String.toList_inj.mp heq)
  have hend : bareTag tag as ≠ "/li".toList := Html.bareTag_ne_slash hn as _
  rw [itemDepths, Html.name_bareTag hn, if_neg hbegin, if_neg hend]

theorem itemDepths_closing (hli : tag ≠ "li") (depth : Nat) (tags : List (List Char)) :
    itemDepths depth (('/' :: tag.toList) :: tags) = itemDepths depth tags := by
  have hbegin : Markup.name ('/' :: tag.toList) ≠ "li".toList := by simp [Markup.name]
  have hend : '/' :: tag.toList ≠ "/li".toList := fun heq =>
    hli (String.toList_inj.mp (List.cons.inj heq).2)
  rw [itemDepths, if_neg hbegin, if_neg hend]

theorem itemDepths_void (h : (void tag as).tidy barred = true) (depth : Nat)
    (tags : List (List Char)) :
    itemDepths depth (bareTag tag as :: tags) = itemDepths depth tags := by
  obtain ⟨rfl, hn, -⟩ := tidy_void h
  have hend : bareTag "input" as ≠ "/li".toList := Html.bareTag_ne_slash hn as _
  rw [itemDepths, Html.name_bareTag hn, if_neg (by decide), if_neg hend]

/-- Where no list item begins, no depth changes. -/
theorem itemDepths_tokens (h : ts.all (tidy barred) = true) (hli : "li" ∈ barred) (depth : Nat)
    (tags : List (List Char)) :
    itemDepths depth (ts.filterMap bare? ++ tags) = itemDepths depth tags := by
  induction ts with
  | nil => rfl
  | cons t ts ih =>
    rw [List.all_cons, Bool.and_eq_true] at h
    obtain ⟨ht, hts⟩ := h
    rw [← ih hts]
    cases t with
    | text s => rfl
    | opening tag as =>
      have hne : tag ≠ "li" := fun heq => (tidy_opening ht).2.2.1 (heq ▸ hli)
      exact itemDepths_opening ht hne depth _
    | closing tag =>
      have hne : tag ≠ "li" := fun heq => (tidy_closing ht).2.2 (heq ▸ hli)
      exact itemDepths_closing hne depth _
    | void tag as => exact itemDepths_void ht depth _

/-! ## Description panels -/

@[simp] theorem panelId?_text (s : String) : (text s).panelId? = none := rfl

@[simp] theorem panelId?_closing : (closing tag).panelId? = none := rfl

@[simp] theorem panelId?_void : (void tag as).panelId? = none := rfl

@[simp] theorem panelId?_bare : (opening tag []).panelId? = none := rfl

/-- A class alone makes no description panel. -/
@[simp] theorem panelId?_single (a : Attribute) : (opening tag [a]).panelId? = none := by
  cases a <;> rfl

/-- Where there is no `div`, there is no description panel. -/
theorem panelId?_eq_none (h : t.tidy barred = true) (hdiv : "div" ∈ barred) :
    t.panelId? = none := by
  cases t with
  | opening tag as =>
    have hne : tag ≠ "div" := fun heq => (tidy_opening h).2.2.1 (heq ▸ hdiv)
    simp only [panelId?, hne, false_and, if_false]
    split <;> rfl
  | _ => rfl

theorem panelId?_tag? (h : t.tidy barred = true) : t.tag?.bind Markup.panelId? = t.panelId? := by
  cases t with
  | text s => rfl
  | opening tag as =>
    obtain ⟨hn, -, -, ha⟩ := tidy_opening h
    have hdiv : tag.toList = "div".toList ↔ tag = "div" := String.toList_inj
    have hvalues := Html.values_beginTag hn ha
    unfold panelId? Markup.panelId?
    rcases hwritten : as.filterMap Attribute.written? with _ | ⟨className, _ | ⟨id, rest⟩⟩ <;>
      simp only [tag?, Option.bind_some, hvalues, hwritten, Html.name_beginTag hn, hdiv]
  | closing tag => simp [tag?, panelId?, Markup.panelId?, values, splitOn_closing h, quoted]
  | void tag as =>
    obtain ⟨rfl, hn, -⟩ := tidy_void h
    have hdiv : "input".toList ≠ "div".toList := by decide
    simp only [tag?, Option.bind_some, Markup.panelId?, panelId?, Html.name_beginTag hn, hdiv,
      false_and, if_false]
    split <;> rfl

theorem filterMap_panelId? (h : ts.all (tidy barred) = true) :
    (ts.filterMap tag?).filterMap Markup.panelId? = ts.filterMap panelId? := by
  rw [List.filterMap_filterMap]
  exact List.filterMap_congr fun t ht => panelId?_tag? (List.all_eq_true.mp h t ht)

/-! ## Marks -/

/-- No tag is a barred name alone. -/
theorem tag?_ne (h : t.tidy barred = true) (hword : word ∈ barred) (hw : isName word = true)
    (hinput : word ≠ "input") : t.tag? ≠ some word.toList := by
  have hself : Markup.name word.toList = word.toList := by
    simpa [bareTag] using Html.name_bareTag hw []
  intro htag
  cases t with
  | text s => cases htag
  | opening tag as =>
    obtain ⟨hn, -, hbarred, -⟩ := tidy_opening h
    have hname := Html.name_beginTag hn as
    rw [Option.some.inj htag, hself, String.toList_inj] at hname
    exact hbarred (hname ▸ hword)
  | closing tag =>
    have hslash : '/' ∉ word.toList := not_mem_of_isName hw (by decide)
    rw [← Option.some.inj htag] at hslash
    exact hslash List.mem_cons_self
  | void tag as =>
    obtain ⟨rfl, hn, -⟩ := tidy_void h
    have hname := Html.name_beginTag hn as
    rw [Option.some.inj htag, hself, String.toList_inj] at hname
    exact hinput hname

/-- **A mark that begins with a tag** does not stand where there is no such tag. -/
theorem clear_chars (word : String) (h : ts.all (tidy barred) = true) (hword : word ∈ barred)
    (hw : isName word = true) (hinput : word ≠ "input") (more : List Char) :
    Clear ('<' :: (word.toList ++ '>' :: more)) (ts.flatMap chars) := by
  induction ts with
  | nil => trivial
  | cons t ts ih =>
    rw [List.all_cons, Bool.and_eq_true] at h
    rw [List.flatMap_cons]
    refine Clear.append ?_ (ih h.2)
    rcases chars_cases h.1 with ⟨-, hopen⟩ | ⟨raw, htag, hchars, hopen, hclose⟩
    · exact clear_of_not_mem hopen
    · have hne : word.toList ≠ raw := by
        rintro rfl
        exact tag?_ne h.1 hword hw hinput htag
      rw [hchars]
      exact clear_of_tag hopen hclose (not_mem_of_isName hw (by decide)) hne

end Markup.Token

end EntryReport
