import EntryReport.Proofs.Report.Markup

/-!
# Tags with their attributes

A reader who takes a tag apart finds its name and its attributes (`Tag`). What stands in quotes is a
value, in which entities stand for characters (`Html.unescapeChars`), and the word in front of it is
its name. Of a tag that was written these are the name and the attributes with the values that were
given, whatever characters they hold (`readTag_beginTag`).
-/

namespace EntryReport

/-! ## Entities -/

namespace Html

/-- The characters with each entity replaced by what it stands for, from left to right. -/
def unescapeChars : List Char → List Char
  | '&' :: 'a' :: 'm' :: 'p' :: ';' :: cs => '&' :: unescapeChars cs
  | '&' :: 'l' :: 't' :: ';' :: cs => '<' :: unescapeChars cs
  | '&' :: 'g' :: 't' :: ';' :: cs => '>' :: unescapeChars cs
  | '&' :: 'q' :: 'u' :: 'o' :: 't' :: ';' :: cs => '"' :: unescapeChars cs
  | '&' :: '#' :: '3' :: '9' :: ';' :: cs => '\'' :: unescapeChars cs
  | c :: cs => c :: unescapeChars cs
  | [] => []

/-- Only an ampersand begins an entity. -/
theorem unescapeChars_cons {c : Char} (h : c ≠ '&') (cs : List Char) :
    unescapeChars (c :: cs) = c :: unescapeChars cs := by
  rw [unescapeChars.eq_def]
  split <;> simp_all

theorem unescapeChars_escapeChar (c : Char) (cs : List Char) :
    unescapeChars (escapeChar c ++ cs) = c :: unescapeChars cs := by
  rcases escapeChar_cases c with ⟨entity, hmem, hc⟩ | ⟨hplain, hc⟩
  · rw [hc]
    simp only [entities, List.mem_cons, Prod.mk.injEq, List.not_mem_nil, or_false] at hmem
    rcases hmem with ⟨rfl, rfl⟩ | ⟨rfl, rfl⟩ | ⟨rfl, rfl⟩ | ⟨rfl, rfl⟩ | ⟨rfl, rfl⟩ <;>
      simp [unescapeChars]
  · have hamp : c ≠ '&' := by
      rintro rfl
      exact hplain (by decide)
    rw [hc, List.singleton_append, unescapeChars_cons hamp]

/-- **What is escaped is read back.** -/
theorem unescapeChars_escapeChars (cs : List Char) : unescapeChars (escapeChars cs) = cs := by
  unfold escapeChars
  induction cs with
  | nil => rfl
  | cons c cs ih => rw [List.flatMap_cons, unescapeChars_escapeChar, ih]

end Html

namespace Attribute

/-- The name and the value of an attribute, if it has a value. -/
def pair? : Attribute → Option (String × String)
  | .value name v => some (name, v)
  | .flag _ => none

end Attribute

/-! ## Reading a tag -/

namespace Markup

/-- A tag at the begin of an element, as a reader takes it apart. -/
structure Tag where
  name : String
  attributes : List (String × String)
deriving DecidableEq, Repr

namespace Tag

/-- The value of an attribute. -/
def value? (key : String) (tag : Tag) : Option String :=
  tag.attributes.lookup key

/-- The class is one of those that the tag has. -/
def hasClass (className : String) (tag : Tag) : Bool :=
  (tag.value? "class").any fun s => (s.toList.splitOn ' ').contains className.toList

end Tag

/-- The last word of what stands in front of a value, without the equals sign. -/
def attributeName (front : List Char) : List Char :=
  (front.reverse.takeWhile (· ≠ ' ')).tail.reverse

/-- The attributes of a tag that was cut at its quotes. -/
def readAttributes : List (List Char) → List (String × String)
  | front :: value :: rest =>
    (.ofList (attributeName front), .ofList (Html.unescapeChars value)) :: readAttributes rest
  | _ => []

/-- A tag, taken apart. -/
def readTag (tag : List Char) : Tag :=
  ⟨.ofList (name tag), readAttributes (tag.splitOn '"')⟩

/-- The tags of a text that begin elements. -/
def readTags (cs : List Char) : List Tag :=
  ((rawTags cs).filter (·.head? ≠ some '/')).map readTag

end Markup

open Markup

namespace Attribute

open Html (isName not_mem_of_isName)

variable {as : List Attribute}

/-- A name has no blank in it. -/
theorem attributeName_append {name : List Char} (h : ' ' ∉ name) (head : List Char) :
    attributeName (head ++ ' ' :: (name ++ ['='])) = name := by
  have hword : ∀ c ∈ '=' :: name.reverse, decide (c ≠ ' ') = true := by
    intro c hc
    rw [decide_eq_true_eq]
    rintro rfl
    rcases List.mem_cons.mp hc with heq | hmem
    · exact absurd heq (by decide)
    · exact h (List.mem_reverse.mp hmem)
  have hreverse : (head ++ ' ' :: (name ++ ['='])).reverse =
      ('=' :: name.reverse) ++ ' ' :: head.reverse := by simp
  rw [attributeName, hreverse, List.takeWhile_append_of_pos hword]
  simp

theorem readAttributes_pieces (ha : as.all (isName ·.name) = true) (head : List Char) :
    readAttributes (pieces head as) = as.filterMap pair? := by
  induction as generalizing head with
  | nil => rfl
  | cons a as ih =>
    rw [List.all_cons, Bool.and_eq_true] at ha
    have hname : ' ' ∉ a.name.toList := not_mem_of_isName ha.1 (by decide)
    cases a with
    | value name v =>
      simp only [Attribute.name] at hname
      rw [pieces, readAttributes, attributeName_append hname, Html.unescapeChars_escapeChars,
        ih ha.2, String.ofList_toList, String.ofList_toList]
      rfl
    | flag name =>
      rw [pieces, ih ha.2]
      rfl

end Attribute

namespace Html

/-- **A tag is read as it was meant.** -/
theorem readTag_beginTag {tag : String} {as : List Attribute} (hn : isName tag = true)
    (ha : as.all (isName ·.name) = true) :
    readTag (beginTag tag as) = ⟨tag, as.filterMap Attribute.pair?⟩ := by
  have hcut := Attribute.splitOn_chars ha (not_mem_of_isName hn (by decide))
  rw [readTag, name_beginTag hn, String.ofList_toList, beginTag, hcut,
    Attribute.readAttributes_pieces ha]

end Html

/-! ## The tags of a piece -/

namespace Markup.Token

open Html (beginTag)

variable {barred : List String} {t : Token} {ts : List Token}

/-- The tag of a token that begins an element. -/
def begin? : Token → Option Tag
  | text _ => none
  | opening tag attributes => some ⟨tag, attributes.filterMap Attribute.pair?⟩
  | closing _ => none
  | void tag attributes => some ⟨tag, attributes.filterMap Attribute.pair?⟩

/-- The tags of a piece that begin elements. -/
theorem begin?_eq (h : t.tidy barred = true) :
    (t.tag?.filter (·.head? ≠ some '/')).map readTag = t.begin? := by
  have hslash {tag : String} (hn : Html.isName tag = true) (as : List Attribute) :
      (beginTag tag as).head? ≠ some '/' :=
    Html.head?_append_ne_slash hn Attribute.exists_chars_eq as
  cases t with
  | text s => rfl
  | opening tag as =>
    obtain ⟨hn, -, -, ha⟩ := tidy_opening h
    simp [tag?, begin?, Option.filter_some, hslash hn, Html.readTag_beginTag hn ha]
  | closing tag => rfl
  | void tag as =>
    obtain ⟨-, hn, ha⟩ := tidy_void h
    simp [tag?, begin?, Option.filter_some, hslash hn, Html.readTag_beginTag hn ha]

theorem readTags_eq (h : ts.all (tidy barred) = true) :
    ((ts.filterMap tag?).filter (·.head? ≠ some '/')).map readTag = ts.filterMap begin? := by
  rw [List.filter_filterMap, List.map_filterMap]
  exact List.filterMap_congr fun t ht => begin?_eq (List.all_eq_true.mp h t ht)

end Markup.Token

end EntryReport
