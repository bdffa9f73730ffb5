import EntryReport.Report.Html
import Mathlib.Data.List.Infix

/-!
# Tags in a text

What a reader makes of a text who knows of markup only that a tag goes from a `<` to the next `>`.

* `rawTags`: the tags of a text; `bare`: a tag without its quoted values; `values`: these values;
* `Balanced`: every end tag ends the element that was begun last, and no element is left open;
* `itemDepths`: for each list item, how many others it stands in;
* `after`, `upTo`: a text from a mark on, and up to one.

The lemmas say what is read from a text that begins with a known part.
-/

namespace EntryReport.Markup

variable {c : Char} {cs rest mark word more : List Char}

/-! ## Tags -/

/-- The tags of a text, where `read` are the characters of the tag in which it begins, last first,
if it begins in one. -/
def tagsFrom : (read : Option (List Char)) → List Char → List (List Char)
  | _, [] => []
  | none, c :: cs => if c = '<' then tagsFrom (some []) cs else tagsFrom none cs
  | some read, c :: cs =>
    if c = '>' then read.reverse :: tagsFrom none cs else tagsFrom (some (c :: read)) cs

/-- The tags of a text: what stands from each `<` to the next `>`. -/
def rawTags (cs : List Char) : List (List Char) :=
  tagsFrom none cs

theorem rawTags_append (h : '<' ∉ cs) (rest : List Char) : rawTags (cs ++ rest) = rawTags rest := by
  induction cs with
  | nil => rfl
  | cons c cs ih =>
    rw [List.mem_cons, not_or] at h
    unfold rawTags at ih ⊢
    rw [List.cons_append, tagsFrom, if_neg (Ne.symm h.1), ih h.2]

theorem rawTags_tag (h : '>' ∉ cs) (rest : List Char) :
    rawTags ('<' :: (cs ++ '>' :: rest)) = cs :: rawTags rest := by
  have inside (read : List Char) :
      tagsFrom (some read) (cs ++ '>' :: rest) = (read.reverse ++ cs) :: rawTags rest := by
    induction cs generalizing read with
    | nil => simp [tagsFrom, rawTags]
    | cons c cs ih =>
      rw [List.mem_cons, not_or] at h
      rw [List.cons_append, tagsFrom, if_neg (Ne.symm h.1), ih h.2]
      simp
  simpa [rawTags, tagsFrom] using inside []

/-! ## One tag -/

/-- The pieces that stand outside of quotes, if the first one does. -/
def outside : List (List Char) → List Char
  | [] => []
  | [p] => p
  | p :: _ :: ps => p ++ outside ps

/-- The pieces that stand in quotes, if the first one does not. -/
def quoted : List (List Char) → List (List Char)
  | _ :: q :: ps => q :: quoted ps
  | _ => []

/-- A tag without the values in quotes. -/
def bare (tag : List Char) : List Char :=
  outside (tag.splitOn '"')

/-- The values in quotes. -/
def values (tag : List Char) : List (List Char) :=
  quoted (tag.splitOn '"')

/-- The name of a tag. -/
def name (tag : List Char) : List Char :=
  tag.takeWhile (· ≠ ' ')

/-- The id of a description panel, if the tag begins one. -/
def panelId? (tag : List Char) : Option (List Char) :=
  match values tag with
  | className :: id :: _ =>
    if name tag = "div".toList ∧ className = "description".toList then some id else none
  | _ => none

/-- The tags of a text without the values in quotes. -/
def tags (cs : List Char) : List (List Char) :=
  (rawTags cs).map bare

/-- The ids of the description panels of a text. -/
def panelIds (cs : List Char) : List (List Char) :=
  (rawTags cs).filterMap panelId?

/-! ## Elements -/

/-- The names of the open elements, the last one first, after one more tag: none if it ends another
element than the last one. Only `input` has no end. -/
def afterTag (elements : List (List Char)) (tag : List Char) : Option (List (List Char)) :=
  match tag, elements with
  | '/' :: ended, element :: outer => if element = ended then some outer else none
  | '/' :: _, [] => none
  | tag, elements =>
    if name tag = "input".toList then some elements else some (name tag :: elements)

theorem afterTag_of_ne {tag : List Char} (h : ∀ ended, tag ≠ '/' :: ended)
    (elements : List (List Char)) :
    afterTag elements tag =
      if name tag = "input".toList then some elements else some (name tag :: elements) := by
  unfold afterTag
  split
  · exact absurd rfl (h _)
  · exact absurd rfl (h _)
  · rfl

theorem afterTag_end (element : List Char) (outer : List (List Char)) :
    afterTag (element :: outer) ('/' :: element) = some outer := by
  simp [afterTag]

/-- Every end tag ends the element that was begun last, and no element is left open. -/
def Balanced (tags : List (List Char)) : Prop :=
  tags.foldlM afterTag [] = some []

/-- For each list item the number of list items around it, within `depth` others. -/
def itemDepths : (depth : Nat) → List (List Char) → List Nat
  | _, [] => []
  | depth, tag :: tags =>
    if name tag = "li".toList then depth :: itemDepths (depth + 1) tags
    else if tag = "/li".toList then itemDepths (depth - 1) tags
    else itemDepths depth tags

/-! ## Parts of a text -/

/-- What comes after the first place where the mark stands. -/
def after (mark : List Char) : List Char → List Char
  | [] => []
  | c :: cs =>
    if mark.isPrefixOf (c :: cs) then (c :: cs).drop mark.length else after mark cs

/-- What comes before the first place where the mark stands. -/
def upTo (mark : List Char) : List Char → List Char
  | [] => []
  | c :: cs => if mark.isPrefixOf (c :: cs) then [] else c :: upTo mark cs

/-- The mark begins nowhere in the characters, whatever follows them. -/
def Clear (mark : List Char) : List Char → Prop
  | [] => True
  | c :: cs => (∀ rest, ¬ mark <+: c :: (cs ++ rest)) ∧ Clear mark cs

theorem after_append (h : Clear mark cs) (rest : List Char) :
    after mark (cs ++ rest) = after mark rest := by
  induction cs with
  | nil => rfl
  | cons c cs ih =>
    have hno : ¬ mark.isPrefixOf (c :: (cs ++ rest)) = true :=
      fun hp => h.1 rest (List.isPrefixOf_iff_prefix.mp hp)
    rw [List.cons_append, after, if_neg hno, ih h.2]

theorem after_mark (rest : List Char) : after (c :: cs) (c :: (cs ++ rest)) = rest := by
  have hp : (c :: cs).isPrefixOf (c :: (cs ++ rest)) = true :=
    List.isPrefixOf_iff_prefix.mpr (List.prefix_append (c :: cs) rest)
  rw [after, if_pos hp]
  exact List.drop_left

theorem upTo_append (h : Clear mark cs) (rest : List Char) :
    upTo mark (cs ++ rest) = cs ++ upTo mark rest := by
  induction cs with
  | nil => rfl
  | cons c cs ih =>
    have hno : ¬ mark.isPrefixOf (c :: (cs ++ rest)) = true :=
      fun hp => h.1 rest (List.isPrefixOf_iff_prefix.mp hp)
    rw [List.cons_append, upTo, if_neg hno, ih h.2, List.cons_append]

theorem upTo_of_prefix (h : mark <+: cs) : upTo mark cs = [] := by
  cases cs with
  | nil => rfl
  | cons c cs => rw [upTo, if_pos (List.isPrefixOf_iff_prefix.mpr h)]

theorem Clear.append {ds : List Char} (hc : Clear mark cs) (hd : Clear mark ds) :
    Clear mark (cs ++ ds) := by
  induction cs with
  | nil => exact hd
  | cons c cs ih =>
    rw [List.cons_append]
    refine ⟨fun rest => ?_, ih hc.2⟩
    rw [List.append_assoc]
    exact hc.1 (ds ++ rest)

/-- A mark begins nowhere where its first character does not stand. -/
theorem clear_of_not_mem (h : c ∉ cs) : Clear (c :: mark) cs := by
  induction cs with
  | nil => trivial
  | cons d cs ih =>
    rw [List.mem_cons, not_or] at h
    exact ⟨fun rest hp => h.1 (List.cons_prefix_cons.mp hp).1, ih h.2⟩

/-- What is a prefix of a longer text ends before a character that it does not hold. -/
theorem prefix_of_prefix_append_cons (cs rest : List Char) (h : c ∉ mark)
    (hp : mark <+: cs ++ c :: rest) : mark <+: cs := by
  have hc : cs ++ [c] <+: cs ++ c :: rest := by simp
  rcases List.prefix_or_prefix_of_prefix hp hc with hm | hm
  · obtain rfl | hm := List.prefix_concat_iff.mp hm
    · exact absurd (List.mem_append_right cs (List.mem_singleton_self c)) h
    · exact hm
  · exact absurd (hm.subset (List.mem_append_right cs (List.mem_singleton_self c))) h

/-- A mark of one line begins nowhere in a line that it does not stand in. -/
theorem clear_of_line (hmark : '\n' ∉ mark) (h : ¬ mark <:+: cs) : Clear mark (cs ++ ['\n']) := by
  induction cs with
  | nil =>
    refine ⟨fun rest hp => h ?_, trivial⟩
    exact (prefix_of_prefix_append_cons [] rest hmark hp).isInfix
  | cons c cs ih =>
    rw [List.cons_append]
    refine ⟨fun rest hp => h ?_, ih fun hi => h (List.infix_cons hi)⟩
    rw [List.append_assoc] at hp
    exact (prefix_of_prefix_append_cons (c :: cs) rest hmark hp).isInfix

/-- A mark that begins with a tag begins nowhere in another tag. -/
theorem clear_of_tag (hopen : '<' ∉ cs) (hclose : '>' ∉ cs) (hword : '>' ∉ word) (hne : word ≠ cs) :
    Clear ('<' :: (word ++ '>' :: more)) ('<' :: (cs ++ ['>'])) := by
  refine ⟨fun rest hp => hne ?_, clear_of_not_mem (by simpa using hopen)⟩
  obtain ⟨tail, htail⟩ := (List.cons_prefix_cons.mp hp).2
  have hw : word <+: cs := by
    refine prefix_of_prefix_append_cons cs rest hword ⟨'>' :: (more ++ tail), ?_⟩
    simpa using htail
  have hc : cs <+: word := by
    refine prefix_of_prefix_append_cons word (more ++ tail) hclose ⟨'>' :: rest, ?_⟩
    simpa using htail.symm
  exact hw.eq_of_length (le_antisymm hw.length_le hc.length_le)

end EntryReport.Markup
