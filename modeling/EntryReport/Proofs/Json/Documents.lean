import EntryReport.Json.Decode
import EntryReport.Proofs.Json.Writing

/-!
# The document of a text

From the tokens of a document `Progress.step` makes the document again, and settles it in whatever
is open around it (`foldl_lexemes`). So a text that spells a document is read as the document, and
ends there (`Doc.SpelledBy.ofText`).

What was written spells `Doc.asRead`, which is what is read of the value (`Document.ofText_asRead`).
If every number in the value is an integer of 64 bits, it is the document of the value itself
(`Document.ofText_text`).
-/

namespace EntryReport.Json

/-! ## What is read of a value -/

mutual
/-- What is read of a value: its document, but with each number as it is read. -/
def Doc.asRead : Json → Doc
  | .null => .null
  | .bool b => .bool b
  | .num n => .number n.asRead
  | .str s => .string (some s)
  | .arr values => .arr (Items.asRead values)
  | .obj members => .obj (Members.asRead members)

/-- What is read of the items of an array. -/
def Items.asRead : List Json → Items
  | [] => .closed
  | value :: rest => .item (Doc.asRead value) (Items.asRead rest)

/-- What is read of the members of an object. -/
def Members.asRead : List (String × Json) → Members
  | [] => .closed
  | (key, value) :: rest => .member (some key) (Doc.asRead value) (Members.asRead rest)
end

mutual
/-- Integers of 64 bits are read as they are. -/
theorem Doc.asRead_of_integral : (j : Json) → j.Integral → Doc.asRead j = Doc.ofJson j
  | .null, _ | .bool _, _ | .str _, _ => rfl
  | .num n, h => by rw [Doc.asRead, Doc.ofJson, Number.asRead_of_integral h]
  | .arr values, h => by rw [Doc.asRead, Doc.ofJson, Items.asRead_of_integral values h]
  | .obj members, h => by rw [Doc.asRead, Doc.ofJson, Members.asRead_of_integral members h]

theorem Items.asRead_of_integral : (values : List Json) → AllIntegral values →
    Items.asRead values = Items.ofJson values
  | [], _ => rfl
  | value :: values, h => by
    rw [Items.asRead, Items.ofJson, Doc.asRead_of_integral value h.1,
      Items.asRead_of_integral values h.2]

theorem Members.asRead_of_integral : (members : List (String × Json)) → MembersIntegral members →
    Members.asRead members = Members.ofJson members
  | [], _ => rfl
  | (key, value) :: members, h => by
    rw [Members.asRead, Members.ofJson, Doc.asRead_of_integral value h.1,
      Members.asRead_of_integral members h.2]
end

/-! ## The tokens of a document -/

mutual
/-- The tokens of a document. -/
def Doc.lexemes : Doc → List Token
  | .null => [.null]
  | .bool b => [.bool b]
  | .number n => [.number n]
  | .string s => [.string s]
  | .arr items => .openArr :: items.lexemes []
  | .obj members => .openObj :: members.lexemes []
  | .fault => [.fault]

/-- The tokens of items and of what ends them, with `before` in front of the first item. -/
def Items.lexemes (before : List Token) : Items → List Token
  | .closed => [.closeArr]
  | .broken => [.fault]
  | .item value rest => before ++ (value.lexemes ++ rest.lexemes [.comma])

/-- The tokens of members and of what ends them, with `before` in front of the first member. -/
def Members.lexemes (before : List Token) : Members → List Token
  | .closed => [.closeObj]
  | .broken => [.fault]
  | .member key value rest =>
    before ++ .string key :: .colon :: (value.lexemes ++ rest.lexemes [.comma])
end

/-- The text spells the document: it is cut into the tokens of the document, and these come to an
end. Blanks between the tokens, and the spelling of a text or a number, do not matter. -/
def Doc.SpelledBy (d : Doc) (s : String) : Prop :=
  d.wellFormed = true ∧ tokens s.toList = d.lexemes

/-! ## Reading the tokens of a document -/

/-- The first item of an array is read like any other value. -/
theorem foldl_lexemes_itemOrEnd (stack : List Open) (d : Doc) :
    d.lexemes.foldl Progress.step (.reading .itemOrEnd stack) =
      d.lexemes.foldl Progress.step (.reading .value stack) := by
  cases d <;> rw [Doc.lexemes] <;> rfl

mutual
/-- **The tokens of a document are read as the document,** which goes into what is open around
it. -/
theorem foldl_lexemes (stack : List Open) : (d : Doc) → d.wellFormed = true →
    d.lexemes.foldl Progress.step (.reading .value stack) = settle d stack
  | .null, _ | .bool _, _ | .number _, _ | .string _, _ => by rw [Doc.lexemes]; rfl
  | .fault, h => by cases h
  | .arr .closed, _ => by rw [Doc.lexemes, Items.lexemes]; rfl
  | .arr .broken, h => by cases h
  | .arr (.item value rest), h => by
    rw [Doc.wellFormed, Items.wellFormed, Bool.and_eq_true] at h
    have hbegin : Progress.step (.reading .value stack) .openArr =
        .reading .itemOrEnd (.arr [] :: stack) := rfl
    rw [Doc.lexemes, Items.lexemes, List.nil_append, List.foldl_cons, hbegin, List.foldl_append,
      foldl_lexemes_itemOrEnd, foldl_lexemes (.arr [] :: stack) value h.1, settle,
      foldl_itemLexemes stack [value] rest h.2]
    rfl
  | .obj .closed, _ => by rw [Doc.lexemes, Members.lexemes]; rfl
  | .obj .broken, h => by cases h
  | .obj (.member key value rest), h => by
    rw [Doc.wellFormed, Members.wellFormed, Bool.and_eq_true] at h
    have hbegin : Progress.step (Progress.step (Progress.step (.reading .value stack) .openObj)
        (.string key)) .colon = .reading .value (.value [] key :: stack) := rfl
    rw [Doc.lexemes, Members.lexemes, List.nil_append, List.foldl_cons, List.foldl_cons,
      List.foldl_cons, hbegin, List.foldl_append, foldl_lexemes (.value [] key :: stack) value h.1,
      settle, foldl_memberLexemes stack [(key, value)] rest h.2]
    rfl

/-- Further items follow those that the array holds. -/
theorem foldl_itemLexemes (stack : List Open) (done : List Doc) : (items : Items) →
    items.wellFormed = true →
    (items.lexemes [.comma]).foldl Progress.step (.reading .commaOrEnd (.arr done :: stack)) =
      settle (.arr (.ofReversed done items)) stack
  | .closed, _ => by rw [Items.lexemes]; rfl
  | .broken, h => by cases h
  | .item value rest, h => by
    rw [Items.wellFormed, Bool.and_eq_true] at h
    have hcomma : Progress.step (.reading .commaOrEnd (.arr done :: stack)) .comma =
        .reading .value (.arr done :: stack) := rfl
    rw [Items.lexemes, List.singleton_append, List.foldl_cons, hcomma, List.foldl_append,
      foldl_lexemes (.arr done :: stack) value h.1, settle,
      foldl_itemLexemes stack (value :: done) rest h.2]
    rfl

/-- Further members follow those that the object holds. -/
theorem foldl_memberLexemes (stack : List Open) (done : List (Option String × Doc)) :
    (members : Members) → members.wellFormed = true →
    (members.lexemes [.comma]).foldl Progress.step (.reading .commaOrEnd (.obj done :: stack)) =
      settle (.obj (.ofReversed done members)) stack
  | .closed, _ => by rw [Members.lexemes]; rfl
  | .broken, h => by cases h
  | .member key value rest, h => by
    rw [Members.wellFormed, Bool.and_eq_true] at h
    have hmember : Progress.step (Progress.step (Progress.step
        (.reading .commaOrEnd (.obj done :: stack)) .comma) (.string key)) .colon =
          .reading .value (.value done key :: stack) := rfl
    rw [Members.lexemes, List.singleton_append, List.foldl_cons, List.foldl_cons, List.foldl_cons,
      hmember, List.foldl_append, foldl_lexemes (.value done key :: stack) value h.1, settle,
      foldl_memberLexemes stack ((key, value) :: done) rest h.2]
    rfl
end

/-- **A text that spells a document** is read as the document, to its end. -/
theorem Doc.SpelledBy.ofText {d : Doc} {s : String} (h : d.SpelledBy s) :
    Document.ofText s = ⟨d, true⟩ := by
  rw [Document.ofText, Document.ofTokens, h.2, foldl_lexemes [] d h.1]
  rfl

/-! ## The tokens of a value -/

mutual
/-- What is read of a value has the tokens of the value. -/
theorem lexemes_asRead : (j : Json) → (Doc.asRead j).lexemes = lexemes j
  | .null | .bool _ | .num _ | .str _ => by rw [lexemes, Doc.asRead, Doc.lexemes]
  | .arr [] => by rw [lexemes, Doc.asRead, Items.asRead, Doc.lexemes, Items.lexemes]
  | .arr (value :: values) => by
    rw [lexemes, Doc.asRead, Items.asRead, Doc.lexemes, Items.lexemes, List.nil_append,
      lexemes_asRead value, itemLexemes_asRead values, List.append_assoc]
  | .obj [] => by rw [lexemes, Doc.asRead, Members.asRead, Doc.lexemes, Members.lexemes]
  | .obj ((key, value) :: members) => by
    rw [lexemes, Doc.asRead, Members.asRead, Doc.lexemes, Members.lexemes, List.nil_append,
      lexemes_asRead value, memberLexemes_asRead members, List.append_assoc]

theorem itemLexemes_asRead : (values : List Json) →
    (Items.asRead values).lexemes [.comma] = itemLexemes values ++ [.closeArr]
  | [] => by rw [itemLexemes, Items.asRead, Items.lexemes, List.nil_append]
  | value :: values => by
    rw [itemLexemes, Items.asRead, Items.lexemes, lexemes_asRead value, itemLexemes_asRead values,
      List.singleton_append, List.cons_append, List.append_assoc]

theorem memberLexemes_asRead : (members : List (String × Json)) →
    (Members.asRead members).lexemes [.comma] = memberLexemes members ++ [.closeObj]
  | [] => by rw [memberLexemes, Members.asRead, Members.lexemes, List.nil_append]
  | (key, value) :: members => by
    rw [memberLexemes, Members.asRead, Members.lexemes, lexemes_asRead value,
      memberLexemes_asRead members, List.singleton_append, List.cons_append, List.cons_append,
      List.cons_append, List.append_assoc]
end

mutual
/-- What is read of a value comes to an end. -/
theorem wellFormed_asRead : (j : Json) → (Doc.asRead j).wellFormed = true
  | .null | .bool _ | .num _ | .str _ => rfl
  | .arr values => by rw [Doc.asRead, Doc.wellFormed, Items.wellFormed_asRead values]
  | .obj members => by rw [Doc.asRead, Doc.wellFormed, Members.wellFormed_asRead members]

theorem Items.wellFormed_asRead : (values : List Json) → (Items.asRead values).wellFormed = true
  | [] => rfl
  | value :: values => by
    rw [Items.asRead, Items.wellFormed, wellFormed_asRead value, Items.wellFormed_asRead values,
      Bool.and_self]

theorem Members.wellFormed_asRead : (members : List (String × Json)) →
    (Members.asRead members).wellFormed = true
  | [] => rfl
  | (_, value) :: members => by
    rw [Members.asRead, Members.wellFormed, wellFormed_asRead value,
      Members.wellFormed_asRead members, Bool.and_self]
end

/-! ## Whole texts -/

/-- A text that was written spells what is read of the value. -/
theorem spelledBy_text {layout : Layout} (hlayout : layout.Blank) {j : Json} (hj : j.Whole) :
    (Doc.asRead j).SpelledBy (j.text layout) :=
  ⟨wellFormed_asRead j, by rw [tokens_text hlayout hj, lexemes_asRead]⟩

/-- If every number is an integer of 64 bits, it spells the document of the value. -/
theorem spelledBy_text_of_integral {layout : Layout} (hlayout : layout.Blank) {j : Json}
    (hj : j.Integral) : (Doc.ofJson j).SpelledBy (j.text layout) := by
  rw [← Doc.asRead_of_integral j hj]
  exact spelledBy_text hlayout (whole_of_integral j hj)

/-- **The document in a text that was written** is what is read of the value. -/
theorem Document.ofText_asRead {layout : Layout} (hlayout : layout.Blank) {j : Json}
    (hj : j.Whole) : Document.ofText (j.text layout) = ⟨Doc.asRead j, true⟩ :=
  (spelledBy_text hlayout hj).ofText

/-- If every number is an integer of 64 bits, it is the document of the value. -/
theorem Document.ofText_text {layout : Layout} (hlayout : layout.Blank) {j : Json}
    (hj : j.Integral) : Document.ofText (j.text layout) = ⟨Doc.ofJson j, true⟩ :=
  (spelledBy_text_of_integral hlayout hj).ofText

end EntryReport.Json
