import EntryReport.Proofs.Json.Numbers
import EntryReport.Proofs.Json.Strings
import EntryReport.Proofs.Json.Tokens

/-!
# The tokens of a text that was written

`lexemes` are the tokens of a value. Whatever layout a value is written with, as long as it puts
nothing but blanks between the tokens, the text is cut into these tokens again (`tokens_write`).
Numbers are confined to integers (`Json.Whole`); those of 64 bits (`Json.Integral`) are read as they
were written.
-/

namespace EntryReport.Json

/-! ## Values of which all numbers are integers -/

mutual
/-- Every number in the value is an integer that a numeral can stand for. -/
def Integral : Json → Prop
  | .num n => n.Integral
  | .arr values => AllIntegral values
  | .obj members => MembersIntegral members
  | _ => True

/-- So it is in every value. -/
def AllIntegral : List Json → Prop
  | [] => True
  | value :: rest => value.Integral ∧ AllIntegral rest

/-- So it is in the value of every member. -/
def MembersIntegral : List (String × Json) → Prop
  | [] => True
  | (_, value) :: rest => value.Integral ∧ MembersIntegral rest
end

mutual
/-- Whether every number is such an integer can be told. -/
instance decidableIntegral : (j : Json) → Decidable j.Integral
  | .null | .bool _ | .str _ => inferInstanceAs (Decidable True)
  | .num n => inferInstanceAs (Decidable n.Integral)
  | .arr values => decidableAllIntegral values
  | .obj members => decidableMembersIntegral members

instance decidableAllIntegral : (values : List Json) → Decidable (AllIntegral values)
  | [] => inferInstanceAs (Decidable True)
  | value :: rest => @instDecidableAnd _ _ (decidableIntegral value) (decidableAllIntegral rest)

instance decidableMembersIntegral :
    (members : List (String × Json)) → Decidable (MembersIntegral members)
  | [] => inferInstanceAs (Decidable True)
  | (_, value) :: rest =>
    @instDecidableAnd _ _ (decidableIntegral value) (decidableMembersIntegral rest)
end

theorem allIntegral_map {α : Type} {encode : α → Json} {values : List α}
    (h : ∀ a ∈ values, (encode a).Integral) : AllIntegral (values.map encode) := by
  induction values with
  | nil => trivial
  | cons a values ih =>
    exact ⟨h a List.mem_cons_self, ih fun b hb => h b (List.mem_cons_of_mem _ hb)⟩

theorem membersIntegral_append {ms ns : List (String × Json)} (hms : MembersIntegral ms)
    (hns : MembersIntegral ns) : MembersIntegral (ms ++ ns) := by
  induction ms with
  | nil => exact hns
  | cons m ms ih => exact ⟨hms.1, ih hms.2⟩

theorem membersIntegral_member? {α : Type} {encode : α → Json} {o : Option α} (key : String)
    (h : ∀ a, o = some a → (encode a).Integral) : MembersIntegral (member? key encode o) := by
  cases o with
  | none => trivial
  | some a => exact ⟨h a rfl, trivial⟩

theorem integral_strs (texts : List String) : (Json.strs texts).Integral :=
  allIntegral_map fun _ _ => trivial

theorem membersIntegral_text? (key : String) (o : Option String) :
    MembersIntegral (member? key .str o) :=
  membersIntegral_member? key fun _ _ => trivial

/-! ## Values without fractions -/

mutual
/-- Every number in the value is an integer. -/
def Whole : Json → Prop
  | .num (.float _) => False
  | .arr values => AllWhole values
  | .obj members => MembersWhole members
  | _ => True

/-- So it is in every value. -/
def AllWhole : List Json → Prop
  | [] => True
  | value :: rest => value.Whole ∧ AllWhole rest

/-- So it is in the value of every member. -/
def MembersWhole : List (String × Json) → Prop
  | [] => True
  | (_, value) :: rest => value.Whole ∧ MembersWhole rest
end

theorem allWhole_iff {values : List Json} : AllWhole values ↔ ∀ j ∈ values, j.Whole := by
  induction values with
  | nil => simp [AllWhole]
  | cons value values ih => rw [AllWhole, ih, List.forall_mem_cons]

theorem membersWhole_iff {members : List (String × Json)} :
    MembersWhole members ↔ ∀ m ∈ members, m.2.Whole := by
  induction members with
  | nil => simp [MembersWhole]
  | cons m members ih => rw [MembersWhole, ih, List.forall_mem_cons]

mutual
theorem whole_of_integral : (j : Json) → j.Integral → j.Whole
  | .null, _ | .bool _, _ | .str _, _ | .num (.int _), _ => trivial
  | .num (.float _), h => h
  | .arr values, h => allWhole_of_integral values h
  | .obj members, h => membersWhole_of_integral members h

theorem allWhole_of_integral : (values : List Json) → AllIntegral values → AllWhole values
  | [], _ => trivial
  | value :: values, h => ⟨whole_of_integral value h.1, allWhole_of_integral values h.2⟩

theorem membersWhole_of_integral : (members : List (String × Json)) →
    MembersIntegral members → MembersWhole members
  | [], _ => trivial
  | (_, value) :: members, h => ⟨whole_of_integral value h.1, membersWhole_of_integral members h.2⟩
end

/-! ## The tokens of a value -/

mutual
/-- The tokens of a value. -/
def lexemes : Json → List Token
  | .null => [.null]
  | .bool b => [.bool b]
  | .num n => [.number n.asRead]
  | .str s => [.string (some s)]
  | .arr [] => [.openArr, .closeArr]
  | .arr (value :: rest) => .openArr :: (lexemes value ++ itemLexemes rest ++ [.closeArr])
  | .obj [] => [.openObj, .closeObj]
  | .obj ((key, value) :: rest) =>
    .openObj :: .string (some key) :: .colon ::
      (lexemes value ++ memberLexemes rest ++ [.closeObj])

/-- The tokens of further items. -/
def itemLexemes : List Json → List Token
  | [] => []
  | value :: rest => .comma :: (lexemes value ++ itemLexemes rest)

/-- The tokens of further members. -/
def memberLexemes : List (String × Json) → List Token
  | [] => []
  | (key, value) :: rest =>
    .comma :: .string (some key) :: .colon :: (lexemes value ++ memberLexemes rest)
end

/-! ## Layouts -/

/-- The layout puts nothing but blanks between tokens. -/
structure Layout.Blank (layout : Layout) : Prop where
  lineBreak : ∀ depth, ∀ c ∈ layout.lineBreak depth, isSpace c = true
  afterColon : ∀ c ∈ layout.afterColon, isSpace c = true

theorem Layout.blank_compact : Layout.compact.Blank where
  lineBreak _ _ hc := absurd hc List.not_mem_nil
  afterColon _ hc := absurd hc List.not_mem_nil

theorem Layout.blank_pretty : Layout.pretty.Blank where
  lineBreak depth c hc := by
    rcases List.mem_cons.mp hc with rfl | hc
    · rfl
    · rw [(List.mem_replicate.mp hc).2]
      rfl
  afterColon c hc := by
    rw [List.mem_singleton.mp hc]
    rfl

variable {layout : Layout} {rest : List Char}

/-! ## What follows a value -/

theorem boundary_cons {c : Char} (hc : c = ',' ∨ c = ']' ∨ c = '\x7d' ∨ isSpace c = true) :
    Boundary (c :: rest) := by
  rintro _ ⟨⟩
  exact hc

theorem boundary_spaces {blanks : List Char} (h : ∀ c ∈ blanks, isSpace c = true)
    (hrest : Boundary rest) : Boundary (blanks ++ rest) := by
  cases blanks with
  | nil => exact hrest
  | cons c blanks => exact boundary_cons (.inr (.inr (.inr (h c List.mem_cons_self))))

theorem boundary_writeItems (depth : Nat) (values : List Json) (hrest : Boundary rest) :
    Boundary (writeItems layout depth values rest) := by
  cases values with
  | nil => rwa [writeItems]
  | cons value values =>
    rw [writeItems]
    exact boundary_cons (.inl rfl)

theorem boundary_writeMembers (depth : Nat) (members : List (String × Json))
    (hrest : Boundary rest) : Boundary (writeMembers layout depth members rest) := by
  cases members with
  | nil => rwa [writeMembers]
  | cons member members =>
    rw [writeMembers]
    exact boundary_cons (.inl rfl)

/-! ## Writing and cutting -/

theorem tokens_writeText (s : String) :
    tokens (writeText s rest) = .string (some s) :: tokens rest :=
  tokens_token (scanToken_writeText s rest)

theorem tokens_comma : tokens (',' :: rest) = .comma :: tokens rest := tokens_token rfl

theorem tokens_colon : tokens (':' :: rest) = .colon :: tokens rest := tokens_token rfl

theorem tokens_openArr : tokens ('[' :: rest) = .openArr :: tokens rest := tokens_token rfl

theorem tokens_closeArr : tokens (']' :: rest) = .closeArr :: tokens rest := tokens_token rfl

theorem tokens_openObj : tokens ('\x7b' :: rest) = .openObj :: tokens rest := tokens_token rfl

theorem tokens_closeObj : tokens ('\x7d' :: rest) = .closeObj :: tokens rest := tokens_token rfl

mutual
/-- **A value that was written is cut into its tokens.** -/
theorem tokens_write (hlayout : layout.Blank) (depth : Nat) (rest : List Char)
    (hrest : Boundary rest) : (j : Json) → j.Whole →
      tokens (write layout depth j rest) = lexemes j ++ tokens rest
  | .null, _ => by
    rw [write, lexemes]
    exact tokens_token rfl
  | .bool true, _ => by
    rw [write, lexemes]
    exact tokens_token rfl
  | .bool false, _ => by
    rw [write, lexemes]
    exact tokens_token rfl
  | .num (.int n), _ => by
    rw [write, lexemes]
    exact tokens_token (scanToken_intText _ hrest)
  | .num (.float _), hj => hj.elim
  | .str s, _ => by
    rw [write, lexemes]
    exact tokens_writeText s
  | .arr [], _ => by
    rw [write, lexemes, tokens_openArr, tokens_closeArr]
    rfl
  | .arr (value :: values), hj => by
    have hend : Boundary (layout.lineBreak depth ++ ']' :: rest) :=
      boundary_spaces (hlayout.lineBreak depth) (boundary_cons (by decide))
    rw [write, lexemes, tokens_openArr, tokens_spaces (hlayout.lineBreak _),
      tokens_write hlayout _ _ (boundary_writeItems _ values hend) value hj.1,
      tokens_writeItems hlayout _ _ hend values hj.2, tokens_spaces (hlayout.lineBreak _),
      tokens_closeArr]
    simp
  | .obj [], _ => by
    rw [write, lexemes, tokens_openObj, tokens_closeObj]
    rfl
  | .obj ((key, value) :: members), hj => by
    have hend : Boundary (layout.lineBreak depth ++ '\x7d' :: rest) :=
      boundary_spaces (hlayout.lineBreak depth) (boundary_cons (by decide))
    rw [write, lexemes, tokens_openObj, tokens_spaces (hlayout.lineBreak _), tokens_writeText,
      tokens_colon, tokens_spaces hlayout.afterColon,
      tokens_write hlayout _ _ (boundary_writeMembers _ members hend) value hj.1,
      tokens_writeMembers hlayout _ _ hend members hj.2, tokens_spaces (hlayout.lineBreak _),
      tokens_closeObj]
    simp

theorem tokens_writeItems (hlayout : layout.Blank) (depth : Nat) (rest : List Char)
    (hrest : Boundary rest) : (values : List Json) → AllWhole values →
      tokens (writeItems layout depth values rest) = itemLexemes values ++ tokens rest
  | [], _ => by rw [writeItems, itemLexemes, List.nil_append]
  | value :: values, h => by
    rw [writeItems, itemLexemes, tokens_comma, tokens_spaces (hlayout.lineBreak _),
      tokens_write hlayout _ _ (boundary_writeItems _ values hrest) value h.1,
      tokens_writeItems hlayout _ _ hrest values h.2]
    simp

theorem tokens_writeMembers (hlayout : layout.Blank) (depth : Nat) (rest : List Char)
    (hrest : Boundary rest) : (members : List (String × Json)) → MembersWhole members →
      tokens (writeMembers layout depth members rest) = memberLexemes members ++ tokens rest
  | [], _ => by rw [writeMembers, memberLexemes, List.nil_append]
  | (key, value) :: members, h => by
    rw [writeMembers, memberLexemes, tokens_comma, tokens_spaces (hlayout.lineBreak _),
      tokens_writeText, tokens_colon, tokens_spaces hlayout.afterColon,
      tokens_write hlayout _ _ (boundary_writeMembers _ members hrest) value h.1,
      tokens_writeMembers hlayout _ _ hrest members h.2]
    simp
end

/-- **A whole text is cut into the tokens of its value.** -/
theorem tokens_text (hlayout : layout.Blank) {j : Json} (hj : j.Whole) :
    tokens (j.text layout).toList = lexemes j := by
  rw [text, String.toList_ofList, tokens_write hlayout 0 [] boundary_nil j hj, tokens_nil,
    List.append_nil]

end EntryReport.Json
