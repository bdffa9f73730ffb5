import EntryReport.Proofs.Json.Records
import EntryReport.Report.Html

/-!
# JSON inside a script

`Html.escapeForScript` writes three characters of a JSON text as escapes, wherever they stand. In a
text that can be cut into tokens they stand inside strings only, and never behind the backslash of
another escape: there the escape is read as the character (`scanString_scriptChars`). Everything
else is left alone, so that the tokens are the same (`tokens_scriptChars`), and so is the document
(`Document.ofText_escapeForScript`).

What is not JSON does not stay what it is: `"\<"` is no string, but its escaped form is one.
-/

namespace EntryReport

namespace Html

/-- The characters of JSON inside a script. -/
def scriptChars (cs : List Char) : List Char := cs.flatMap escapeScriptChar

/-- The characters that mean something in markup. -/
def isMarkup (c : Char) : Bool := c = '<' || c = '>' || c = '&'

theorem isMarkup_iff {c : Char} : isMarkup c = true ↔ c = '<' ∨ c = '>' ∨ c = '&' := by
  simp [isMarkup, or_assoc]

/-- What holds of none of the three tells other characters. -/
theorem isMarkup_eq_false {P : Char → Prop} {c : Char} (hc : P c)
    (hnone : ¬ P '<' ∧ ¬ P '>' ∧ ¬ P '&') : isMarkup c = false := by
  obtain ⟨hopen, hclose, hand⟩ := hnone
  by_contra hm
  rcases isMarkup_iff.mp (Bool.not_eq_false _ ▸ hm) with rfl | rfl | rfl
  · exact hopen hc
  · exact hclose hc
  · exact hand hc

theorem toList_escapeForScript (s : String) : (escapeForScript s).toList = scriptChars s.toList :=
  String.toList_ofList

theorem escapeScriptChar_of_isMarkup {c : Char} (hc : isMarkup c = true) : escapeScriptChar c =
    ['\\', 'u', '0', '0', Json.hexDigit (c.toNat / 16), Json.hexDigit (c.toNat % 16)] := by
  rcases isMarkup_iff.mp hc with rfl | rfl | rfl <;> rfl

theorem escapeScriptChar_of_not {c : Char} (hc : isMarkup c = false) :
    escapeScriptChar c = [c] := by
  simp only [isMarkup, Bool.or_eq_false_iff, decide_eq_false_iff_not] at hc
  rw [escapeScriptChar, if_neg hc.1.1, if_neg hc.1.2, if_neg hc.2]

theorem scriptChars_cons {c : Char} (cs : List Char) (hc : isMarkup c = false) :
    scriptChars (c :: cs) = c :: scriptChars cs := by
  rw [scriptChars, List.flatMap_cons, escapeScriptChar_of_not hc]
  rfl

/-- **Nothing that means something in markup** is left. -/
theorem isMarkup_of_mem_scriptChars {c : Char} {cs : List Char} (h : c ∈ scriptChars cs) :
    isMarkup c = false := by
  have hescapes : (['<', '>', '&'].flatMap escapeScriptChar).all (!isMarkup ·) = true := rfl
  obtain ⟨d, -, hc⟩ := List.mem_flatMap.mp h
  by_cases hd : isMarkup d = true
  · have hmem : c ∈ ['<', '>', '&'].flatMap escapeScriptChar :=
      List.mem_flatMap.mpr ⟨d, by simpa using isMarkup_iff.mp hd, hc⟩
    simpa using List.all_eq_true.mp hescapes c hmem
  · rw [Bool.not_eq_true] at hd
    rw [escapeScriptChar_of_not hd, List.mem_singleton] at hc
    exact hc ▸ hd

/-- A text inside a script begins as it did, or with a backslash. -/
theorem exists_scriptChars_cons {P : Char → Prop} (hback : P '\\') {c : Char} (hc : P c)
    (cs : List Char) : ∃ d ds, scriptChars (c :: cs) = d :: ds ∧ P d := by
  by_cases hm : isMarkup c = true
  · rw [scriptChars, List.flatMap_cons, escapeScriptChar_of_isMarkup hm]
    exact ⟨_, _, rfl, hback⟩
  · rw [Bool.not_eq_true] at hm
    exact ⟨c, scriptChars cs, scriptChars_cons cs hm, hc⟩

end Html

namespace Json

open Html (scriptChars isMarkup isMarkup_eq_false scriptChars_cons exists_scriptChars_cons)

variable {cs rest : List Char} {pieces : List Piece} {n : Nat}

/-! ## Strings -/

/-- A piece as it is read inside a script: characters that mean something in markup are given by
their numbers. -/
def scriptPiece : Piece → Piece
  | .char c => if isMarkup c then .unit c.toNat else .char c
  | .unit n => .unit n

theorem isMarkup_of_hexValue? {c : Char} {n : Nat} (h : hexValue? c = some n) :
    isMarkup c = false :=
  isMarkup_eq_false (P := fun c => hexValue? c = some n) h (by simp [hexValue?])

theorem isMarkup_of_hexWord? {a b c d : Char} {n : Nat} (h : hexWord? a b c d = some n) :
    isMarkup a = false ∧ isMarkup b = false ∧ isMarkup c = false ∧ isMarkup d = false := by
  simp only [hexWord?, Option.bind_eq_bind, Option.bind_eq_some_iff] at h
  obtain ⟨_, ha, _, hb, _, hc, _, hd, -⟩ := h
  exact ⟨isMarkup_of_hexValue? ha, isMarkup_of_hexValue? hb, isMarkup_of_hexValue? hc,
    isMarkup_of_hexValue? hd⟩

theorem isMarkup_of_shortEscape? {e c : Char} (h : shortEscape? e = some c) :
    e ≠ 'u' ∧ isMarkup e = false ∧ isMarkup c = false := by
  have he : e = '"' ∨ e = '\\' ∨ e = '/' ∨ e = 'b' ∨ e = 'f' ∨ e = 'n' ∨ e = 'r' ∨ e = 't' := by
    by_contra hnone
    simp only [not_or] at hnone
    simp [shortEscape?, hnone] at h
  rcases he with rfl | rfl | rfl | rfl | rfl | rfl | rfl | rfl <;>
    · obtain rfl := Option.some.inj h
      exact ⟨by decide, rfl, rfl⟩

theorem lt_of_isMarkup {c : Char} (hc : isMarkup c = true) : c.toNat < 0x80 := by
  rcases Html.isMarkup_iff.mp hc with rfl | rfl | rfl <;> decide

/-- Characters that mean something in markup are read from their numbers. -/
theorem scanString_markup {c : Char} (hc : isMarkup c = true) (cs : List Char) :
    scanString (scriptChars (c :: cs)) =
      (scanString (scriptChars cs)).map fun (pieces, rest) => (.unit c.toNat :: pieces, rest) := by
  have hbyte := lt_of_isMarkup hc
  rw [scriptChars, List.flatMap_cons, Html.escapeScriptChar_of_isMarkup hc]
  exact scanString_byte (by omega)

/-- **A string inside a script** is read as before, but for the way in which its characters are
given. -/
theorem scanString_scriptChars (h : scanString cs = some (pieces, rest)) :
    scanString (scriptChars cs) = some (pieces.map scriptPiece, scriptChars rest) := by
  fun_induction scanString cs generalizing pieces with
  | case1 | case5 => simp at h
  | case2 cs =>
    cases h
    rw [scriptChars_cons _ rfl, scanString]
    rfl
  | case3 a b c d cs ih =>
    simp only [Option.bind_eq_bind, Option.bind_eq_some_iff, Option.pure_def, Option.some.injEq,
      Prod.mk.injEq] at h
    obtain ⟨n, hword, ⟨found, left⟩, hfound, rfl, rfl⟩ := h
    obtain ⟨ha, hb, hc, hd⟩ := isMarkup_of_hexWord? hword
    rw [scriptChars_cons _ rfl, scriptChars_cons _ rfl, scriptChars_cons _ ha,
      scriptChars_cons _ hb, scriptChars_cons _ hc, scriptChars_cons _ hd, scanString, hword,
      ih hfound]
    rfl
  | case4 e cs _ ih =>
    simp only [Option.bind_eq_bind, Option.bind_eq_some_iff, Option.pure_def, Option.some.injEq,
      Prod.mk.injEq] at h
    obtain ⟨c, hshort, ⟨found, left⟩, hfound, rfl, rfl⟩ := h
    obtain ⟨hu, he, hc⟩ := isMarkup_of_shortEscape? hshort
    rw [scriptChars_cons _ rfl, scriptChars_cons _ he, scanString_shortEscape hu hshort, ih hfound]
    simp [scriptPiece, hc]
  | case6 c cs hquote _ _ hplain ih =>
    -- only here, where a character stands for itself, may it be one that is escaped
    simp only [Option.bind_eq_bind, Option.bind_eq_some_iff, Option.pure_def, Option.some.injEq,
      Prod.mk.injEq] at h
    obtain ⟨⟨found, left⟩, hfound, rfl, rfl⟩ := h
    by_cases hc : isMarkup c = true
    · rw [scanString_markup hc, ih hfound]
      simp [scriptPiece, hc]
    · rw [Bool.not_eq_true] at hc
      simp only [Bool.or_eq_true, decide_eq_true_eq, not_or] at hplain
      rw [scriptChars_cons _ hc, scanString_plain hquote hplain.2 hplain.1, ih hfound]
      simp [scriptPiece, hc]

/-- A character is worth the same, in whichever way it is given. -/
theorem joinPieces_scriptChar (c : Char) (pieces : List Piece) :
    joinPieces (scriptPiece (.char c) :: pieces) = (joinPieces pieces).map (c :: ·) := by
  by_cases hc : isMarkup c = true
  · have := lt_of_isMarkup hc
    rw [scriptPiece, if_pos hc, joinPieces_unit (by omega), Char.ofNat_toNat]
  · rw [scriptPiece, if_neg hc, joinPieces]

/-- In front of anything but the second half of a pair a number stands alone. -/
theorem joinPieces_alone (h : ∀ m, pieces.head? = some (.unit m) → isLow m = false) :
    joinPieces (.unit n :: pieces) =
      if isHigh n || isLow n then none else (joinPieces pieces).map (Char.ofNat n :: ·) := by
  cases pieces with
  | nil => rfl
  | cons p pieces =>
    cases p with
    | char c => rfl
    | unit m => simp [joinPieces, h m rfl]

/-- No second half of a pair comes from a character. -/
theorem head?_scriptPieces (hnot : ∀ l rest, pieces = .unit l :: rest → False) :
    ∀ m, (pieces.map scriptPiece).head? = some (.unit m) → isLow m = false := by
  intro m hm
  cases pieces with
  | nil => cases hm
  | cons p pieces =>
    cases p with
    | unit l => exact (hnot l pieces rfl).elim
    | char c =>
      by_cases hc : isMarkup c = true
      · have hlt := lt_of_isMarkup hc
        simp only [List.map_cons, scriptPiece, if_pos hc, List.head?_cons, Option.some.injEq,
          Piece.unit.injEq] at hm
        simp only [isLow, Bool.and_eq_false_iff, decide_eq_false_iff_not]
        omega
      · simp [scriptPiece, hc] at hm

/-- **The pieces of a string are worth the same inside a script.** -/
theorem joinPieces_scriptPieces (pieces : List Piece) :
    joinPieces (pieces.map scriptPiece) = joinPieces pieces := by
  fun_induction joinPieces pieces with
  | case1 => rfl
  | case2 c pieces ih => rw [List.map_cons, joinPieces_scriptChar, ih]
  | case3 h l pieces hpair ih => simp [scriptPiece, joinPieces, hpair, ih]
  | case4 h l pieces hpair hhalf => simp [scriptPiece, joinPieces, hpair, hhalf]
  | case5 h l pieces hpair hhalf ih =>
    simp only [List.map_cons, scriptPiece] at ih
    simp only [List.map_cons, scriptPiece, joinPieces, if_neg hpair, if_neg hhalf, ih]
  | case6 n pieces hnot hhalf =>
    rw [List.map_cons, scriptPiece, joinPieces_alone (head?_scriptPieces hnot), if_pos hhalf]
  | case7 n pieces hnot hhalf ih =>
    rw [List.map_cons, scriptPiece, joinPieces_alone (head?_scriptPieces hnot), if_neg hhalf, ih]

/-! ## Numbers -/

theorem isMarkup_of_isDigit {c : Char} (hc : c.isDigit = true) : isMarkup c = false :=
  isMarkup_eq_false (P := fun c => c.isDigit = true) hc (by decide)

theorem scanDigits_scriptChars (cs : List Char) :
    scanDigits (scriptChars cs) = ((scanDigits cs).1, scriptChars (scanDigits cs).2) := by
  induction cs with
  | nil => rfl
  | cons c cs ih =>
    by_cases hc : c.isDigit = true
    · rw [scriptChars_cons cs (isMarkup_of_isDigit hc)]
      simp only [scanDigits, Prod.mk.injEq, List.takeWhile_cons_of_pos hc,
        List.dropWhile_cons_of_pos hc, List.map_cons] at ih ⊢
      exact ⟨congrArg _ ih.1, ih.2⟩
    · obtain ⟨d, ds, heq, hd⟩ :=
        exists_scriptChars_cons (P := fun c => ¬ c.isDigit = true) (by decide) hc cs
      simp only [scanDigits, heq, List.takeWhile_cons_of_neg hc, List.dropWhile_cons_of_neg hc,
        List.takeWhile_cons_of_neg hd, List.dropWhile_cons_of_neg hd, List.map_nil]

/-- What was read at the front of a text, when the text stands inside a script. -/
def inScript {α : Type} : Option (α × List Char) → Option (α × List Char) :=
  Option.map fun (a, rest) => (a, scriptChars rest)

theorem scanWhole_scriptChars (cs : List Char) :
    scanWhole (scriptChars cs) = inScript (scanWhole cs) := by
  rw [scanWhole, scanWhole, scanDigits_scriptChars]
  generalize scanDigits cs = found
  obtain ⟨_ | ⟨_ | d, _ | ⟨e, ds⟩⟩, rest⟩ := found <;> rfl

theorem scanDecimals_of_ne {c : Char} (hc : c ≠ '.') (cs : List Char) :
    scanDecimals (c :: cs) = some ([], c :: cs) := by
  rw [scanDecimals]
  exact fun _ heq => hc (List.cons.inj heq).1

theorem scanDecimals_scriptChars (cs : List Char) :
    scanDecimals (scriptChars cs) = inScript (scanDecimals cs) := by
  cases cs with
  | nil => rfl
  | cons c cs =>
    by_cases hc : c = '.'
    · subst hc
      rw [scriptChars_cons cs rfl, scanDecimals, scanDecimals, scanDigits_scriptChars]
      generalize scanDigits cs = found
      obtain ⟨_ | ⟨d, ds⟩, rest⟩ := found <;> rfl
    · obtain ⟨d, ds, heq, hd⟩ := exists_scriptChars_cons (P := (· ≠ '.')) (by decide) hc cs
      rw [scanDecimals_of_ne hc, heq, scanDecimals_of_ne hd, ← heq]
      rfl

theorem scanSign_of_ne {c : Char} (hc : c ≠ '+' ∧ c ≠ '-') (cs : List Char) :
    scanSign (c :: cs) = (false, c :: cs) := by
  rw [scanSign]
  · exact fun _ heq => hc.1 (List.cons.inj heq).1
  · exact fun _ heq => hc.2 (List.cons.inj heq).1

theorem scanSign_scriptChars (cs : List Char) :
    scanSign (scriptChars cs) = ((scanSign cs).1, scriptChars (scanSign cs).2) := by
  cases cs with
  | nil => rfl
  | cons c cs =>
    by_cases hc : c ≠ '+' ∧ c ≠ '-'
    · obtain ⟨d, ds, heq, hd⟩ :=
        exists_scriptChars_cons (P := fun c => c ≠ '+' ∧ c ≠ '-') (by decide) hc cs
      rw [scanSign_of_ne hc, heq, scanSign_of_ne hd, ← heq]
    · obtain rfl | rfl : c = '+' ∨ c = '-' := by tauto
      · rw [scriptChars_cons cs rfl]
        rfl
      · rw [scriptChars_cons cs rfl]
        rfl

theorem scanExponent_scriptChars (cs : List Char) :
    scanExponent (scriptChars cs) = inScript (scanExponent cs) := by
  cases cs with
  | nil => rfl
  | cons c cs =>
    by_cases hc : (c = 'e' || c = 'E') = true
    · have hm : isMarkup c = false := by
        simp only [Bool.or_eq_true, decide_eq_true_eq] at hc
        rcases hc with rfl | rfl <;> rfl
      rw [scriptChars_cons cs hm, scanExponent, scanExponent, if_pos hc, if_pos hc,
        scanSign_scriptChars]
      generalize scanSign cs = sign
      obtain ⟨negative, cs⟩ := sign
      simp only [scanDigits_scriptChars]
      generalize scanDigits cs = found
      obtain ⟨_ | ⟨d, ds⟩, rest⟩ := found <;> rfl
    · obtain ⟨d, ds, heq, hd⟩ := exists_scriptChars_cons
        (P := fun c => ¬ (c = 'e' || c = 'E') = true) (by decide) hc cs
      rw [scanExponent, if_neg hc, heq, scanExponent, if_neg hd, ← heq]
      rfl

/-- **A numeral is read** as before. -/
theorem scanNumeral_scriptChars (negative : Bool) (cs : List Char) :
    scanNumeral negative (scriptChars cs) = inScript (scanNumeral negative cs) := by
  simp only [scanNumeral, scanWhole_scriptChars]
  cases scanWhole cs with
  | none => rfl
  | some whole =>
    simp only [inScript, Option.map_some, Option.bind_eq_bind, Option.bind_some,
      scanDecimals_scriptChars]
    cases scanDecimals whole.2 with
    | none => rfl
    | some decimals =>
      simp only [inScript, Option.map_some, Option.bind_some, scanExponent_scriptChars]
      cases scanExponent decimals.2 <;> rfl

/-! ## Tokens -/

theorem numberToken_scriptChars (negative : Bool) (cs : List Char) :
    numberToken (scanNumeral negative (scriptChars cs)) =
      inScript (numberToken (scanNumeral negative cs)) := by
  rw [scanNumeral_scriptChars]
  cases scanNumeral negative cs <;> rfl

theorem scanToken_of_isDigit {c : Char} (hc : c.isDigit = true) (cs : List Char) :
    scanToken (c :: cs) = numberToken (scanNumeral false (c :: cs)) := by
  rw [scanToken.eq_def]
  split
  case h_13 => rfl
  case h_1 heq => cases heq
  all_goals
    next heq =>
    obtain ⟨rfl, -⟩ := List.cons.inj heq
    exact absurd hc (by decide)

/-- A numeral begins with a digit. -/
theorem exists_digit_of_scanNumeral {negative : Bool} {found : Numeral × List Char}
    (h : scanNumeral negative cs = some found) : ∃ c ds, cs = c :: ds ∧ c.isDigit = true := by
  obtain ⟨whole, hwhole, -⟩ := Option.bind_eq_some_iff.mp h
  cases cs with
  | nil => cases hwhole
  | cons c cs =>
    refine ⟨c, cs, rfl, ?_⟩
    by_contra hc
    rw [scanWhole, scanDigits, List.takeWhile_cons_of_neg hc] at hwhole
    cases hwhole

/-- **A token inside a script** is read as before. -/
theorem scanToken_scriptChars {t : Token} (h : scanToken cs = some (t, rest)) :
    scanToken (scriptChars cs) = some (t, scriptChars rest) := by
  rw [scanToken.eq_def] at h
  split at h
  case h_1 => cases h
  case h_11 cs =>
    obtain ⟨⟨pieces, left⟩, hfound, heq⟩ := Option.map_eq_some_iff.mp h
    cases heq
    rw [scriptChars_cons cs rfl, scanToken, scanString_scriptChars hfound]
    simp only [Option.map_some, joinPieces_scriptPieces]
  case h_12 cs =>
    rw [scriptChars_cons cs rfl, scanToken, numberToken_scriptChars, h]
    rfl
  case h_13 =>
    -- a numeral without a sign: its first character tells it from all other tokens
    obtain ⟨found, hfound, -⟩ := Option.map_eq_some_iff.mp h
    obtain ⟨c, ds, rfl, hc⟩ := exists_digit_of_scanNumeral hfound
    have hm := isMarkup_of_isDigit hc
    rw [scriptChars_cons ds hm, scanToken_of_isDigit hc, ← scriptChars_cons ds hm,
      numberToken_scriptChars, h]
    rfl
  all_goals
    cases h
    rfl

/-! ## Whole texts -/

theorem isMarkup_of_isSpace {c : Char} (hc : isSpace c = true) : isMarkup c = false :=
  isMarkup_eq_false (P := fun c => isSpace c = true) hc (by decide)

/-- Where no token can be read, there is a fault. -/
theorem tokens_fault {c : Char} (hc : ¬ isSpace c = true) (h : scanToken (c :: cs) = none) :
    tokens (c :: cs) = [.fault] := by
  rw [tokens, List.length_cons, tokensUpTo, List.dropWhile_cons_of_neg hc]
  simp only [h]

/-- **A text that can be cut into tokens** has the same tokens inside a script. -/
theorem tokens_scriptChars (cs : List Char) (h : .fault ∉ tokens cs) :
    tokens (scriptChars cs) = tokens cs := by
  -- on the length, as a token may take any number of characters
  induction hlength : cs.length using Nat.strong_induction_on generalizing cs with
  | _ n ih =>
    subst hlength
    cases cs with
    | nil => rfl
    | cons c cs =>
      by_cases hc : isSpace c = true
      · rw [tokens_space hc] at h
        rw [scriptChars_cons cs (isMarkup_of_isSpace hc), tokens_space hc, tokens_space hc]
        exact ih _ (Nat.lt_succ_self _) cs h rfl
      · cases hscan : scanToken (c :: cs) with
        | none => exact absurd (tokens_fault hc hscan ▸ List.mem_singleton_self _) h
        | some found =>
          obtain ⟨t, rest⟩ := found
          rw [tokens_token hscan] at h
          rw [tokens_token hscan, tokens_token (scanToken_scriptChars hscan)]
          have hrest := fun hmem => h (List.mem_cons_of_mem _ hmem)
          exact congrArg (t :: ·) (ih _ (length_lt_of_scanToken hscan) rest hrest rfl)

mutual
/-- No token of a value is a fault. -/
theorem fault_notMem_lexemes : (j : Json) → Token.fault ∉ lexemes j
  | .null | .bool _ | .num _ | .str _ | .arr [] | .obj [] => by simp [lexemes]
  | .arr (value :: values) => by
    simp [lexemes, fault_notMem_lexemes value, fault_notMem_itemLexemes values]
  | .obj ((_, value) :: members) => by
    simp [lexemes, fault_notMem_lexemes value, fault_notMem_memberLexemes members]

theorem fault_notMem_itemLexemes : (values : List Json) → Token.fault ∉ itemLexemes values
  | [] => List.not_mem_nil
  | value :: values => by
    simp [itemLexemes, fault_notMem_lexemes value, fault_notMem_itemLexemes values]

theorem fault_notMem_memberLexemes :
    (members : List (String × Json)) → Token.fault ∉ memberLexemes members
  | [] => List.not_mem_nil
  | (_, value) :: members => by
    simp [memberLexemes, fault_notMem_lexemes value, fault_notMem_memberLexemes members]
end

/-- **A value that was written** makes the same document inside a script. -/
theorem Document.ofText_escapeForScript {layout : Layout} (hlayout : layout.Blank) {j : Json}
    (hj : j.Whole) :
    Document.ofText (Html.escapeForScript (j.text layout)) = Document.ofText (j.text layout) := by
  have htokens := tokens_text hlayout hj
  have hfault : Token.fault ∉ tokens (j.text layout).toList := htokens ▸ fault_notMem_lexemes j
  rw [Document.ofText, Html.toList_escapeForScript, tokens_scriptChars _ hfault, Document.ofText]

/-- What is recovered from its value is read back from the text inside a script. -/
theorem Decoder.Recovers.run_escapeForScript {α : Type} {decode : Decoder α} {encode : α → Json}
    {a : α} (h : decode.Recovers encode a) (hj : (encode a).Integral) :
    decode.run (Html.escapeForScript (encode a).compact) = .ok a := by
  unfold Decoder.Recovers at h
  simp only [Decoder.run, compact, Document.ofText_escapeForScript Layout.blank_compact
    (whole_of_integral _ hj), Document.ofText_text Layout.blank_compact hj, h, ok_bind]
  rfl

end Json

end EntryReport
