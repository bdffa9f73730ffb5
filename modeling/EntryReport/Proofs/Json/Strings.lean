import EntryReport.Json.Printer
import EntryReport.Json.Token

/-!
# Texts between quotation marks

`writeText` escapes the characters that cannot stand in a text as they are; `scanString` reads the
escapes back as pieces, and `joinPieces` makes characters of these. A text that was written never
has half of a pair in it, so that all of its pieces can be joined (`scanToken_writeText`).
-/

namespace EntryReport.Json

variable {c : Char} {cs rest : List Char} {pieces : List Piece} {n : Nat}

/-! ## Hexadecimal digits -/

theorem hexValue?_hexDigit (h : n < 16) : hexValue? (hexDigit n) = some n := by
  revert n
  decide

/-- The escape of a character below 256 gives its number. -/
theorem hexWord?_byte (h : n < 0x100) :
    hexWord? '0' '0' (hexDigit (n / 16)) (hexDigit (n % 16)) = some n := by
  have hzero : hexValue? '0' = some 0 := by decide
  rw [hexWord?, hzero, hexValue?_hexDigit (by omega), hexValue?_hexDigit (by omega)]
  simp only [Option.bind_eq_bind, Option.bind_some, Option.pure_def, Option.some.injEq]
  omega

/-! ## Pieces -/

/-- A number below those of halves is a character of its own. -/
theorem joinPieces_unit (h : n < 0xD800) :
    joinPieces (.unit n :: pieces) = (joinPieces pieces).map (Char.ofNat n :: ·) := by
  have hhigh : isHigh n = false := by simp [isHigh]; omega
  have hlow : isLow n = false := by simp [isLow]; omega
  cases pieces with
  | nil => simp [joinPieces, hhigh, hlow]
  | cons p pieces => cases p <;> simp [joinPieces, hhigh, hlow]

/-! ## One character -/

/-- A short escape stands for its character. -/
theorem scanString_shortEscape {e : Char} (he : e ≠ 'u') (h : shortEscape? e = some c) :
    scanString ('\\' :: e :: rest) =
      (scanString rest).map fun (pieces, rest) => (.char c :: pieces, rest) := by
  rw [scanString]
  · simp only [h, Option.bind_eq_bind, Option.bind_some]
    cases scanString rest <;> rfl
  · exact fun _ _ _ _ _ heq _ => he heq

/-- Other characters stand for themselves. -/
theorem scanString_plain (hquote : c ≠ '"') (hback : c ≠ '\\') (hcontrol : ¬ c.toNat < 0x20) :
    scanString (c :: rest) =
      (scanString rest).map fun (pieces, rest) => (.char c :: pieces, rest) := by
  rw [scanString]
  · rw [if_neg (by simp [hback, hcontrol])]
    cases scanString rest <;> rfl
  · exact hquote
  · exact fun _ _ _ _ _ heq _ => hback heq
  · exact fun _ _ heq _ => hback heq

theorem scanString_byte (h : n < 0x100) :
    scanString ('\\' :: 'u' :: '0' :: '0' :: hexDigit (n / 16) :: hexDigit (n % 16) :: rest) =
      (scanString rest).map fun (pieces, rest) => (.unit n :: pieces, rest) := by
  rw [scanString, hexWord?_byte h]
  cases scanString rest <;> rfl

/-- **A character is written** with a short escape, by its number, or as it is. -/
theorem escapeChar_cases (c : Char) :
    (∃ e, e ≠ 'u' ∧ shortEscape? e = some c ∧ escapeChar c = ['\\', e]) ∨
    (c.toNat < 0x20 ∧ escapeChar c =
      ['\\', 'u', '0', '0', hexDigit (c.toNat / 16), hexDigit (c.toNat % 16)]) ∨
    (c ≠ '"' ∧ c ≠ '\\' ∧ ¬ c.toNat < 0x20 ∧ escapeChar c = [c]) := by
  by_cases hshort : c ∈ ['"', '\\', '\n', '\r', '\t', '\x08', '\x0c']
  · left
    simp only [List.mem_cons, List.not_mem_nil, or_false] at hshort
    rcases hshort with rfl | rfl | rfl | rfl | rfl | rfl | rfl <;>
      exact ⟨_, by decide, by decide, rfl⟩
  · right
    simp only [List.mem_cons, List.not_mem_nil, or_false, not_or] at hshort
    obtain ⟨hquote, hback, hn, hr, ht, hb, hf⟩ := hshort
    rw [escapeChar, if_neg hquote, if_neg hback, if_neg hn, if_neg hr, if_neg ht, if_neg hb,
      if_neg hf]
    by_cases hcontrol : c.toNat < 0x20
    · exact Or.inl ⟨hcontrol, if_pos hcontrol⟩
    · exact Or.inr ⟨hquote, hback, hcontrol, if_neg hcontrol⟩

/-- It is read back as itself or as its number. -/
theorem scanString_escapeChar (c : Char) (rest : List Char) : ∃ p : Piece,
    (∀ pieces, joinPieces (p :: pieces) = (joinPieces pieces).map (c :: ·)) ∧
    scanString (escapeChar c ++ rest) =
      (scanString rest).map fun (pieces, rest) => (p :: pieces, rest) := by
  rcases escapeChar_cases c with
    ⟨e, he, hshort, hc⟩ | ⟨hcontrol, hc⟩ | ⟨hquote, hback, hcontrol, hc⟩
  · rw [hc]
    exact ⟨.char c, fun _ => rfl, scanString_shortEscape he hshort⟩
  · rw [hc]
    refine ⟨.unit c.toNat, fun pieces => ?_, scanString_byte (by omega)⟩
    rw [joinPieces_unit (by omega), Char.ofNat_toNat]
  · rw [hc]
    exact ⟨.char c, fun _ => rfl, scanString_plain hquote hback hcontrol⟩

/-! ## Whole texts -/

/-- What was written up to a closing quotation mark is read back. -/
theorem scanString_writeChars (cs rest : List Char) : ∃ pieces, joinPieces pieces = some cs ∧
    scanString (writeChars cs ('"' :: rest)) = some (pieces, rest) := by
  induction cs with
  | nil => exact ⟨[], rfl, by rw [writeChars, scanString]⟩
  | cons c cs ih =>
    obtain ⟨pieces, hjoin, hscan⟩ := ih
    obtain ⟨p, hp, hc⟩ := scanString_escapeChar c (writeChars cs ('"' :: rest))
    refine ⟨p :: pieces, by rw [hp, hjoin]; rfl, ?_⟩
    rw [writeChars, hc, hscan]
    rfl

/-- **A text is read back** as one token. -/
theorem scanToken_writeText (s : String) (rest : List Char) :
    scanToken (writeText s rest) = some (.string (some s), rest) := by
  obtain ⟨pieces, hjoin, hscan⟩ := scanString_writeChars s.toList rest
  rw [writeText, scanToken, hscan, Option.map_some]
  simp only [hjoin, Option.map_some, String.ofList_toList]

end EntryReport.Json
