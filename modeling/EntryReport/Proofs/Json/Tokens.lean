import EntryReport.Json.Token

/-!
# Cutting a text into tokens

Each token takes at least one character (`length_lt_of_scanToken`), so that the limit of
`tokensUpTo` is never reached: `tokens` skips blanks (`tokens_space`) and goes on behind a token
(`tokens_token`).
-/

namespace EntryReport.Json

variable {cs rest : List Char}

/-! ## What a reader leaves is shorter -/

theorem length_lt_of_scanString {pieces : List Piece}
    (h : scanString cs = some (pieces, rest)) : rest.length < cs.length := by
  fun_induction scanString cs generalizing pieces with
  | case1 => simp at h
  | case2 => simp_all
  | case5 => simp at h
  | case3 a b c d cs ih | case4 e cs _ ih =>
    simp only [Option.bind_eq_bind, Option.bind_eq_some_iff, Option.pure_def, Option.some.injEq,
      Prod.mk.injEq] at h
    obtain ⟨-, -, ⟨found, left⟩, hfound, -, rfl⟩ := h
    exact Nat.lt_trans (ih hfound) (by simp only [List.length_cons]; omega)
  | case6 c cs _ _ _ _ ih =>
    simp only [Option.bind_eq_bind, Option.bind_eq_some_iff, Option.pure_def, Option.some.injEq,
      Prod.mk.injEq] at h
    obtain ⟨⟨found, left⟩, hfound, -, rfl⟩ := h
    exact Nat.lt_trans (ih hfound) (by simp)

theorem length_scanDigits (cs : List Char) :
    (scanDigits cs).1.length + (scanDigits cs).2.length = cs.length := by
  rw [scanDigits, List.length_map, ← List.length_append, List.takeWhile_append_dropWhile]

theorem length_lt_of_scanWhole {whole : List Nat} (h : scanWhole cs = some (whole, rest)) :
    rest.length < cs.length := by
  have hlength := length_scanDigits cs
  rw [scanWhole] at h
  split at h
  · simp at h
  · simp at h
  next found hne _ =>
    rw [Option.some.inj h] at hlength hne
    have : whole.length ≠ 0 := fun h0 => hne rest (by rw [List.length_eq_zero_iff.mp h0])
    simp only at hlength
    omega

theorem length_le_of_scanDecimals {decimals : List Nat}
    (h : scanDecimals cs = some (decimals, rest)) : rest.length ≤ cs.length := by
  rw [scanDecimals.eq_def] at h
  split at h
  next cs =>
    have hlength := length_scanDigits cs
    split at h
    · simp at h
    · rw [Option.some.inj h] at hlength
      simp only [List.length_cons] at hlength ⊢
      omega
  · simp only [Option.some.injEq, Prod.mk.injEq] at h
    exact Nat.le_of_eq (by rw [h.2])

theorem length_scanSign_le (cs : List Char) : (scanSign cs).2.length ≤ cs.length := by
  rw [scanSign.eq_def]
  split <;> simp

theorem length_le_of_scanExponent {exponent : Option Exponent}
    (h : scanExponent cs = some (exponent, rest)) : rest.length ≤ cs.length := by
  cases cs with
  | nil => simp_all [scanExponent]
  | cons c cs =>
    have hsign := length_scanSign_le cs
    have hlength := length_scanDigits (scanSign cs).2
    rw [scanExponent] at h
    split at h
    · simp only at h
      split at h
      · simp at h
      next digits left _ heq =>
        rw [heq] at hlength
        simp only [Option.some.injEq, Prod.mk.injEq] at h
        simp only [h.2, List.length_cons] at hlength ⊢
        omega
    · simp only [Option.some.injEq, Prod.mk.injEq] at h
      exact Nat.le_of_eq (by rw [h.2])

theorem length_lt_of_scanNumeral {negative : Bool} {numeral : Numeral}
    (h : scanNumeral negative cs = some (numeral, rest)) : rest.length < cs.length := by
  simp only [scanNumeral, Option.bind_eq_bind, Option.bind_eq_some_iff, Option.pure_def,
    Option.some.injEq, Prod.mk.injEq] at h
  obtain ⟨⟨whole, cs₁⟩, hwhole, ⟨decimals, cs₂⟩, hdecimals, ⟨exponent, cs₃⟩, hexponent, -, rfl⟩ := h
  calc cs₃.length ≤ cs₂.length := length_le_of_scanExponent hexponent
    _ ≤ cs₁.length := length_le_of_scanDecimals hdecimals
    _ < cs.length := length_lt_of_scanWhole hwhole

/-- **A token takes at least one character.** -/
theorem length_lt_of_scanToken {t : Token} (h : scanToken cs = some (t, rest)) :
    rest.length < cs.length := by
  have hnumber : ∀ {negative : Bool} {cs : List Char},
      numberToken (scanNumeral negative cs) = some (t, rest) → rest.length < cs.length := by
    intro negative cs h
    simp only [numberToken, Option.map_eq_some_iff, Prod.mk.injEq] at h
    obtain ⟨⟨numeral, left⟩, hfound, -, rfl⟩ := h
    exact length_lt_of_scanNumeral hfound
  rw [scanToken.eq_def] at h
  split at h
  · simp at h
  case h_11 cs =>
    simp only [Option.map_eq_some_iff, Prod.mk.injEq] at h
    obtain ⟨⟨pieces, left⟩, hfound, -, rfl⟩ := h
    exact Nat.lt_succ_of_lt (length_lt_of_scanString hfound)
  case h_12 cs => exact Nat.lt_succ_of_lt (hnumber h)
  case h_13 => exact hnumber h
  all_goals
    simp only [Option.some.injEq, Prod.mk.injEq] at h
    simp only [← h.2, List.length_cons]
    omega

/-! ## Tokens one by one -/

/-- Any limit that is no less than the number of characters is as good as another. -/
theorem tokensUpTo_congr {a b : Nat} (ha : cs.length ≤ a) (hb : cs.length ≤ b) :
    tokensUpTo a cs = tokensUpTo b cs := by
  induction a generalizing b cs with
  | zero =>
    rw [List.length_eq_zero_iff.mp (Nat.le_zero.mp ha)]
    cases b <;> rfl
  | succ a ih =>
    cases b with
    | zero =>
      rw [List.length_eq_zero_iff.mp (Nat.le_zero.mp hb)]
      rfl
    | succ b =>
      rw [tokensUpTo, tokensUpTo]
      have hblank := (List.dropWhile_sublist (p := isSpace) (l := cs)).length_le
      split
      · rfl
      next c left heq =>
        rw [heq] at hblank
        split
        · rfl
        next t rest hscan =>
          have := length_lt_of_scanToken hscan
          exact congrArg (t :: ·) (ih (by omega) (by omega))

theorem tokens_nil : tokens [] = [] := rfl

theorem tokens_space {c : Char} (hc : isSpace c = true) : tokens (c :: cs) = tokens cs := by
  rw [tokens, tokens, tokensUpTo_congr (Nat.le_refl cs.length) (Nat.le_succ _), List.length_cons,
    tokensUpTo, tokensUpTo, List.dropWhile_cons_of_pos hc]

theorem tokens_spaces {blanks : List Char} (h : ∀ c ∈ blanks, isSpace c = true) :
    tokens (blanks ++ cs) = tokens cs := by
  induction blanks with
  | nil => rfl
  | cons c blanks ih =>
    rw [List.cons_append, tokens_space (h c List.mem_cons_self),
      ih fun c hc => h c (List.mem_cons_of_mem _ hc)]

/-- A token never begins with a blank. -/
theorem scanToken_space {c : Char} (hc : isSpace c = true) : scanToken (c :: cs) = none := by
  simp only [isSpace, Bool.or_eq_true, decide_eq_true_eq] at hc
  rcases hc with ((rfl | rfl) | rfl) | rfl <;> rfl

theorem tokens_token {t : Token} (h : scanToken cs = some (t, rest)) :
    tokens cs = t :: tokens rest := by
  cases cs with
  | nil => simp [scanToken] at h
  | cons c cs =>
    have hc : ¬ isSpace c = true := fun hc => by simp [scanToken_space hc] at h
    have hshort := length_lt_of_scanToken h
    rw [tokens, List.length_cons, tokensUpTo, List.dropWhile_cons_of_neg hc]
    simp only [h]
    rw [tokensUpTo_congr (Nat.le_of_lt_succ hshort) (Nat.le_refl _), tokens]

end EntryReport.Json
