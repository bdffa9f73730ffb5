import EntryReport.Proofs.Json.Writing

/-!
# The characters of a text that was written

The text of a value over several lines has no control character but line breaks, whatever texts the
value holds (`legible_pretty`): in them every control is written as an escape.
-/

namespace EntryReport.Json

variable {c : Char} {cs rest : List Char}

/-- No control character, or a line break. -/
def Legible (c : Char) : Prop := c.toNat < 0x20 → c = '\n'

theorem legible_of_le (h : 0x20 ≤ c.toNat) : Legible c :=
  fun hc => absurd hc (Nat.not_lt.mpr h)

/-! ## Texts and numbers -/

theorem le_of_shortEscape? {e : Char} (h : shortEscape? e = some c) : 0x20 ≤ e.toNat := by
  unfold shortEscape? at h
  split_ifs at h <;> subst e <;> decide

theorem legible_hexDigit {n : Nat} (h : n < 16) : Legible (hexDigit n) := by
  refine legible_of_le ?_
  revert n
  decide

theorem legible_escapeChar (c : Char) : ∀ d ∈ escapeChar c, Legible d := by
  have hback : Legible '\\' := legible_of_le (by decide)
  rcases escapeChar_cases c with ⟨e, -, hshort, hc⟩ | ⟨hcontrol, hc⟩ | ⟨-, -, hplain, hc⟩
  · rw [hc, List.forall_mem_cons, List.forall_mem_singleton]
    exact ⟨hback, legible_of_le (le_of_shortEscape? hshort)⟩
  · have hu : Legible 'u' := legible_of_le (by decide)
    have hzero : Legible '0' := legible_of_le (by decide)
    have hhigh : Legible (hexDigit (c.toNat / 16)) := legible_hexDigit (by omega)
    have hlow : Legible (hexDigit (c.toNat % 16)) := legible_hexDigit (by omega)
    rw [hc]
    simp [hback, hu, hzero, hhigh, hlow]
  · rw [hc, List.forall_mem_singleton]
    exact legible_of_le (Nat.not_lt.mp hplain)

theorem legible_writeChars (h : ∀ c ∈ rest, Legible c) : ∀ c ∈ writeChars cs rest, Legible c := by
  induction cs with
  | nil => exact h
  | cons c cs ih =>
    rw [writeChars, List.forall_mem_append]
    exact ⟨legible_escapeChar c, ih⟩

theorem legible_writeText (s : String) (h : ∀ c ∈ rest, Legible c) :
    ∀ c ∈ writeText s rest, Legible c := by
  have hquote : Legible '"' := legible_of_le (by decide)
  rw [writeText, List.forall_mem_cons]
  exact ⟨hquote, legible_writeChars (List.forall_mem_cons.mpr ⟨hquote, h⟩)⟩

theorem legible_intText (n : Int) : ∀ c ∈ intText n, Legible c := by
  have hdigits : ∀ c ∈ Nat.toDigits 10 n.natAbs, Legible c := by
    intro c hc
    have hdigit := Char.isDigit_iff_toNat.mp (isDigit_of_mem_toDigits hc)
    exact legible_of_le (Nat.le_trans (by decide) hdigit.1)
  unfold intText
  split
  · exact List.forall_mem_cons.mpr ⟨legible_of_le (by decide), hdigits⟩
  · exact hdigits

/-! ## Whole values -/

theorem legible_lineBreak (depth : Nat) (h : ∀ c ∈ rest, Legible c) :
    ∀ c ∈ Layout.pretty.lineBreak depth ++ rest, Legible c := by
  have hspaces : ∀ c ∈ List.replicate (2 * depth) ' ', Legible c := by
    intro c hc
    rw [List.eq_of_mem_replicate hc]
    exact legible_of_le (by decide)
  have hbreak : Legible '\n' := fun _ => rfl
  rw [List.forall_mem_append]
  exact ⟨List.forall_mem_cons.mpr ⟨hbreak, hspaces⟩, h⟩

/-- A visible character in front of what is legible. -/
theorem legible_cons (hc : 0x20 ≤ c.toNat) (h : ∀ c ∈ rest, Legible c) :
    ∀ d ∈ c :: rest, Legible d :=
  List.forall_mem_cons.mpr ⟨legible_of_le hc, h⟩

/-- What stands behind the key of a member. -/
theorem legible_colon (h : ∀ c ∈ rest, Legible c) :
    ∀ c ∈ ':' :: (Layout.pretty.afterColon ++ rest), Legible c :=
  legible_cons (by decide) (legible_cons (by decide) h)

mutual
/-- **A value that was written has no control character in it** but line breaks. -/
theorem legible_write (depth : Nat) (rest : List Char) (h : ∀ c ∈ rest, Legible c) :
    (j : Json) → j.Whole → ∀ c ∈ write .pretty depth j rest, Legible c
  | .null, _ => by
    rw [write, List.forall_mem_append]
    exact ⟨by simp [Legible], h⟩
  | .bool true, _ => by
    rw [write, List.forall_mem_append]
    exact ⟨by simp [Legible], h⟩
  | .bool false, _ => by
    rw [write, List.forall_mem_append]
    exact ⟨by simp [Legible], h⟩
  | .num (.int n), _ => by
    rw [write, numberText, List.forall_mem_append]
    exact ⟨legible_intText n, h⟩
  | .num (.float _), hj => hj.elim
  | .str s, _ => by
    rw [write]
    exact legible_writeText s h
  | .arr [], _ => by
    rw [write]
    exact legible_cons (by decide) (legible_cons (by decide) h)
  | .arr (value :: values), hj => by
    have hend := legible_lineBreak depth (legible_cons (c := ']') (by decide) h)
    have hvalues := legible_writeItems (depth + 1) _ hend values hj.2
    rw [write]
    exact legible_cons (by decide)
      (legible_lineBreak _ (legible_write (depth + 1) _ hvalues value hj.1))
  | .obj [], _ => by
    rw [write]
    exact legible_cons (by decide) (legible_cons (by decide) h)
  | .obj ((key, value) :: members), hj => by
    have hend := legible_lineBreak depth (legible_cons (c := '\x7d') (by decide) h)
    have hmembers := legible_writeMembers (depth + 1) _ hend members hj.2
    rw [write]
    exact legible_cons (by decide) (legible_lineBreak _ (legible_writeText key
      (legible_colon (legible_write (depth + 1) _ hmembers value hj.1))))

theorem legible_writeItems (depth : Nat) (rest : List Char) (h : ∀ c ∈ rest, Legible c) :
    (values : List Json) → AllWhole values →
      ∀ c ∈ writeItems .pretty depth values rest, Legible c
  | [], _ => by
    rw [writeItems]
    exact h
  | value :: values, hj => by
    have hvalues := legible_writeItems depth rest h values hj.2
    rw [writeItems]
    exact legible_cons (by decide)
      (legible_lineBreak _ (legible_write depth _ hvalues value hj.1))

theorem legible_writeMembers (depth : Nat) (rest : List Char) (h : ∀ c ∈ rest, Legible c) :
    (members : List (String × Json)) → MembersWhole members →
      ∀ c ∈ writeMembers .pretty depth members rest, Legible c
  | [], _ => by
    rw [writeMembers]
    exact h
  | (key, value) :: members, hj => by
    have hmembers := legible_writeMembers depth rest h members hj.2
    rw [writeMembers]
    exact legible_cons (by decide) (legible_lineBreak _ (legible_writeText key
      (legible_colon (legible_write depth _ hmembers value hj.1))))
end

/-- **The text over several lines** has no control character but line breaks. -/
theorem legible_pretty {j : Json} (hj : j.Whole) : ∀ c ∈ j.pretty.toList, Legible c := by
  rw [pretty, text, String.toList_ofList]
  exact legible_write 0 [] (List.forall_mem_nil _) j hj

end EntryReport.Json
