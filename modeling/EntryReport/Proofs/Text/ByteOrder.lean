import Mathlib.Data.String.Basic

/-!
# The order of texts and of their bytes

Texts are ordered by their characters. Their bytes in UTF-8 are in the same order, because of two
characters the greater one differs from the other first at a byte that is greater
(`utf8EncodeChar_lt`).

* `bytes_lt_iff`: a text comes before another if its bytes do.
-/

namespace EntryReport.Text

/-- The bytes of a text. -/
def bytes (s : String) : List UInt8 := s.toUTF8.data.toList

theorem bytes_eq_flatMap (s : String) : bytes s = s.toList.flatMap String.utf8EncodeChar := by
  have h : s.toByteArray = s.toList.utf8Encode := by
    rw [← String.toByteArray_ofList, String.ofList_toList]
  simp [bytes, h, List.utf8Encode]

/-! ## One character -/

theorem toNat_lt (c : Char) : c.toNat < 0x110000 := by
  have hvalid := c.valid
  simp only [UInt32.isValidChar, Nat.isValidChar] at hvalid
  show c.val.toNat < 0x110000
  omega

/-- **The bytes of the greater character come later**, whatever follows. The bytes are the digits
of the characters to the base 64, behind a mark that grows with their number. -/
theorem utf8EncodeChar_lt {c d : Char} (h : c < d) (cs ds : List UInt8) :
    String.utf8EncodeChar c ++ cs < String.utf8EncodeChar d ++ ds := by
  have hlt : c.toNat < d.toNat := h
  have hd := toNat_lt d
  have hquot (n : Nat) : n / 4096 = n / 64 / 64 ∧ n / 262144 = n / 64 / 64 / 64 := by omega
  -- no mark makes a digit too great for its byte
  have hmark (n : Nat) : (n % 64 + 128) % 2 ^ 8 = n % 64 + 128 ∧
      (n % 32 + 192) % 2 ^ 8 = n % 32 + 192 ∧ (n % 16 + 224) % 2 ^ 8 = n % 16 + 224 ∧
      (n % 8 + 240) % 2 ^ 8 = n % 8 + 240 := by omega
  simp only [String.utf8EncodeChar, Char.toNat_val]
  generalize c.toNat = v at *
  generalize d.toNat = w at *
  split_ifs <;>
    simp only [List.cons_append, List.nil_append, List.cons_lt_cons_iff, UInt8.lt_iff_toNat_lt,
      ← UInt8.toNat_inj, UInt8.toNat_ofNat', hquot, hmark] <;>
    omega

theorem utf8EncodeChar_ne_nil (c : Char) : String.utf8EncodeChar c ≠ [] := by
  unfold String.utf8EncodeChar
  simp only
  split_ifs <;> simp

/-- A byte below 128 is in the encoding of its own character only: all others begin with another
byte, and go on with bytes from 128. -/
theorem not_mem_utf8EncodeChar {c : Char} {b : UInt8} (hb : b.toNat < 128)
    (hc : c.toNat ≠ b.toNat) : b ∉ String.utf8EncodeChar c := by
  intro hm
  simp only [String.utf8EncodeChar, Char.toNat_val] at hm
  split at hm
  case isTrue => simp [← UInt8.toNat_inj] at hm; omega
  case isFalse =>
    split at hm
    case isTrue => simp [← UInt8.toNat_inj] at hm; omega
    case isFalse => split at hm <;> simp [← UInt8.toNat_inj] at hm <;> omega

/-! ## Texts -/

theorem flatMap_utf8EncodeChar_lt {cs ds : List Char} (h : cs < ds) :
    cs.flatMap String.utf8EncodeChar < ds.flatMap String.utf8EncodeChar := by
  induction cs generalizing ds with
  | nil =>
    cases ds with
    | nil => exact absurd h (List.not_lt_nil _)
    | cons d ds =>
      obtain ⟨b, bs, hb⟩ := List.exists_cons_of_ne_nil (utf8EncodeChar_ne_nil d)
      rw [List.flatMap_cons, hb]
      exact List.nil_lt_cons _ _
  | cons c cs ih =>
    cases ds with
    | nil => exact absurd h (List.not_lt_nil _)
    | cons d ds =>
      rw [List.flatMap_cons, List.flatMap_cons]
      rcases List.cons_lt_cons_iff.mp h with hcd | ⟨rfl, hrest⟩
      · exact utf8EncodeChar_lt hcd _ _
      · exact List.Lex.append_left _ (ih hrest) _

theorem bytes_lt_of_lt {a b : String} (h : a < b) : bytes a < bytes b := by
  rw [bytes_eq_flatMap, bytes_eq_flatMap]
  exact flatMap_utf8EncodeChar_lt (String.lt_iff_toList_lt.mp h)

/-- **Texts are in the order of their bytes.** -/
theorem bytes_lt_iff {a b : String} : bytes a < bytes b ↔ a < b := by
  refine ⟨fun h => ?_, bytes_lt_of_lt⟩
  rcases lt_trichotomy a b with hlt | rfl | hgt
  · exact hlt
  · exact absurd h (List.lt_irrefl _)
  · exact absurd (bytes_lt_of_lt hgt) (List.lt_asymm h)

end EntryReport.Text
