import EntryReport.Proofs.Json.Documents

/-!
# Looking things up in a document

Other programs take a report apart by the keys of its members. `Members.get?` gives the value of the
first member with a key, and `Members.flag?` takes a member that is left out for false. Of an object
that was written, the value under a key is what is read of the value that was put there
(`Members.get?_asRead`). A count is read as it is if 64 bits are enough for it
(`Doc.ofCount_of_lt`).
-/

namespace EntryReport.Json

/-! ## Keys -/

/-- The value of the first member with the key. -/
def Members.get? (key : String) : Members → Option Doc
  | .closed => none
  | .broken => none
  | .member k value rest => if k = some key then some value else rest.get? key

/-- The value under a key, where the document is an object. -/
def Doc.get? (key : String) : Doc → Option Doc
  | .obj ms => ms.get? key
  | _ => none

theorem Members.get?_asRead (key : String) (ms : List (String × Json)) :
    (Members.asRead ms).get? key = (ms.lookup key).map Doc.asRead := by
  induction ms with
  | nil => rfl
  | cons m ms ih =>
    obtain ⟨k, value⟩ := m
    rw [Members.asRead, Members.get?, ih, List.lookup_cons]
    by_cases hk : k = key
    · rw [if_pos (congrArg some hk), hk, beq_self_eq_true]
      rfl
    · rw [if_neg (by simpa using hk), beq_false_of_ne (Ne.symm hk)]

theorem Doc.get?_asRead (key : String) (ms : List (String × Json)) :
    (Doc.asRead (.obj ms)).get? key = (ms.lookup key).map Doc.asRead := by
  rw [Doc.asRead, Doc.get?, Members.get?_asRead]

/-! ## Values -/

/-- The characters of a string. -/
def Doc.text? : Doc → Option String
  | .string s => s
  | _ => none

/-- A truth value. -/
def Doc.truth? : Doc → Option Bool
  | .bool b => some b
  | _ => none

/-- The string under a key. -/
def Members.text? (key : String) (ms : Members) : Option String :=
  (ms.get? key).bind Doc.text?

/-- The truth value under a key, which is false where there is no member with the key. -/
def Members.flag? (key : String) (ms : Members) : Option Bool :=
  match ms.get? key with
  | none => some false
  | some d => d.truth?

/-! ## Counts -/

/-- What is read of a count. -/
def Doc.ofCount (n : Nat) : Doc := .number (Number.int n).asRead

/-- A count of 64 bits is read as it is. -/
theorem Doc.ofCount_of_lt {n : Nat} (h : n < 2 ^ 64) : Doc.ofCount n = .number (some (.int n)) := by
  have hfits : (Number.int n).Integral := by
    refine ⟨?_, ?_⟩ <;> omega
  rw [ofCount, Number.asRead_of_integral hfits]

end EntryReport.Json
