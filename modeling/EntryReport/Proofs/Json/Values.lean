import EntryReport.Json.Decode
import EntryReport.Proofs.Results
import Mathlib.Data.String.Basic

/-!
# Values that were read

A value that was read is `Canonical`: it is nested no deeper than there was room for, and the
members of its objects ascend by key (`Doc.canonical_of_value`). The document of such a value is
read as the value again (`value_ofJson`).
-/

namespace EntryReport.Json

/-! ## Canonical values -/

/-- The members ascend by key. -/
def Ascending (members : List (String × Json)) : Prop :=
  members.Pairwise fun m n => m.1 < n.1

mutual
/-- The value is nested no deeper than there is room for, and all members ascend by key. -/
def Canonical (room : Nat) : Json → Prop
  | .arr values => 0 < room ∧ AllCanonical (room - 1) values
  | .obj members => 0 < room ∧ Ascending members ∧ MembersCanonical (room - 1) members
  | _ => True

/-- So is every value. -/
def AllCanonical (room : Nat) : List Json → Prop
  | [] => True
  | value :: rest => Canonical room value ∧ AllCanonical room rest

/-- So is the value of every member. -/
def MembersCanonical (room : Nat) : List (String × Json) → Prop
  | [] => True
  | (_, value) :: rest => Canonical room value ∧ MembersCanonical room rest
end

mutual
/-- More room does no harm. -/
theorem Canonical.mono {room more : Nat} (hle : room ≤ more) :
    (j : Json) → j.Canonical room → j.Canonical more
  | .null, _ | .bool _, _ | .num _, _ | .str _, _ => trivial
  | .arr values, h =>
    ⟨Nat.lt_of_lt_of_le h.1 hle, AllCanonical.mono (Nat.sub_le_sub_right hle 1) values h.2⟩
  | .obj members, h =>
    ⟨Nat.lt_of_lt_of_le h.1 hle, h.2.1,
      MembersCanonical.mono (Nat.sub_le_sub_right hle 1) members h.2.2⟩

theorem AllCanonical.mono {room more : Nat} (hle : room ≤ more) :
    (values : List Json) → AllCanonical room values → AllCanonical more values
  | [], _ => trivial
  | value :: values, h => ⟨Canonical.mono hle value h.1, AllCanonical.mono hle values h.2⟩

theorem MembersCanonical.mono {room more : Nat} (hle : room ≤ more) :
    (members : List (String × Json)) → MembersCanonical room members →
      MembersCanonical more members
  | [], _ => trivial
  | (_, value) :: members, h =>
    ⟨Canonical.mono hle value h.1, MembersCanonical.mono hle members h.2⟩
end

/-! ## Putting a member in -/

variable {key : String} {value : Json} {done : List (String × Json)} {room : Nat}

theorem mem_insertMember {m : String × Json} (h : m ∈ insertMember key value done) :
    m = (key, value) ∨ m ∈ done := by
  induction done with
  | nil => exact Or.inl (List.mem_singleton.mp h)
  | cons n done ih =>
    obtain ⟨k, v⟩ := n
    rw [insertMember] at h
    split at h
    · rcases List.mem_cons.mp h with h | h
      · exact Or.inl h
      · exact Or.inr h
    · split at h
      · rcases List.mem_cons.mp h with h | h
        · exact Or.inl h
        · exact Or.inr (List.mem_cons_of_mem _ h)
      · rcases List.mem_cons.mp h with h | h
        · exact Or.inr (h ▸ List.mem_cons_self)
        · rcases ih h with h | h
          · exact Or.inl h
          · exact Or.inr (List.mem_cons_of_mem _ h)

theorem ascending_insertMember (h : Ascending done) : Ascending (insertMember key value done) := by
  induction done with
  | nil => exact List.pairwise_singleton _ _
  | cons n done ih =>
    obtain ⟨k, v⟩ := n
    obtain ⟨hbelow, hdone⟩ := List.pairwise_cons.mp h
    rw [insertMember]
    split
    next hlt =>
      refine List.pairwise_cons.mpr ⟨fun m hm => ?_, h⟩
      rcases List.mem_cons.mp hm with rfl | hm
      · exact hlt
      · exact lt_trans hlt (hbelow m hm)
    next hle =>
      split
      next heq =>
        subst heq
        exact List.pairwise_cons.mpr ⟨hbelow, hdone⟩
      next hne =>
        refine List.pairwise_cons.mpr ⟨fun m hm => ?_, ih hdone⟩
        rcases mem_insertMember hm with rfl | hm
        · exact lt_of_le_of_ne (not_lt.mp hle) (Ne.symm hne)
        · exact hbelow m hm

theorem membersCanonical_insertMember (hvalue : value.Canonical room)
    (h : MembersCanonical room done) : MembersCanonical room (insertMember key value done) := by
  induction done with
  | nil => exact ⟨hvalue, h⟩
  | cons n done ih =>
    obtain ⟨k, v⟩ := n
    rw [insertMember]
    split
    · exact ⟨hvalue, h⟩
    · split
      · exact ⟨hvalue, h.2⟩
      · exact ⟨h.1, ih h.2⟩

/-- Behind all the others a key goes to the end. -/
theorem insertMember_of_lt (h : ∀ m ∈ done, m.1 < key) :
    insertMember key value done = done ++ [(key, value)] := by
  induction done with
  | nil => rfl
  | cons n done ih =>
    obtain ⟨k, v⟩ := n
    have hlt : k < key := h (k, v) List.mem_cons_self
    rw [insertMember, if_neg (lt_asymm hlt), if_neg (ne_of_gt hlt),
      ih fun m hm => h m (List.mem_cons_of_mem _ hm), List.cons_append]

/-! ## What is read is canonical -/

mutual
/-- **A value that was read is canonical.** -/
theorem Doc.canonical_of_value (room : Nat) {v : Json} : (d : Doc) → d.value room = .ok v →
    v.Canonical room
  | .null, h => by cases h; trivial
  | .bool b, h => by cases h; trivial
  | .number none, h => by cases h
  | .number (some n), h => by cases h; trivial
  | .string none, h => by cases h
  | .string (some s), h => by cases h; trivial
  | .fault, h => by cases h
  | .arr items, h => by
    rw [Doc.value] at h
    split at h
    · cases h
    next hroom =>
      obtain ⟨values, hvalues, rfl⟩ := map_eq_ok_iff.mp h
      exact ⟨Nat.pos_of_ne_zero hroom, Items.allCanonical_of_values _ _ items hvalues⟩
  | .obj members, h => by
    rw [Doc.value] at h
    split at h
    · cases h
    next hroom =>
      obtain ⟨values, hvalues, rfl⟩ := map_eq_ok_iff.mp h
      exact ⟨Nat.pos_of_ne_zero hroom,
        Members.canonical_of_values _ _ members List.Pairwise.nil trivial hvalues⟩

theorem Items.allCanonical_of_values (room index : Nat) {values : List Json} :
    (items : Items) → items.values room index = .ok values → AllCanonical room values
  | .closed, h => by cases h; trivial
  | .broken, h => by cases h
  | .item value rest, h => by
    rw [Items.values] at h
    obtain ⟨v, hv, h⟩ := bind_eq_ok_iff.mp h
    obtain ⟨vs, hvs, h⟩ := bind_eq_ok_iff.mp h
    cases h
    exact ⟨Doc.canonical_of_value _ value (within_eq_ok_iff.mp hv),
      Items.allCanonical_of_values _ _ rest hvs⟩

theorem Members.canonical_of_values (room index : Nat) {done values : List (String × Json)} :
    (members : Members) → Ascending done → MembersCanonical room done →
      members.values room index done = .ok values →
        Ascending values ∧ MembersCanonical room values
  | .closed, hasc, hcan, h => by cases h; exact ⟨hasc, hcan⟩
  | .broken, _, _, h => by cases h
  | .member none _ _, _, _, h => by cases h
  | .member (some key) value rest, hasc, hcan, h => by
    rw [Members.values] at h
    obtain ⟨v, hv, h⟩ := bind_eq_ok_iff.mp h
    have hvalue := Doc.canonical_of_value _ value (within_eq_ok_iff.mp hv)
    exact Members.canonical_of_values _ _ rest (ascending_insertMember hasc)
      (membersCanonical_insertMember hvalue hcan) h
end

/-- Null is read only where the document says so. -/
theorem Doc.eq_null_of_value {d : Doc} (h : d.value room = .ok .null) : d = .null := by
  cases d with
  | null => rfl
  | bool b => cases h
  | number n => cases n <;> cases h
  | string s => cases s <;> cases h
  | fault => cases h
  | arr items =>
    rw [Doc.value] at h
    split at h
    · cases h
    · obtain ⟨_, -, hnull⟩ := map_eq_ok_iff.mp h
      cases hnull
  | obj members =>
    rw [Doc.value] at h
    split at h
    · cases h
    · obtain ⟨_, -, hnull⟩ := map_eq_ok_iff.mp h
      cases hnull

/-! ## Canonical values are read back -/

mutual
/-- **A canonical value is read back** from its document. -/
theorem value_ofJson (room : Nat) : (j : Json) → j.Canonical room →
    (Doc.ofJson j).value room = .ok j
  | .null, _ => rfl
  | .bool _, _ => rfl
  | .num _, _ => rfl
  | .str _, _ => rfl
  | .arr values, h => by
    rw [Doc.ofJson, Doc.value, if_neg (Nat.pos_iff_ne_zero.mp h.1),
      values_itemsOfJson _ _ values h.2]
    rfl
  | .obj members, h => by
    rw [Doc.ofJson, Doc.value, if_neg (Nat.pos_iff_ne_zero.mp h.1),
      values_membersOfJson _ _ [] members h.2.1 h.2.2]
    rfl

theorem values_itemsOfJson (room index : Nat) : (values : List Json) → AllCanonical room values →
    (Items.ofJson values).values room index = .ok values
  | [], _ => rfl
  | value :: values, h => by
    rw [Items.ofJson, Items.values, value_ofJson _ value h.1, within_ok, ok_bind,
      values_itemsOfJson _ _ values h.2, ok_bind]
    rfl

theorem values_membersOfJson (room index : Nat) (done : List (String × Json)) :
    (members : List (String × Json)) → Ascending (done ++ members) →
      MembersCanonical room members →
        (Members.ofJson members).values room index done = .ok (done ++ members)
  | [], _, _ => by rw [Members.ofJson, Members.values, List.append_nil]
  | (key, value) :: members, hasc, hcan => by
    have hbelow : ∀ m ∈ done, m.1 < key := fun m hm =>
      (List.pairwise_append.mp hasc).2.2 m hm (key, value) List.mem_cons_self
    rw [List.append_cons] at hasc ⊢
    rw [Members.ofJson, Members.values, value_ofJson _ value hcan.1, within_ok, ok_bind,
      insertMember_of_lt hbelow, values_membersOfJson _ _ _ members hasc hcan.2]
end

end EntryReport.Json
