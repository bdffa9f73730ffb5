import EntryReport.Proofs.Json.Values
import Mathlib.Data.List.Nodup

/-!
# The order of members

What two texts say may be the same although the members of their objects stand in another order.
`Doc.Shuffled` is this relation of documents, at any depth. A value is read alike from shuffled
documents, if no object in them repeats a key (`value_of_shuffled`): the members of a value that is
read ascend by key, and those with different keys can be put in in either order
(`insertMember_comm`). Steps that can be swapped two by two can be made in any order (`Runs.perm`).
-/

namespace EntryReport.Json

/-! ## Steps in another order -/

section Runs

variable {σ μ : Type} {Step : σ → μ → σ → Prop}

/-- The steps for these, one after the other, lead from the one state to the other. -/
def Runs (Step : σ → μ → σ → Prop) : σ → List μ → σ → Prop
  | a, [], b => b = a
  | a, m :: ms, c => ∃ b, Step a m b ∧ Runs Step b ms c

/-- **Steps that can be swapped can be made in any order.** -/
theorem Runs.perm {Free : μ → μ → Prop} [Std.Symm Free] {a b : σ} {ms ns : List μ}
    (hms : Runs Step a ms b)
    (hswap : ∀ a b c m n, Free m n → Step a m b → Step b n c → ∃ b', Step a n b' ∧ Step b' m c)
    (h : ms.Perm ns) (hfree : ms.Pairwise Free) : Runs Step a ns b := by
  induction h generalizing a with
  | nil => exact hms
  | cons m h ih =>
    obtain ⟨mid, hm, hrest⟩ := hms
    exact ⟨mid, hm, ih hrest (List.pairwise_cons.mp hfree).2⟩
  | swap m n ms =>
    obtain ⟨mid, hn, mid', hm, hrest⟩ := hms
    have hmn : Free n m := (List.pairwise_cons.mp hfree).1 m List.mem_cons_self
    obtain ⟨mid₂, hm, hn⟩ := hswap a mid mid' n m hmn hn hm
    exact ⟨mid₂, hm, mid', hn, hrest⟩
  | trans h h' ih ih' => exact ih' (ih hms hfree) ((h.pairwise_iff (Std.Symm.symm _ _)).mp hfree)

end Runs

/-! ## Shuffled documents -/

/-- The members of an object, in order. -/
def Members.ofList : List (Option String × Doc) → Members
  | [] => .closed
  | (key, value) :: rest => .member key value (.ofList rest)

mutual
/-- The documents differ at most in the order of the members of the objects in them. -/
def Doc.Shuffled : Doc → Doc → Prop
  | .arr items, d => ∃ items', d = .arr items' ∧ items.Shuffled items'
  | .obj members, d => ∃ ms ms', members.Shuffled ms ∧ ms.Perm ms' ∧ d = .obj (.ofList ms')
  | c, d => d = c

/-- So do the items, one by one. -/
def Items.Shuffled : Items → Items → Prop
  | .item value rest, items =>
    ∃ value' rest', items = .item value' rest' ∧ value.Shuffled value' ∧ rest.Shuffled rest'
  | items, items' => items' = items

/-- So do the values of the members, one by one, and their keys are the same. -/
def Members.Shuffled : Members → List (Option String × Doc) → Prop
  | .closed, ms => ms = []
  | .broken, _ => False
  | .member key value rest, ms =>
    ∃ value' rest', ms = (key, value') :: rest' ∧ value.Shuffled value' ∧ rest.Shuffled rest'
end

/-! ## Keys -/

/-- The keys of the members, as far as they stand for texts. -/
def Members.keys : Members → List String
  | .closed => []
  | .broken => []
  | .member key _ rest => key.toList ++ rest.keys

mutual
/-- No object in the document repeats a key. -/
def Doc.KeysDistinct : Doc → Prop
  | .arr items => items.KeysDistinct
  | .obj members => members.keys.Nodup ∧ members.KeysDistinct
  | _ => True

/-- Nor does one in the items. -/
def Items.KeysDistinct : Items → Prop
  | .closed => True
  | .broken => True
  | .item value rest => value.KeysDistinct ∧ rest.KeysDistinct

/-- Nor does one in the values of the members. -/
def Members.KeysDistinct : Members → Prop
  | .closed => True
  | .broken => True
  | .member _ value rest => value.KeysDistinct ∧ rest.KeysDistinct
end

variable {ms ms' : List (Option String × Doc)} {room : Nat}

theorem keys_ofList (ms : List (Option String × Doc)) :
    (Members.ofList ms).keys = ms.flatMap (·.1.toList) := by
  induction ms with
  | nil => rfl
  | cons m ms ih => rw [Members.ofList, Members.keys, ih, List.flatMap_cons]

/-- Two members do not have one key. -/
def Unlike (m n : Option String × Doc) : Prop := m.1.toList.Disjoint n.1.toList

instance : Std.Symm Unlike where
  symm _ _ := List.disjoint_symm

theorem pairwise_unlike (hkeys : (Members.ofList ms).keys.Nodup) : ms.Pairwise Unlike := by
  rw [keys_ofList] at hkeys
  exact (List.nodup_flatMap.mp hkeys).2

theorem keys_of_shuffled : (members : Members) → {ms : List (Option String × Doc)} →
    members.Shuffled ms → (Members.ofList ms).keys = members.keys
  | .closed, _, h => by
    cases h
    rfl
  | .broken, _, h => h.elim
  | .member key value rest, _, h => by
    obtain ⟨value', rest', rfl, -, hrest⟩ := h
    rw [Members.ofList, Members.keys, Members.keys, keys_of_shuffled rest hrest]

/-! ## Reading a value -/

/-- Members with different keys are put in in either order. -/
theorem insertMember_comm {key key' : String} (hne : key ≠ key') (value value' : Json)
    (done : List (String × Json)) :
    insertMember key value (insertMember key' value' done) =
      insertMember key' value' (insertMember key value done) := by
  induction done with
  | nil => grind [insertMember]
  | cons m done ih =>
    obtain ⟨k, v⟩ := m
    grind [insertMember]

/-- What reading a member makes of those that were read before it. -/
def ReadsMember (room : Nat) (done : List (String × Json)) (m : Option String × Doc)
    (done' : List (String × Json)) : Prop :=
  ∃ key v, m.1 = some key ∧ m.2.value room = .ok v ∧ done' = insertMember key v done

theorem values_eq_ok_iff {index : Nat} {done values : List (String × Json)} :
    (Members.ofList ms).values room index done = .ok values ↔
      Runs (ReadsMember room) done ms values := by
  induction ms generalizing index done with
  | nil => exact ⟨fun h => by cases h; rfl, fun h => by cases h; rfl⟩
  | cons m ms ih =>
    obtain ⟨key, value⟩ := m
    cases key with
    | none =>
      refine iff_of_false (fun h => by cases h) ?_
      rintro ⟨_, ⟨_, _, hkey, -⟩, -⟩
      cases hkey
    | some key =>
      rw [Members.ofList, Members.values, bind_eq_ok_iff]
      constructor
      · rintro ⟨v, hv, hvalues⟩
        exact ⟨_, ⟨key, v, rfl, within_eq_ok_iff.mp hv, rfl⟩, ih.mp hvalues⟩
      · rintro ⟨_, ⟨_, v, hkey, hv, rfl⟩, hvalues⟩
        cases hkey
        exact ⟨v, within_eq_ok_iff.mpr hv, ih.mpr hvalues⟩

/-- **The order of the members does not matter** where they have different keys. -/
theorem values_of_perm {index : Nat} {done values : List (String × Json)} (h : ms.Perm ms')
    (hkeys : (Members.ofList ms).keys.Nodup)
    (hvalues : (Members.ofList ms).values room index done = .ok values) :
    (Members.ofList ms').values room index done = .ok values := by
  refine values_eq_ok_iff.mpr ((values_eq_ok_iff.mp hvalues).perm ?_ h (pairwise_unlike hkeys))
  rintro done _ _ ⟨_, value⟩ ⟨_, value'⟩ hunlike ⟨key, v, rfl, hv, rfl⟩ ⟨key', v', rfl, hv', rfl⟩
  have hne : key' ≠ key := by
    rintro rfl
    exact hunlike List.mem_cons_self List.mem_cons_self
  exact ⟨_, ⟨key', v', rfl, hv', rfl⟩, key, v, rfl, hv, insertMember_comm hne v' v done⟩

mutual
/-- **A value is read alike from shuffled documents.** -/
theorem value_of_shuffled (room : Nat) {d : Doc} {v : Json} : (c : Doc) → c.KeysDistinct →
    c.Shuffled d → c.value room = .ok v → d.value room = .ok v
  | .null, _, h, hv | .bool _, _, h, hv | .number _, _, h, hv | .string _, _, h, hv
  | .fault, _, h, hv => by
    cases h
    exact hv
  | .arr items, hkeys, h, hv => by
    obtain ⟨items', rfl, hitems⟩ := h
    rw [Doc.value] at hv ⊢
    split at hv
    · cases hv
    next hroom =>
      obtain ⟨values, hvalues, rfl⟩ := map_eq_ok_iff.mp hv
      rw [if_neg hroom, itemValues_of_shuffled _ _ items hkeys hitems hvalues]
      rfl
  | .obj members, hkeys, h, hv => by
    obtain ⟨ms, ms', hmembers, hperm, rfl⟩ := h
    rw [Doc.value] at hv ⊢
    split at hv
    · cases hv
    next hroom =>
      obtain ⟨values, hvalues, rfl⟩ := map_eq_ok_iff.mp hv
      have hnodup : (Members.ofList ms).keys.Nodup := by
        rw [keys_of_shuffled members hmembers]
        exact hkeys.1
      have hsame := memberValues_of_shuffled _ _ members hkeys.2 hmembers hvalues
      rw [if_neg hroom, values_of_perm hperm hnodup hsame]
      rfl

theorem itemValues_of_shuffled (room index : Nat) {items' : Items} {values : List Json} :
    (items : Items) → items.KeysDistinct → items.Shuffled items' →
      items.values room index = .ok values → items'.values room index = .ok values
  | .closed, _, h, hv | .broken, _, h, hv => by
    cases h
    exact hv
  | .item value rest, hkeys, h, hv => by
    obtain ⟨value', rest', rfl, hvalue, hrest⟩ := h
    rw [Items.values] at hv ⊢
    obtain ⟨v, hv, hvalues⟩ := bind_eq_ok_iff.mp hv
    obtain ⟨vs, hvs, heq⟩ := bind_eq_ok_iff.mp hvalues
    rw [value_of_shuffled _ value hkeys.1 hvalue (within_eq_ok_iff.mp hv), within_ok, ok_bind,
      itemValues_of_shuffled _ _ rest hkeys.2 hrest hvs, ok_bind]
    exact heq

theorem memberValues_of_shuffled (room index : Nat) {ms : List (Option String × Doc)}
    {done values : List (String × Json)} : (members : Members) → members.KeysDistinct →
      members.Shuffled ms → members.values room index done = .ok values →
        (Members.ofList ms).values room index done = .ok values
  | .closed, _, h, hv => by
    cases h
    exact hv
  | .broken, _, h, _ => h.elim
  | .member none value rest, _, h, hv => by cases hv
  | .member (some key) value rest, hkeys, h, hv => by
    obtain ⟨value', rest', rfl, hvalue, hrest⟩ := h
    rw [Members.values] at hv
    obtain ⟨v, hv, hvalues⟩ := bind_eq_ok_iff.mp hv
    rw [Members.ofList, Members.values,
      value_of_shuffled _ value hkeys.1 hvalue (within_eq_ok_iff.mp hv), within_ok, ok_bind]
    exact memberValues_of_shuffled _ _ rest hkeys.2 hrest hvalues
end

end EntryReport.Json
