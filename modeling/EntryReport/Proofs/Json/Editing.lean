import EntryReport.Proofs.Json.Records
import EntryReport.Proofs.Json.Shuffling
import Mathlib.Data.List.Pairwise

/-!
# Records whose members were edited

A record is read from the members that have the keys of its fields, in whatever order they stand,
and the others are skipped. So the same is read of an object after its members were permuted, stray
ones were put in or taken away, and the value of a field was replaced by one of which the same is
read (`Record.respects_edited`).

* `Slot`: each field has a place of its own in the draft, and one decoder;
* `Record.Meets`: what reading a member makes of a draft;
* `Doc.Edited`: what may be done to the members of an object.
-/

namespace EntryReport.Json

variable {α δ : Type}

/-! ## Edited objects -/

/-- The member is none of the fields, and can be skipped. -/
def IsStray (fields : List String) (m : Option String × Doc) : Prop :=
  ∃ key, m.1 = some key ∧ key ∉ fields ∧ m.2.wellFormed = true

/-- The one list of members becomes the other when stray members are taken away and put in, and the
value of each field is replaced by one that says the same. -/
inductive Edited (fields : List String) (Same : String → Doc → Doc → Prop) :
    List (Option String × Doc) → List (Option String × Doc) → Prop
  | nil : Edited fields Same [] []
  | field {key c d ms ns} (hkey : key ∈ fields) (hsame : Same key c d)
      (h : Edited fields Same ms ns) :
      Edited fields Same ((some key, c) :: ms) ((some key, d) :: ns)
  | remove {m ms ns} (hstray : IsStray fields m) (h : Edited fields Same ms ns) :
      Edited fields Same (m :: ms) ns
  | add {n ms ns} (hstray : IsStray fields n) (h : Edited fields Same ms ns) :
      Edited fields Same ms (n :: ns)

/-- The one object becomes the other when its members are permuted and then edited. -/
def Doc.Edited (fields : List String) (Same : String → Doc → Doc → Prop) (c d : Doc) : Prop :=
  ∃ ms ps ns, c = .obj (.ofList ms) ∧ ms.Perm ps ∧ Json.Edited fields Same ps ns ∧
    d = .obj (.ofList ns)

theorem keysDistinct_of_mem {ms : List (Option String × Doc)}
    (h : (Members.ofList ms).KeysDistinct) : ∀ m ∈ ms, m.2.KeysDistinct := by
  induction ms with
  | nil => exact List.forall_mem_nil _
  | cons m ms ih => exact List.forall_mem_cons.mpr ⟨h.1, ih h.2⟩

/-! ## Items, one by one -/

/-- The items of the one array are related to those of the other. -/
def Items.Paired (R : Doc → Doc → Prop) : Items → Items → Prop
  | .item value rest, items =>
    ∃ value' rest', items = .item value' rest' ∧ R value value' ∧ rest.Paired R rest'
  | items, items' => items' = items

/-- The documents are arrays with such items, or shuffled. -/
def Doc.Paired (R : Doc → Doc → Prop) : Doc → Doc → Prop
  | .arr items, d => ∃ items', d = .arr items' ∧ items.Paired R items'
  | c, d => c.Shuffled d

theorem Items.paired_of_shuffled : (items : Items) → {items' : Items} → items.Shuffled items' →
    items.Paired Doc.Shuffled items'
  | .closed, _, h | .broken, _, h => h
  | .item value rest, _, h => by
    obtain ⟨value', rest', rfl, hvalue, hrest⟩ := h
    exact ⟨value', rest', rfl, hvalue, paired_of_shuffled rest hrest⟩

/-! ## Decoders -/

namespace Decoder

variable {decode : Decoder α} {R : Doc → Doc → Prop}

/-- What is read of a document without repeated keys is read of every document that is related
to it. -/
def Respects (decode : Decoder α) (R : Doc → Doc → Prop) : Prop :=
  ∀ c d a, c.KeysDistinct → R c d → decode c = .ok a → decode d = .ok a

theorem respects_value (room : Nat) : Respects (Doc.value room) Doc.Shuffled :=
  fun c _ _ hkeys h => value_of_shuffled room c hkeys h

theorem respects_text : text.Respects Doc.Shuffled := by
  intro c d s _ h hs
  unfold text at hs
  split at hs
  · cases h
    exact hs
  · exact absurd hs (mismatch_ne_ok _ _ _)

/-- Only null is shuffled to null. -/
theorem eq_null_of_shuffled {c : Doc} (h : c.Shuffled .null) : c = .null := by
  cases c with
  | arr items =>
    obtain ⟨_, heq, -⟩ := h
    cases heq
  | obj members =>
    obtain ⟨_, _, -, -, heq⟩ := h
    cases heq
  | _ => exact Eq.symm h

theorem respects_optional (h : decode.Respects Doc.Shuffled) :
    (optional decode).Respects Doc.Shuffled := by
  intro c d o hkeys hcd ho
  by_cases hc : c = .null
  · subst hc
    cases hcd
    exact ho
  · have hd : d ≠ .null := by
      rintro rfl
      exact hc (eq_null_of_shuffled hcd)
    rw [optional] at ho ⊢
    · obtain ⟨a, ha, rfl⟩ := map_eq_ok_iff.mp ho
      rw [h c d a hkeys hcd ha]
      rfl
    · exact hd
    · exact hc

theorem decode_of_paired (h : decode.Respects R) {index : Nat} {values : List α} :
    (items : Items) → {items' : Items} → items.KeysDistinct → items.Paired R items' →
      items.decode decode index = .ok values → items'.decode decode index = .ok values
  | .closed, _, _, hpaired, hv | .broken, _, _, hpaired, hv => by
    cases hpaired
    exact hv
  | .item value rest, _, hkeys, hpaired, hv => by
    obtain ⟨value', rest', rfl, hvalue, hrest⟩ := hpaired
    rw [Items.decode] at hv ⊢
    obtain ⟨a, ha, hv⟩ := bind_eq_ok_iff.mp hv
    obtain ⟨as, has, heq⟩ := bind_eq_ok_iff.mp hv
    rw [h _ _ a hkeys.1 hvalue (within_eq_ok_iff.mp ha), within_ok, ok_bind,
      decode_of_paired h rest hkeys.2 hrest has, ok_bind]
    exact heq

theorem respects_list (h : decode.Respects R) : (list decode).Respects (Doc.Paired R) := by
  intro c d values hkeys hcd hvalues
  unfold list at hvalues
  split at hvalues
  next items =>
    obtain ⟨items', rfl, hitems⟩ := hcd
    exact decode_of_paired h items hkeys hitems hvalues
  · exact absurd hvalues (mismatch_ne_ok _ _ _)

theorem respects_list_shuffled (h : decode.Respects Doc.Shuffled) :
    (list decode).Respects Doc.Shuffled := by
  intro c d values hkeys hcd hvalues
  refine respects_list h c d values hkeys ?_ hvalues
  cases c with
  | arr items =>
    obtain ⟨items', rfl, hitems⟩ := hcd
    exact ⟨items', rfl, items.paired_of_shuffled hitems⟩
  | _ => exact hcd

end Decoder

/-! ## Fields -/

/-- A field of a record: where it is kept in the draft, and how it is read. -/
structure Slot (r : Record δ α) where
  name : String
  {β : Type}
  get : δ → Option β
  set : δ → Option β → δ
  decode : Decoder β
  put_eq : ∀ draft d,
    r.put draft name d = do return set draft (← Decoder.once name (get draft) decode d) := by
      exact fun _ _ => rfl
  get_set : ∀ draft found, get (set draft found) = found := by exact fun _ _ => rfl

namespace Slot

variable {r : Record δ α}

theorem put_eq_ok_iff {f : Slot r} {draft draft' : δ} {d : Doc} :
    r.put draft f.name d = .ok draft' ↔
      f.get draft = none ∧ ∃ b, f.decode d = .ok b ∧ draft' = f.set draft (some b) := by
  rw [f.put_eq, bind_eq_ok_iff]
  cases hget : f.get draft with
  | none =>
    simp only [Decoder.once_none, map_eq_ok_iff, true_and]
    constructor
    · rintro ⟨_, ⟨b, hb, rfl⟩, heq⟩
      cases heq
      exact ⟨b, hb, rfl⟩
    · rintro ⟨b, hb, rfl⟩
      exact ⟨some b, ⟨b, hb, rfl⟩, rfl⟩
  | some b =>
    refine iff_of_false ?_ (fun h => Option.some_ne_none b h.1)
    rintro ⟨_, h, -⟩
    cases h

/-- The fields do not get in each other's way. -/
structure Apart (f g : Slot r) : Prop where
  get_set : ∀ draft found, f.get (g.set draft found) = f.get draft
  get_set' : ∀ draft found, g.get (f.set draft found) = g.get draft
  set_set : ∀ draft found found',
    g.set (f.set draft found) found' = f.set (g.set draft found') found

instance : Std.Symm (Apart (r := r)) where
  symm _ _ h :=
    ⟨h.get_set', h.get_set, fun draft found found' => (h.set_set draft found' found).symm⟩

theorem Apart.put_swap {f g : Slot r} (h : Apart f g) {draft mid draft' : δ} {c d : Doc}
    (hf : r.put draft f.name c = .ok mid) (hg : r.put mid g.name d = .ok draft') :
    ∃ mid', r.put draft g.name d = .ok mid' ∧ r.put mid' f.name c = .ok draft' := by
  obtain ⟨hget, a, ha, rfl⟩ := put_eq_ok_iff.mp hf
  obtain ⟨hget', b, hb, rfl⟩ := put_eq_ok_iff.mp hg
  rw [h.get_set'] at hget'
  refine ⟨g.set draft (some b), put_eq_ok_iff.mpr ⟨hget', b, hb, rfl⟩,
    put_eq_ok_iff.mpr ⟨?_, a, ha, h.set_set draft (some a) (some b)⟩⟩
  rw [h.get_set, hget]

end Slot

namespace Record

variable {r : Record δ α} {slots : List (Slot r)} {Same : String → Doc → Doc → Prop}
  {draft mid draft' : δ} {ms ns : List (Option String × Doc)} {room : Nat}

/-- These are the fields of the record, each with a place of its own. -/
structure HasSlots (r : Record δ α) (slots : List (Slot r)) : Prop where
  names : slots.map Slot.name = r.fields
  apart : slots.Pairwise Slot.Apart

theorem HasSlots.exists_slot (h : r.HasSlots slots) {key : String} (hkey : key ∈ r.fields) :
    ∃ f ∈ slots, f.name = key := by
  rw [← h.names] at hkey
  exact List.mem_map.mp hkey

/-- **Two fields can be put in in either order.** -/
theorem HasSlots.put_swap (h : r.HasSlots slots) {key key' : String} (hkey : key ∈ r.fields)
    (hkey' : key' ∈ r.fields) {c d : Doc} (hput : r.put draft key c = .ok mid)
    (hput' : r.put mid key' d = .ok draft') :
    ∃ mid', r.put draft key' d = .ok mid' ∧ r.put mid' key c = .ok draft' := by
  obtain ⟨f, hf, rfl⟩ := h.exists_slot hkey
  obtain ⟨g, hg, rfl⟩ := h.exists_slot hkey'
  by_cases hfg : f = g
  · -- the second time the field has been met
    subst hfg
    obtain ⟨-, a, -, rfl⟩ := Slot.put_eq_ok_iff.mp hput
    obtain ⟨hget, -⟩ := Slot.put_eq_ok_iff.mp hput'
    rw [f.get_set] at hget
    cases hget
  · exact (h.apart.forall hf hg hfg).put_swap hput hput'

/-! ## Reading members -/

/-- What reading a member makes of a draft. -/
def Meets (r : Record δ α) (draft : δ) (m : Option String × Doc) (mid : δ) : Prop :=
  (∃ key ∈ r.fields, m.1 = some key ∧ r.put draft key m.2 = .ok mid) ∨
    (IsStray r.fields m ∧ mid = draft)

theorem not_meets_none (value : Doc) : ¬r.Meets draft (none, value) mid := by
  rintro (⟨_, -, hkey, -⟩ | ⟨⟨_, hkey, -⟩, -⟩) <;> cases hkey

theorem meets_field {key : String} {value : Doc} (hkey : key ∈ r.fields) :
    r.Meets draft (some key, value) mid ↔ r.put draft key value = .ok mid := by
  refine ⟨?_, fun h => .inl ⟨key, hkey, rfl, h⟩⟩
  rintro (⟨_, -, heq, h⟩ | ⟨⟨_, heq, hstray, -⟩, -⟩)
  · cases heq
    exact h
  · cases heq
    exact absurd hkey hstray

theorem meets_other {key : String} {value : Doc} (hkey : key ∉ r.fields) :
    r.Meets draft (some key, value) mid ↔ value.wellFormed = true ∧ mid = draft := by
  refine ⟨?_, fun h => .inr ⟨⟨key, rfl, hkey, h.1⟩, h.2⟩⟩
  rintro (⟨_, hfield, heq, -⟩ | ⟨⟨_, -, -, hvalue⟩, hsame⟩)
  · cases heq
    exact absurd hfield hkey
  · exact ⟨hvalue, hsame⟩

/-- Where the members are counted does not matter. -/
theorem members_eq_ok_iff {index : Nat} :
    r.members index draft (.ofList ms) = .ok draft' ↔ Runs r.Meets draft ms draft' := by
  induction ms generalizing index draft with
  | nil => exact ⟨fun h => by cases h; rfl, fun h => by cases h; rfl⟩
  | cons m ms ih =>
    obtain ⟨key, value⟩ := m
    cases key with
    | none =>
      refine iff_of_false (fun h => by cases h) ?_
      rintro ⟨_, hmeets, -⟩
      exact not_meets_none value hmeets
    | some key =>
      rw [Members.ofList, members]
      by_cases hkey : key ∈ r.fields
      · rw [if_pos hkey, bind_eq_ok_iff]
        refine exists_congr fun mid => ?_
        rw [within_eq_ok_iff, ih, meets_field hkey]
      · simp only [if_neg hkey, Runs, meets_other hkey]
        by_cases hwell : value.wellFormed = true
        · rw [if_pos hwell, ih]
          refine ⟨fun h => ⟨draft, ⟨hwell, rfl⟩, h⟩, ?_⟩
          rintro ⟨_, ⟨-, rfl⟩, h⟩
          exact h
        · rw [if_neg hwell]
          refine iff_of_false (fun h => by cases h) ?_
          rintro ⟨_, ⟨hvalue, -⟩, -⟩
          exact hwell hvalue

/-- Whatever the next two members are, they may be met in either order. -/
theorem HasSlots.meets_swap (hslots : r.HasSlots slots) {m n : Option String × Doc}
    (hm : r.Meets draft m mid) (hn : r.Meets mid n draft') :
    ∃ mid', r.Meets draft n mid' ∧ r.Meets mid' m draft' := by
  rcases hm with ⟨key, hkey, hm, hput⟩ | ⟨hm, rfl⟩
  · rcases hn with ⟨key', hkey', hn, hput'⟩ | ⟨hn, rfl⟩
    · obtain ⟨mid', hfirst, hsecond⟩ := hslots.put_swap hkey hkey' hput hput'
      exact ⟨mid', .inl ⟨key', hkey', hn, hfirst⟩, .inl ⟨key, hkey, hm, hsecond⟩⟩
    · exact ⟨draft, .inr ⟨hn, rfl⟩, .inl ⟨key, hkey, hm, hput⟩⟩
  · exact ⟨draft', hn, .inr ⟨hm, rfl⟩⟩

/-- **The order of the members does not matter.** -/
theorem HasSlots.runs_perm (hslots : r.HasSlots slots) (h : ms.Perm ns)
    (hms : Runs r.Meets draft ms draft') : Runs r.Meets draft ns draft' := by
  have hfree : ms.Pairwise (fun _ _ => True) := List.pairwise_of_forall fun _ _ => trivial
  have : Std.Symm fun _ _ : Option String × Doc => True := ⟨fun _ _ => id⟩
  exact hms.perm (fun _ _ _ _ _ _ => hslots.meets_swap) h hfree

/-- **Nor do stray members,** or values that are replaced. -/
theorem HasSlots.runs_edited (hslots : r.HasSlots slots)
    (hdecode : ∀ f ∈ slots, f.decode.Respects (Same f.name)) (h : Edited r.fields Same ms ns)
    (hkeys : ∀ m ∈ ms, m.2.KeysDistinct) (hms : Runs r.Meets draft ms draft') :
    Runs r.Meets draft ns draft' := by
  induction h generalizing draft with
  | nil => exact hms
  | @field key c d ms ns hkey hsame h ih =>
    obtain ⟨hc, hrestKeys⟩ := List.forall_mem_cons.mp hkeys
    obtain ⟨mid, hmid, hrest⟩ := hms
    obtain ⟨f, hf, rfl⟩ := hslots.exists_slot hkey
    obtain ⟨hget, b, hb, rfl⟩ := Slot.put_eq_ok_iff.mp ((meets_field hkey).mp hmid)
    have hd := hdecode f hf c d b hc hsame hb
    exact ⟨_, (meets_field hkey).mpr (Slot.put_eq_ok_iff.mpr ⟨hget, b, hd, rfl⟩),
      ih hrestKeys hrest⟩
  | @remove m ms ns hstray h ih =>
    obtain ⟨-, hrestKeys⟩ := List.forall_mem_cons.mp hkeys
    obtain ⟨key, value⟩ := m
    obtain ⟨_, rfl, hother, -⟩ := hstray
    obtain ⟨mid, hmid, hrest⟩ := hms
    obtain ⟨-, rfl⟩ := (meets_other hother).mp hmid
    exact ih hrestKeys hrest
  | add hstray h ih => exact ⟨draft, .inr ⟨hstray, rfl⟩, ih hkeys hms⟩

/-- **The same record is read of an object whose members were edited.** -/
theorem respects_edited (hslots : r.HasSlots slots)
    (hdecode : ∀ f ∈ slots, f.decode.Respects (Same f.name)) :
    (r.decode room).Respects (Doc.Edited r.fields Same) := by
  rintro _ _ a hkeys ⟨ms, ps, ns, rfl, hperm, hedited, rfl⟩ ha
  rw [decode] at ha ⊢
  split at ha
  · cases ha
  next hroom =>
    obtain ⟨draft, hdraft, hfinish⟩ := bind_eq_ok_iff.mp ha
    have hruns := hslots.runs_perm hperm (members_eq_ok_iff.mp hdraft)
    have hdistinct : ∀ m ∈ ps, m.2.KeysDistinct :=
      fun m hm => keysDistinct_of_mem hkeys.2 m (hperm.mem_iff.mpr hm)
    have hmembers : r.members 0 r.draft (.ofList ns) = .ok draft :=
      members_eq_ok_iff.mpr (hslots.runs_edited hdecode hedited hdistinct hruns)
    rw [if_neg hroom, hmembers, ok_bind]
    exact hfinish

/-! ## Records from arrays -/

theorem items_of_shuffled (hslots : r.HasSlots slots)
    (hdecode : ∀ f ∈ slots, f.decode.Respects Doc.Shuffled) : {names : List String} →
    names ⊆ r.fields → {index : Nat} → {draft : δ} → (items : Items) → {items' : Items} →
      items.KeysDistinct → items.Shuffled items' → r.items index draft names items = .ok draft' →
        r.items index draft names items' = .ok draft'
  | _, _, _, _, .closed, _, _, h, hv | _, _, _, _, .broken, _, _, h, hv => by
    cases h
    exact hv
  | names, hnames, _, draft, .item value rest, _, hkeys, h, hv => by
    obtain ⟨value', rest', rfl, hvalue, hrest⟩ := h
    cases names with
    | nil => cases hv
    | cons name names =>
      obtain ⟨hname, hrestNames⟩ := List.cons_subset.mp hnames
      rw [items] at hv ⊢
      obtain ⟨mid, hput, hv⟩ := bind_eq_ok_iff.mp hv
      obtain ⟨f, hf, rfl⟩ := hslots.exists_slot hname
      obtain ⟨hget, b, hb, rfl⟩ := Slot.put_eq_ok_iff.mp (within_eq_ok_iff.mp hput)
      have hb' := hdecode f hf _ _ b hkeys.1 hvalue hb
      rw [Slot.put_eq_ok_iff.mpr ⟨hget, b, hb', rfl⟩, within_ok, ok_bind]
      exact items_of_shuffled hslots hdecode hrestNames rest hkeys.2 hrest hv

end Record

end EntryReport.Json
