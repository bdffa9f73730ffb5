import EntryReport.Proofs.Json.Spelling

/-!
# Decoders and what was written

`Decoder.Recovers`: a decoder reads the document of a value that was written as what was written.
For a record this is proved one member at a time: `Record.Takes` says how some members change the
draft, whatever members follow.

The other way round, what every field keeps of a draft holds of the draft that a record is made of
(`Record.exists_draft`).
-/

namespace EntryReport.Json

/-! ## Simple types -/

namespace Decoder

variable {α : Type} {decode : Decoder α} {encode : α → Json}

/-- The decoder reads back what is written of `a`. -/
def Recovers (decode : Decoder α) (encode : α → Json) (a : α) : Prop :=
  decode (Doc.ofJson (encode a)) = .ok a

theorem recovers_text (s : String) : text.Recovers .str s := rfl

theorem recovers_flag (b : Bool) : flag.Recovers .bool b := rfl

theorem decode_itemsOfJson (index : Nat) (values : List α)
    (h : ∀ a ∈ values, decode.Recovers encode a) :
    (Items.ofJson (values.map encode)).decode decode index = .ok values := by
  induction values generalizing index with
  | nil => rfl
  | cons a values ih =>
    have ha : decode (Doc.ofJson (encode a)) = .ok a := h a List.mem_cons_self
    have hrest := ih (index + 1) fun b hb => h b (List.mem_cons_of_mem _ hb)
    rw [List.map_cons, Items.ofJson, Items.decode, ha, within_ok, ok_bind, hrest, ok_bind]
    rfl

theorem recovers_list {values : List α} (h : ∀ a ∈ values, decode.Recovers encode a) :
    (list decode).Recovers (fun values => .arr (values.map encode)) values :=
  decode_itemsOfJson 0 values h

theorem recovers_strs (texts : List String) : (list text).Recovers .strs texts :=
  recovers_list fun s _ => recovers_text s

/-- Only null is read as nothing. -/
theorem optional_ofJson {j : Json} (hj : j ≠ .null) :
    optional decode (Doc.ofJson j) = (decode (Doc.ofJson j)).map some := by
  cases j with
  | null => exact absurd rfl hj
  | _ => rfl

theorem recovers_optional {o : Option α}
    (h : ∀ a, o = some a → encode a ≠ .null ∧ decode.Recovers encode a) :
    (optional decode).Recovers (Json.optional encode) o := by
  cases o with
  | none => rfl
  | some a =>
    obtain ⟨hnull, ha⟩ := h a rfl
    unfold Recovers at ha ⊢
    rw [Json.optional, optional_ofJson hnull, ha]
    rfl

theorem recovers_of_text (o : Option String) :
    ∀ s, o = some s → Json.str s ≠ .null ∧ text.Recovers .str s :=
  fun s _ => ⟨nofun, recovers_text s⟩

theorem recovers_of_flag (o : Option Bool) :
    ∀ b, o = some b → Json.bool b ≠ .null ∧ flag.Recovers .bool b :=
  fun b _ => ⟨nofun, recovers_flag b⟩

theorem recovers_optionalText (o : Option String) :
    (optional text).Recovers (Json.optional .str) o :=
  recovers_optional (recovers_of_text o)

/-! ## What a decoder gives -/

theorem exists_doc_of_mem_items {items : Items} {index : Nat} {values : List α}
    (h : items.decode decode index = .ok values) : ∀ a ∈ values, ∃ d, decode d = .ok a := by
  fun_induction Items.decode decode index items generalizing values with
  | case1 =>
    cases h
    exact fun a ha => absurd ha List.not_mem_nil
  | case2 => cases h
  | case3 index value rest ih =>
    obtain ⟨a, ha, h⟩ := bind_eq_ok_iff.mp h
    obtain ⟨as, has, h⟩ := bind_eq_ok_iff.mp h
    cases h
    intro b hb
    rcases List.mem_cons.mp hb with rfl | hb
    · exact ⟨value, within_eq_ok_iff.mp ha⟩
    · exact ih has b hb

theorem mismatch_ne_ok (d : Doc) (expected : String) (a : α) : d.mismatch expected ≠ .ok a := by
  unfold Doc.mismatch
  split <;> exact nofun

theorem exists_doc_of_mem {d : Doc} {values : List α} (h : list decode d = .ok values) :
    ∀ a ∈ values, ∃ d, decode d = .ok a := by
  unfold list at h
  split at h
  · exact exists_doc_of_mem_items h
  · exact absurd h (mismatch_ne_ok _ _ _)

/-- What is read where there may be nothing is read by the decoder itself. -/
theorem of_optional {d : Doc} {a : α} (h : optional decode d = .ok (some a)) :
    d ≠ .null ∧ decode d = .ok a := by
  unfold optional at h
  split at h
  · cases h
  next hnull =>
    obtain ⟨b, hb, hab⟩ := map_eq_ok_iff.mp h
    cases hab
    exact ⟨hnull, hb⟩

theorem of_once {name : String} {slot : Option α} {d : Doc} {found : Option α}
    (h : once name slot decode d = .ok found) : ∃ a, found = some a ∧ decode d = .ok a := by
  unfold once at h
  split at h
  · cases h
  · obtain ⟨a, ha, rfl⟩ := map_eq_ok_iff.mp h
    exact ⟨a, rfl, ha⟩

theorem once_none (name : String) (d : Doc) : once name none decode d = (decode d).map some := rfl

/-! ## Whole texts -/

theorem exists_doc_of_run {s : String} {a : α} (h : decode.run s = .ok a) :
    ∃ d, decode d = .ok a := by
  obtain ⟨d, -, hd⟩ := run_eq_ok_iff.mp h
  exact ⟨d, hd⟩

/-- **What is recovered from its value is read back from both texts** of that value. -/
theorem Recovers.run {a : α} (h : decode.Recovers encode a) (hj : (encode a).Integral) :
    decode.run (encode a).compact = .ok a ∧ decode.run (encode a).pretty = .ok a := by
  have hread : ∀ layout : Layout, layout.Blank → decode.run ((encode a).text layout) = .ok a :=
    fun layout hlayout => run_eq_ok_iff.mpr ⟨_, spelledBy_text_of_integral hlayout hj, h⟩
  exact ⟨hread _ Layout.blank_compact, hread _ Layout.blank_pretty⟩

end Decoder

/-! ## Fields that may be absent -/

/-- A field with a value was met. -/
theorem eq_some_of_getD {α : Type} {o : Option (Option α)} {a : α} (h : o.getD none = some a) :
    o = some (some a) := by
  cases o with
  | none => cases h
  | some o => exact congrArg some h

/-- A field that was left out has no value. -/
theorem getD_map_some {α : Type} (o : Option α) : (o.map some).getD none = o := by
  cases o <;> rfl

/-! ## Records -/

namespace Record

variable {δ α β : Type} {r : Record δ α} {d d₁ d₂ d₃ : δ} {room : Nat}

/-- The members take the one draft to the other, whatever members follow. -/
def Takes (r : Record δ α) (d₁ : δ) (ms : List (String × Json)) (d₂ : δ) : Prop :=
  ∀ index rest, r.members index d₁ (Members.ofJson (ms ++ rest)) =
    r.members (index + ms.length) d₂ (Members.ofJson rest)

theorem takes_nil : r.Takes d [] d := fun _ _ => rfl

theorem Takes.append {ms ns : List (String × Json)} (h : r.Takes d₁ ms d₂)
    (h' : r.Takes d₂ ns d₃) : r.Takes d₁ (ms ++ ns) d₃ := by
  intro index rest
  rw [List.append_assoc, h, h', List.length_append, Nat.add_assoc]

/-- A field that was not met before takes what is written of its value. -/
theorem takes_field (key : String) {encode : β → Json} {decode : Decoder β} {b : β}
    (set : δ → Option β → δ) (hkey : key ∈ r.fields)
    (hput : ∀ v, r.put d key v = do return set d (← Decoder.once key none decode v))
    (h : decode.Recovers encode b) : r.Takes d [(key, encode b)] (set d (some b)) := by
  intro index rest
  unfold Decoder.Recovers at h
  rw [List.singleton_append, Members.ofJson, members, if_pos hkey, hput, Decoder.once_none, h]
  rfl

/-- An optional field takes its value, or is left out. -/
theorem takes_member? (key : String) {encode : β → Json} {decode : Decoder β} {o : Option β}
    (set : δ → Option (Option β) → δ) (hkey : key ∈ r.fields)
    (hput : ∀ v, r.put d key v =
      do return set d (← Decoder.once key none (Decoder.optional decode) v))
    (hnone : set d none = d)
    (h : ∀ b, o = some b → encode b ≠ .null ∧ decode.Recovers encode b) :
    r.Takes d (Json.member? key encode o) (set d (o.map some)) := by
  cases o with
  | none =>
    show r.Takes d [] (set d none)
    rw [hnone]
    exact takes_nil
  | some b =>
    have hb : (Decoder.optional decode).Recovers (Json.optional encode) (some b) :=
      Decoder.recovers_optional (fun _ hc => h _ hc)
    exact takes_field key set hkey hput hb

/-- **The members that were written make a draft,** and it is the record's. -/
theorem Takes.decode {ms : List (String × Json)} (h : r.Takes r.draft ms d) (hroom : room ≠ 0) :
    r.decode room (Doc.ofJson (.obj ms)) = r.finish .missingField d := by
  have hms := h 0 []
  rw [List.append_nil, Members.ofJson, members] at hms
  rw [Doc.ofJson, Record.decode, if_neg hroom, hms]
  rfl

/-! ## What holds of every draft -/

section Invariant

variable {P : δ → Prop}
  (hput : ∀ d name value d', P d → r.put d name value = .ok d' → P d')

include hput

theorem members_keep {index : Nat} {ms : Members} (hd : P d)
    (h : r.members index d ms = .ok d₁) : P d₁ := by
  fun_induction Record.members r index d ms with
  | case1 => cases h; exact hd
  | case2 => cases h
  | case3 => cases h
  | case4 index d key value rest hkey ih =>
    obtain ⟨d', hd', h⟩ := bind_eq_ok_iff.mp h
    exact ih d' (hput d key value d' hd (within_eq_ok_iff.mp hd')) h
  | case5 index d key value rest hkey hwell ih => exact ih hd h
  | case6 => cases h

theorem items_keep {index : Nat} {names : List String} {is : Items} (hd : P d)
    (h : r.items index d names is = .ok d₁) : P d₁ := by
  fun_induction Record.items r index d names is with
  | case1 => cases h; exact hd
  | case2 => cases h
  | case3 => cases h
  | case4 index d name names value rest ih =>
    obtain ⟨d', hd', h⟩ := bind_eq_ok_iff.mp h
    exact ih d' (hput d name value d' hd (within_eq_ok_iff.mp hd')) h

/-- **What every field keeps of a draft** holds of the draft that a record is made of. -/
theorem exists_draft {doc : Doc} {a : α} (hdraft : P r.draft) (h : r.decode room doc = .ok a) :
    ∃ d fault, P d ∧ r.build fault d = .ok a := by
  unfold decode at h
  split at h
  next ms =>
    split at h
    · cases h
    · obtain ⟨d, hd, h⟩ := bind_eq_ok_iff.mp h
      exact ⟨d, _, members_keep hput hdraft hd, mapError_eq_ok_iff.mp h⟩
  next is =>
    split at h
    · cases h
    · obtain ⟨d, hd, h⟩ := bind_eq_ok_iff.mp h
      exact ⟨d, _, items_keep hput hdraft hd, mapError_eq_ok_iff.mp h⟩
  · exact absurd h (Decoder.mismatch_ne_ok _ _ _)

end Invariant

end Record

end EntryReport.Json
