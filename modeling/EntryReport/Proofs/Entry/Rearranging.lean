import EntryReport.Panel
import EntryReport.Proofs.Json.Editing
import EntryReport.Proofs.Json.Spelling

/-!
# Entries whose members stand in another order

Each field of an entry, and of a parameter, has a place of its own (`Entry.hasSlots`,
`ParamDoc.hasSlots`), so the fields may be met in any order. `Entry.Rearranged` is what two texts of
one entry may differ in: the order of the members of every object at any depth, and members of the
entry and of its parameters that are none of the fields. The same entry is read of both, and the
same panel is made of it (`Entry.ofText_of_rearranged`).
-/

namespace EntryReport

open Json (Decoder Doc Items Members Record Slot)

variable {room : Nat}

/-! ## Parameters -/

/-- The places of the fields of a parameter in its draft. -/
def ParamDoc.slots : List (Slot ParamDoc.record) :=
  [{ name := "key", get := (·.key), set := fun d x => { d with key := x }, decode := Decoder.text },
    { name := "description", get := (·.description), set := fun d x => { d with description := x },
      decode := Decoder.text }]

theorem ParamDoc.hasSlots : ParamDoc.record.HasSlots ParamDoc.slots where
  names := rfl
  apart := List.pairwise_pair.mpr ⟨fun _ _ => rfl, fun _ _ => rfl, fun _ _ _ => rfl⟩

/-- Parameters that differ at most in the order of their members and in stray ones. A parameter that
is given as an array has neither. -/
def ParamDoc.Alike : Doc → Doc → Prop
  | .arr items, d => (Doc.arr items).Shuffled d
  | c, d => c.Edited ParamDoc.record.fields (fun _ => Doc.Shuffled) d

theorem ParamDoc.respects : (ParamDoc.record.decode room).Respects ParamDoc.Alike := by
  have htexts : ∀ f ∈ ParamDoc.slots, f.decode.Respects Doc.Shuffled := by
    simp only [ParamDoc.slots, List.forall_mem_cons]
    exact ⟨Decoder.respects_text, Decoder.respects_text, List.forall_mem_nil _⟩
  intro c d p hkeys hcd hp
  cases c with
  | arr items =>
    obtain ⟨items', rfl, hitems⟩ := hcd
    rw [Record.decode] at hp ⊢
    split at hp
    · cases hp
    next hroom =>
      obtain ⟨draft, hdraft, hfinish⟩ := bind_eq_ok_iff.mp hp
      rw [if_neg hroom, Record.items_of_shuffled ParamDoc.hasSlots htexts (List.Subset.refl _)
        items hkeys hitems hdraft, ok_bind]
      exact hfinish
  | _ => exact Record.respects_edited ParamDoc.hasSlots htexts _ d p hkeys hcd hp

/-! ## Conditions and timestamps -/

theorem Timestamp.respects : Timestamp.decode.Respects Doc.Shuffled := by
  intro c d t _ hcd ht
  unfold Timestamp.decode at ht
  split at ht
  · cases hcd
    exact ht
  · exact absurd ht (Decoder.mismatch_ne_ok _ _ _)

/-- The object that names a condition has one member, whose value is null. -/
theorem TestPass.eq_of_only {key : String} {value : Doc} {rest : Members} {p : TestPass}
    (h : only key value rest = .ok p) : value = .null ∧ rest = .closed := by
  obtain ⟨_, -, h⟩ := bind_eq_ok_iff.mp h
  obtain ⟨_, hvalue, h⟩ := bind_eq_ok_iff.mp h
  unfold Decoder.unit at hvalue
  split at hvalue
  · split at h
    · exact ⟨rfl, rfl⟩
    · cases h
  · exact absurd hvalue (Decoder.mismatch_ne_ok _ _ _)

theorem TestPass.respects : (TestPass.decode room).Respects Doc.Shuffled := by
  intro c d p _ hcd hp
  unfold TestPass.decode at hp
  split at hp
  · cases hcd
    exact hp
  · cases hp
  next members =>
    split at hp
    · cases hp
    next hroom =>
      split at hp
      next key value rest =>
        obtain ⟨rfl, rfl⟩ := TestPass.eq_of_only (Json.within_eq_ok_iff.mp hp)
        obtain ⟨ms, ms', ⟨value', rest', rfl, rfl, rfl⟩, hperm, rfl⟩ := hcd
        rw [← List.singleton_perm.mp hperm]
        exact (if_neg hroom).trans hp
      · cases hp
      · cases hp
  · cases hp
  · cases hp

/-! ## Entries -/

namespace Entry

/-- The places of the fields of an entry in its draft. -/
def slots (room : Nat) : List (Slot (record room)) :=
  let params := Decoder.list (ParamDoc.record.decode (room - 1))
  let optionalText := Decoder.optional Decoder.text
  [{ name := "name", get := (·.name), set := fun d x => { d with name := x },
      decode := Decoder.text },
    { name := "description", get := (·.description), set := fun d x => { d with description := x },
      decode := Decoder.text },
    { name := "in", get := (·.inputs), set := fun d x => { d with inputs := x },
      decode := params },
    { name := "out", get := (·.outputs), set := fun d x => { d with outputs := x },
      decode := params },
    { name := "used", get := (·.used), set := fun d x => { d with used := x },
      decode := Decoder.list Decoder.text },
    { name := "testResult", get := (·.testResult), set := fun d x => { d with testResult := x },
      decode := Decoder.optional (Doc.value room) },
    { name := "testDuration", get := (·.testDuration),
      set := fun d x => { d with testDuration := x }, decode := optionalText },
    { name := "timeout", get := (·.timeout), set := fun d x => { d with timeout := x },
      decode := optionalText },
    { name := "parseWarning", get := (·.parseWarning),
      set := fun d x => { d with parseWarning := x }, decode := optionalText },
    { name := "error", get := (·.error), set := fun d x => { d with error := x },
      decode := optionalText },
    { name := "loadedAt", get := (·.loadedAt), set := fun d x => { d with loadedAt := x },
      decode := Decoder.optional Timestamp.decode },
    { name := "testPass", get := (·.testPass), set := fun d x => { d with testPass := x },
      decode := TestPass.decode room },
    { name := "testParams", get := (·.testParams), set := fun d x => { d with testParams := x },
      decode := params }]

theorem hasSlots : (record room).HasSlots (slots room) where
  names := rfl
  apart := by
    simp only [slots, List.pairwise_cons, List.forall_mem_cons, List.Pairwise.nil, and_true]
    and_intros
    -- any two of the thirteen places
    all_goals first
      | exact ⟨fun _ _ => rfl, fun _ _ => rfl, fun _ _ _ => rfl⟩
      | exact List.forall_mem_nil _

/-- Values of a field that say the same. -/
def Same : String → Doc → Doc → Prop
  | "in" | "out" | "testParams" => Doc.Paired ParamDoc.Alike
  | _ => Doc.Shuffled

/-- The entries differ at most in the order of the members of their objects, and in stray members of
the entry and of its parameters. -/
def Rearranged (c d : Doc) : Prop := c.Edited fieldNames Same d

theorem respects : (decode room).Respects Rearranged := by
  refine Record.respects_edited hasSlots ?_
  have hparams : ∀ {room}, (Decoder.list (ParamDoc.record.decode room)).Respects
      (Doc.Paired ParamDoc.Alike) := Decoder.respects_list ParamDoc.respects
  have htext : (Decoder.optional Decoder.text).Respects Doc.Shuffled :=
    Decoder.respects_optional Decoder.respects_text
  simp only [slots, List.forall_mem_cons]
  exact ⟨Decoder.respects_text, Decoder.respects_text, hparams, hparams,
    Decoder.respects_list_shuffled Decoder.respects_text,
    Decoder.respects_optional (Decoder.respects_value _), htext, htext, htext, htext,
    Decoder.respects_optional Timestamp.respects, TestPass.respects, hparams,
    List.forall_mem_nil _⟩

/-- **Neither the order of the members nor stray members matter**: the same entry is read, and so
its panel has the same rows and tags, and the same warnings, in the same order. -/
theorem ofText_of_rearranged {s t : String} {c d : Doc} {e : Entry} (hs : c.SpelledBy s)
    (ht : d.SpelledBy t) (hkeys : c.KeysDistinct) (h : Rearranged c d) (he : ofText s = .ok e) :
    ofText t = .ok e ∧ ∀ id,
      (ofText t).map (Panel.ofEntry id) = (ofText s).map (Panel.ofEntry id) ∧
      (ofText t).map (fun e => (Panel.ofEntry id e).warnings) =
        (ofText s).map (fun e => (Panel.ofEntry id e).warnings) := by
  obtain ⟨c', hc', hread⟩ := Decoder.run_eq_ok_iff.mp he
  obtain rfl := hs.unique hc'
  have hsame : ofText t = .ok e := Decoder.run_eq_ok_iff.mpr ⟨d, ht, respects c d e hkeys h hread⟩
  rw [hsame, he]
  exact ⟨rfl, fun id => ⟨rfl, rfl⟩⟩

/-- An entry with stray members, a parameter and a row of a test result. -/
def plainText : String :=
  "\x7b\"name\":\"a\",\"note\":[1e999],\"in\":[\x7b\"key\":\"k\",\"unit\":0\x7d]," ++
    "\"testResult\":[\x7b\"x\":1,\"y\":null\x7d]\x7d"

/-- The same in reverse, with other stray members. -/
def reversedText : String :=
  "\x7b \"testResult\": [\x7b\"y\": null, \"x\": 1\x7d],\n" ++
    "\"in\": [\x7b\"type\": \"\\ud800\", \"key\": \"k\"\x7d], \"\": \x7b\x7d, " ++
    "\"n\\u0061me\": \"a\" \x7d"

/-- What `plainText` spells. -/
def plainDoc : Doc :=
  .obj (.ofList [
    (some "name", .string (some "a")),
    (some "note", .arr (.item (.number none) .closed)),
    (some "in", .arr (.item
      (.obj (.ofList [(some "key", .string (some "k")), (some "unit", .number (some (.int 0)))]))
      .closed)),
    (some "testResult", .arr (.item
      (.obj (.ofList [(some "x", .number (some (.int 1))), (some "y", .null)])) .closed))])

/-- What `reversedText` spells. -/
def reversedDoc : Doc :=
  .obj (.ofList [
    (some "testResult", .arr (.item
      (.obj (.ofList [(some "y", .null), (some "x", .number (some (.int 1)))])) .closed)),
    (some "in", .arr (.item
      (.obj (.ofList [(some "type", .string none), (some "key", .string (some "k"))])) .closed)),
    (some "", .obj .closed),
    (some "name", .string (some "a"))])

theorem ofText_of_reversed : ∃ e, ofText plainText = .ok e ∧ plainDoc.SpelledBy plainText ∧
    reversedDoc.SpelledBy reversedText ∧ plainDoc.KeysDistinct ∧ Rearranged plainDoc reversedDoc ∧
    ofText reversedText = .ok e := by
  have hread : (ofText plainText).toOption.any (fun _ => true) = true := by decide +kernel
  obtain ⟨e, he, -⟩ := exists_ok_of_any hread
  have hplain : plainDoc.SpelledBy plainText := ⟨by decide +kernel, by decide +kernel⟩
  have hreversed : reversedDoc.SpelledBy reversedText := ⟨by decide +kernel, by decide +kernel⟩
  have hkeys : plainDoc.KeysDistinct := by
    simp [plainDoc, Doc.KeysDistinct, Items.KeysDistinct, Members.KeysDistinct, Members.keys,
      Members.ofList]
  have hrow : (Doc.obj (.ofList [(some "x", .number (some (.int 1))), (some "y", .null)])).Shuffled
      (.obj (.ofList [(some "y", .null), (some "x", .number (some (.int 1)))])) :=
    ⟨[(some "x", .number (some (.int 1))), (some "y", .null)], _,
      ⟨_, _, rfl, rfl, _, _, rfl, rfl, rfl⟩, List.Perm.swap _ _ _, rfl⟩
  have hparam : ParamDoc.Alike
      (.obj (.ofList [(some "key", .string (some "k")), (some "unit", .number (some (.int 0)))]))
      (.obj (.ofList [(some "type", .string none), (some "key", .string (some "k"))])) :=
    ⟨_, _, _, rfl, .refl _, .add ⟨"type", rfl, by decide, rfl⟩
      (.field (by decide) rfl (.remove ⟨"unit", rfl, by decide, rfl⟩ .nil)), rfl⟩
  have h : Rearranged plainDoc reversedDoc := by
    refine ⟨_, _, _, rfl, (List.reverse_perm _).symm, ?_, rfl⟩
    refine .field (by decide) ⟨_, rfl, _, _, rfl, hrow, rfl⟩ ?_
    refine .field (by decide) ⟨_, rfl, _, _, rfl, hparam, rfl⟩ ?_
    refine .remove ⟨"note", rfl, by decide, rfl⟩ (.add ⟨"", rfl, by decide, rfl⟩ ?_)
    exact .field (by decide) rfl .nil
  exact ⟨e, he, hplain, hreversed, hkeys, h, (ofText_of_rearranged hplain hreversed hkeys h he).1⟩

end Entry

end EntryReport
