import EntryReport.Entry.Codec
import EntryReport.Proofs.Json.Records
import EntryReport.Proofs.Json.Values
import EntryReport.Proofs.Time.Timestamps

/-!
# Entries and manifests that were read

An entry that was read is `Readable`: its test result is a canonical value, and not null, and it
was loaded at a valid timestamp (`Entry.readable_of_decode`). Such an entry is read back from the
object that it is written as (`Entry.recovers`), and so is a manifest of such entries
(`Manifest.recovers`).
-/

namespace EntryReport

open Json (Decoder Doc Record)

variable {room : Nat}

/-! ## The parts of an entry -/

theorem ParamDoc.recovers (hroom : room ≠ 0) (p : ParamDoc) :
    (ParamDoc.record.decode room).Recovers ParamDoc.toJson p := by
  have hkey : ParamDoc.record.Takes {} _ _ :=
    Record.takes_field "key" (fun d x => { d with key := x }) (by decide) (fun _ => rfl)
      (Decoder.recovers_text p.key)
  have hall := hkey.append <|
    Record.takes_field "description" (fun d x => { d with description := x }) (by decide)
      (fun _ => rfl) (Decoder.recovers_text p.description)
  exact hall.decode hroom

theorem ParamDoc.recovers_list (hroom : room ≠ 0) (ps : List ParamDoc) :
    (Decoder.list (ParamDoc.record.decode room)).Recovers
      (fun ps => .arr (ps.map ParamDoc.toJson)) ps :=
  Decoder.recovers_list fun p _ => ParamDoc.recovers hroom p

theorem TestPass.recovers (p : TestPass) :
    (TestPass.decode room).Recovers (fun p => .str p.name) p := by
  cases p <;> rfl

theorem Timestamp.recovers {t : Timestamp} (h : t.Valid) :
    Timestamp.decode.Recovers (fun t => .str t.isoText) t := by
  simp only [Decoder.Recovers, Doc.ofJson, Timestamp.decode, Timestamp.read_isoText h]
  rfl

theorem Timestamp.valid_of_decode {d : Doc} {t : Timestamp} (h : Timestamp.decode d = .ok t) :
    t.Valid := by
  unfold Timestamp.decode at h
  split at h
  · exact Timestamp.valid_of_read (mapError_eq_ok_iff.mp h)
  · exact absurd h (Decoder.mismatch_ne_ok _ _ _)

/-! ## Entries that can be read -/

namespace Entry

/-- The entry as reading gives it. -/
structure Readable (room : Nat) (e : Entry) : Prop where
  testResult : ∀ v, e.testResult = some v → v ≠ .null ∧ v.Canonical room
  loadedAt : ∀ t, e.loadedAt = some t → t.Valid

/-- The fields that were met make such an entry. -/
structure Draft.Readable (room : Nat) (d : Draft) : Prop where
  testResult : ∀ v, d.testResult = some (some v) → v ≠ .null ∧ v.Canonical room
  loadedAt : ∀ t, d.loadedAt = some (some t) → t.Valid

theorem Draft.readable_empty : ({} : Draft).Readable room := ⟨nofun, nofun⟩

/-- A field keeps what was read. -/
theorem Draft.Readable.put {d d' : Draft} (h : d.Readable room) {name : String} {v : Doc}
    (hput : d.put room name v = .ok d') : d'.Readable room := by
  unfold Draft.put at hput
  simp only at hput
  split at hput
  -- only the test result and the timestamp are restricted
  case h_6 =>
    obtain ⟨found, hfound, hd⟩ := bind_eq_ok_iff.mp hput
    cases hd
    obtain ⟨o, rfl, ho⟩ := Decoder.of_once hfound
    refine ⟨fun w hw => ?_, h.loadedAt⟩
    cases hw
    obtain ⟨hnull, hw⟩ := Decoder.of_optional ho
    refine ⟨?_, Doc.canonical_of_value _ _ hw⟩
    rintro rfl
    exact hnull (Doc.eq_null_of_value hw)
  case h_11 =>
    obtain ⟨found, hfound, hd⟩ := bind_eq_ok_iff.mp hput
    cases hd
    obtain ⟨o, rfl, ho⟩ := Decoder.of_once hfound
    refine ⟨h.testResult, fun t ht => ?_⟩
    cases ht
    exact Timestamp.valid_of_decode (Decoder.of_optional ho).2
  case h_14 =>
    cases hput
    exact h
  all_goals
    obtain ⟨_, -, hd⟩ := bind_eq_ok_iff.mp hput
    cases hd
    exact ⟨h.testResult, h.loadedAt⟩

/-- **An entry that was read** is as reading gives it. -/
theorem readable_of_decode {d : Doc} {e : Entry} (h : decode (room + 1) d = .ok e) :
    e.Readable room := by
  have hput : ∀ (d : Draft) name v d', d.Readable room → (record room).put d name v = .ok d' →
      d'.Readable room := fun _ _ _ _ hd hd' => hd.put hd'
  obtain ⟨draft, fault, hdraft, hbuild⟩ := Record.exists_draft hput Draft.readable_empty h
  cases hbuild
  exact ⟨fun v hv => hdraft.testResult v (Json.eq_some_of_getD hv),
    fun t ht => hdraft.loadedAt t (Json.eq_some_of_getD ht)⟩

/-! ## Reading them back -/

/-- The fields that every entry is written with in front of the others. -/
def plainDraft (e : Entry) : Draft where
  name := some e.name
  description := some e.description
  inputs := some e.inputs
  outputs := some e.outputs
  used := some e.used

/-- The fields of an entry as they are met in the object that it is written as. -/
def toDraft (e : Entry) : Draft :=
  { e.plainDraft with
    testResult := e.testResult.map some
    testDuration := e.testDuration.map some
    timeout := e.timeout.map some
    parseWarning := e.parseWarning.map some
    error := e.error.map some
    loadedAt := e.loadedAt.map some
    testPass := some e.testPass
    testParams := match e.testParams with
      | [] => none
      | params => some params }

theorem entry_toDraft (e : Entry) : e.toDraft.entry = e := by
  have hparams : (match e.testParams with
      | [] => none
      | params => some params).getD [] = e.testParams := by
    split <;> simp_all
  simp only [toDraft, plainDraft, Draft.entry, Json.getD_map_some, Option.getD_some, hparams]

theorem mem_fields {key : String} (h : key ∈ fieldNames) : key ∈ (record room).fields := h

theorem takes_plain (hroom : 1 < room) (e : Entry) :
    (record room).Takes {}
      [("name", .str e.name), ("description", .str e.description),
        ("in", .arr (e.inputs.map ParamDoc.toJson)), ("out", .arr (e.outputs.map ParamDoc.toJson)),
        ("used", .strs e.used)] e.plainDraft := by
  have hparams : ∀ ps, (Decoder.list (ParamDoc.record.decode (room - 1))).Recovers
      (fun ps => .arr (ps.map ParamDoc.toJson)) ps := ParamDoc.recovers_list (by omega)
  have hname : (record room).Takes {} _ _ :=
    Record.takes_field "name" (fun d x => { d with name := x }) (mem_fields (by decide))
      (fun _ => rfl) (Decoder.recovers_text e.name)
  have hdescription := hname.append <|
    Record.takes_field "description" (fun d x => { d with description := x })
      (mem_fields (by decide)) (fun _ => rfl) (Decoder.recovers_text e.description)
  have hinputs := hdescription.append <|
    Record.takes_field "in" (fun d x => { d with inputs := x }) (mem_fields (by decide))
      (fun _ => rfl) (hparams e.inputs)
  have houtputs := hinputs.append <|
    Record.takes_field "out" (fun d x => { d with outputs := x }) (mem_fields (by decide))
      (fun _ => rfl) (hparams e.outputs)
  exact houtputs.append <|
    Record.takes_field "used" (fun d x => { d with used := x }) (mem_fields (by decide))
      (fun _ => rfl) (Decoder.recovers_strs e.used)

theorem takes_optional {e : Entry} (h : e.Readable room) :
    (record room).Takes e.plainDraft
      (Json.member? "testResult" id e.testResult ++
        Json.member? "testDuration" .str e.testDuration ++
        Json.member? "timeout" .str e.timeout ++
        Json.member? "parseWarning" .str e.parseWarning ++
        Json.member? "error" .str e.error ++
        Json.member? "loadedAt" (fun t => .str t.isoText) e.loadedAt)
      { e.toDraft with testPass := none, testParams := none } := by
  have hvalue : ∀ v, e.testResult = some v →
      id v ≠ Json.null ∧ Decoder.Recovers (Doc.value room) id v := fun v hv =>
    ⟨(h.testResult v hv).1, Json.value_ofJson room v (h.testResult v hv).2⟩
  have htime : ∀ t, e.loadedAt = some t →
      Json.str t.isoText ≠ .null ∧ Timestamp.decode.Recovers (fun t => .str t.isoText) t :=
    fun t ht => ⟨nofun, Timestamp.recovers (h.loadedAt t ht)⟩
  have hresult : (record room).Takes e.plainDraft _ _ :=
    Record.takes_member? "testResult" (fun d x => { d with testResult := x })
      (mem_fields (by decide)) (fun _ => rfl) rfl hvalue
  have hduration := hresult.append <|
    Record.takes_member? "testDuration" (fun d x => { d with testDuration := x })
      (mem_fields (by decide)) (fun _ => rfl) rfl (Decoder.recovers_of_text e.testDuration)
  have htimeout := hduration.append <|
    Record.takes_member? "timeout" (fun d x => { d with timeout := x }) (mem_fields (by decide))
      (fun _ => rfl) rfl (Decoder.recovers_of_text e.timeout)
  have hwarning := htimeout.append <|
    Record.takes_member? "parseWarning" (fun d x => { d with parseWarning := x })
      (mem_fields (by decide)) (fun _ => rfl) rfl (Decoder.recovers_of_text e.parseWarning)
  have herror := hwarning.append <|
    Record.takes_member? "error" (fun d x => { d with error := x }) (mem_fields (by decide))
      (fun _ => rfl) rfl (Decoder.recovers_of_text e.error)
  exact herror.append <|
    Record.takes_member? "loadedAt" (fun d x => { d with loadedAt := x })
      (mem_fields (by decide)) (fun _ => rfl) rfl htime

/-- The members that an entry is written as take their fields one after the other. -/
theorem takes_toJson (hroom : 1 < room) {e : Entry} (h : e.Readable room) :
    ∃ ms, e.toJson = .obj ms ∧ (record room).Takes {} ms e.toDraft := by
  have hpass : (record room).Takes {} _ { e.toDraft with testParams := none } :=
    ((takes_plain hroom e).append (takes_optional h)).append <|
      Record.takes_field "testPass" (fun d x => { d with testPass := x })
        (mem_fields (by decide)) (fun _ => rfl) (TestPass.recovers e.testPass)
  cases hps : e.testParams with
  | nil =>
    have hdraft : { e.toDraft with testParams := none } = e.toDraft := by
      simp only [toDraft, hps]
    refine ⟨_, ?_, hdraft ▸ hpass⟩
    simp only [toJson, hps, List.append_assoc, List.append_nil]
  | cons p ps =>
    have hdraft : { e.toDraft with testParams := some (p :: ps) } = e.toDraft := by
      simp only [toDraft, hps]
    have htestParams := hpass.append <|
      Record.takes_field "testParams" (fun d x => { d with testParams := x })
        (mem_fields (by decide)) (fun _ => rfl) (ParamDoc.recovers_list (by omega) (p :: ps))
    refine ⟨_, ?_, hdraft ▸ htestParams⟩
    simp only [toJson, hps, List.append_assoc]

/-- **An entry that was read is read back** from the object that it is written as. -/
theorem recovers (hroom : 1 < room) {e : Entry} (h : e.Readable room) :
    (decode (room + 1)).Recovers toJson e := by
  obtain ⟨ms, hms, htakes⟩ := takes_toJson hroom h
  unfold Decoder.Recovers decode
  rw [hms, Nat.add_sub_cancel, htakes.decode (Nat.succ_ne_zero _)]
  exact congrArg Except.ok (entry_toDraft e)

/-- Only a test result has numbers. -/
theorem integral_toJson {e : Entry} (h : ∀ v ∈ e.testResult, v.Integral) :
    e.toJson.Integral := by
  have hparams : ∀ ps : List ParamDoc, (Json.arr (ps.map ParamDoc.toJson)).Integral := fun ps =>
    Json.allIntegral_map fun _ _ => ⟨trivial, trivial, trivial⟩
  have hlast : Json.MembersIntegral (match e.testParams with
      | [] => []
      | params => [("testParams", .arr (params.map ParamDoc.toJson))]) := by
    split
    · trivial
    · exact ⟨hparams _, trivial⟩
  refine Json.membersIntegral_append ?_ hlast
  refine Json.membersIntegral_append ?_ ⟨trivial, trivial⟩
  refine Json.membersIntegral_append ?_
    (Json.membersIntegral_member? "loadedAt" fun _ _ => trivial)
  refine Json.membersIntegral_append ?_ (Json.membersIntegral_text? "error" _)
  refine Json.membersIntegral_append ?_ (Json.membersIntegral_text? "parseWarning" _)
  refine Json.membersIntegral_append ?_ (Json.membersIntegral_text? "timeout" _)
  refine Json.membersIntegral_append ?_ (Json.membersIntegral_text? "testDuration" _)
  refine Json.membersIntegral_append ?_ (Json.membersIntegral_member? "testResult" h)
  exact ⟨trivial, trivial, hparams _, hparams _, Json.integral_strs _, trivial⟩

end Entry

/-! ## Manifests -/

namespace Manifest

/-- The manifest as reading gives it. -/
def Readable (room : Nat) (m : Manifest) : Prop :=
  ∀ e ∈ m.entries, e.Readable room

/-- The fields that were met make such a manifest. -/
def Draft.Readable (room : Nat) (d : Draft) : Prop :=
  ∀ es, d.entries = some es → ∀ e ∈ es, e.Readable room

theorem Draft.Readable.put {d d' : Draft} (h : d.Readable room) {name : String} {v : Doc}
    (hput : (record (room + 2)).put d name v = .ok d') : d'.Readable room := by
  simp only [record] at hput
  split at hput
  · obtain ⟨_, -, hd⟩ := bind_eq_ok_iff.mp hput
    cases hd
    exact h
  · obtain ⟨found, hfound, hd⟩ := bind_eq_ok_iff.mp hput
    cases hd
    obtain ⟨es, rfl, hes⟩ := Decoder.of_once hfound
    intro es' hes' e he
    cases hes'
    obtain ⟨d, hd⟩ := Decoder.exists_doc_of_mem hes e he
    exact Entry.readable_of_decode hd
  · cases hput
    exact h

/-- **A manifest that was read** has entries as reading gives them. -/
theorem readable_of_decode {d : Doc} {m : Manifest} (h : decode (room + 3) d = .ok m) :
    m.Readable room := by
  have hput : ∀ (d : Draft) name v d', d.Readable room →
      (record (room + 2)).put d name v = .ok d' → d'.Readable room :=
    fun _ _ _ _ hd hd' => hd.put hd'
  obtain ⟨draft, fault, hdraft, hbuild⟩ := Record.exists_draft hput nofun h
  cases hbuild
  intro e he
  cases hes : draft.entries with
  | none => simp [hes] at he
  | some es =>
    simp only [hes, Option.getD_some] at he
    exact hdraft es hes e he

/-- **A manifest that was read is read back** from the object that it is written as. -/
theorem recovers (hroom : 1 < room) {m : Manifest} (h : m.Readable room) :
    (decode (room + 3)).Recovers toJson m := by
  have htitle : (record (room + 2)).Takes {} _ _ :=
    Record.takes_field "title" (fun d x => { d with title := x }) (by simp [record])
      (fun _ => rfl) (Decoder.recovers_optionalText m.title)
  have hentries := htitle.append <|
    Record.takes_field "entries" (fun d x => { d with entries := x }) (by simp [record])
      (fun _ => rfl) (Decoder.recovers_list fun e he => Entry.recovers hroom (h e he))
  exact hentries.decode (Nat.succ_ne_zero _)

theorem integral_toJson {m : Manifest}
    (h : ∀ e ∈ m.entries, ∀ v ∈ e.testResult, v.Integral) : m.toJson.Integral := by
  have htitle : (Json.optional .str m.title).Integral := by
    cases m.title <;> trivial
  have hentries : (Json.arr (m.entries.map Entry.toJson)).Integral :=
    Json.allIntegral_map fun e he => Entry.integral_toJson (h e he)
  exact ⟨htitle, hentries, trivial⟩

end Manifest

end EntryReport
