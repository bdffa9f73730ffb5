import EntryReport.Panel
import EntryReport.Proofs.Entry.Codec
import EntryReport.Proofs.Json.Characters

/-!
# The test result on a panel

A panel shows the test result of its entry as the text of a value over several lines. For entries
that were read, alone or in a manifest, nothing is lost in it: the text is read as the result again,
so that two panels show the same text only of equal results, and it has no control character but
line breaks (`Panel.testResult_intact`). Only the numbers are confined, to integers of 64 bits.
-/

namespace EntryReport

open Json (Decoder Doc nestingLimit)

variable {e other : Entry}

/-- The entry was read, from a text of its own or among those of a manifest. -/
inductive Entry.WasRead (e : Entry) : Prop where
  | alone {s : String} (h : Entry.ofText s = .ok e)
  | listed {s : String} {m : Manifest} (h : Manifest.ofText s = .ok m) (hmem : e ∈ m.entries)

/-! ## The text of a test result -/

/-- A test result that was read is nested no deeper than a text may be. -/
theorem Entry.WasRead.canonical (he : e.WasRead) {v : Json} (hv : e.testResult = some v) :
    v.Canonical nestingLimit := by
  cases he with
  | alone h =>
    obtain ⟨d, hd⟩ := Decoder.exists_doc_of_run h
    have hreadable : e.Readable 126 := Entry.readable_of_decode hd
    exact Json.Canonical.mono (by decide) v (hreadable.testResult v hv).2
  | listed h hmem =>
    obtain ⟨d, hd⟩ := Decoder.exists_doc_of_run h
    have hreadable : e.Readable 124 := Manifest.readable_of_decode hd e hmem
    exact Json.Canonical.mono (by decide) v (hreadable.testResult v hv).2

/-- The text of a test result is read as the result. -/
theorem Entry.WasRead.run_pretty (he : e.WasRead) (hnumbers : ∀ v ∈ e.testResult, v.Integral)
    {v : Json} (hv : e.testResult = some v) :
    Decoder.run (Doc.value nestingLimit) v.pretty = .ok v := by
  have hvalue : Decoder.Recovers (Doc.value nestingLimit) id v :=
    Json.value_ofJson _ v (he.canonical hv)
  exact (hvalue.run (hnumbers v hv)).2

namespace Panel

theorem testResult_ofEntry (id : String) (e : Entry) :
    (ofEntry id e).testResult = e.testResult.map Json.pretty := rfl

/-- **The test result that a panel shows is intact**: its text is read as the very value that the
entry has, and has no control character but line breaks; and two panels show the same only if their
entries have the same. -/
theorem testResult_intact (he : e.WasRead) (hnumbers : ∀ v ∈ e.testResult, v.Integral)
    (id : String) :
    (∀ v, e.testResult = some v → ∃ shown, (ofEntry id e).testResult = some shown ∧
      Decoder.run (Doc.value nestingLimit) shown = .ok v ∧
      ∀ c ∈ shown.toList, c.toNat < 0x20 → c = '\n') ∧
    ∀ other : Entry, other.WasRead → (∀ v ∈ other.testResult, v.Integral) → ∀ id' : String,
      (ofEntry id e).testResult = (ofEntry id' other).testResult ↔
        e.testResult = other.testResult := by
  refine ⟨fun v hv => ?_, fun other hother hothers id' => ⟨fun hshown => ?_, fun hsame => ?_⟩⟩
  · refine ⟨v.pretty, by rw [testResult_ofEntry, hv, Option.map_some], ?_, ?_⟩
    · exact he.run_pretty hnumbers hv
    · exact Json.legible_pretty (Json.whole_of_integral v (hnumbers v hv))
  · rw [testResult_ofEntry, testResult_ofEntry] at hshown
    cases hv : e.testResult with
    | none =>
      rw [hv] at hshown
      exact (Option.map_eq_none_iff.mp hshown.symm).symm
    | some v =>
      rw [hv, Option.map_some] at hshown
      obtain ⟨w, hw, htext⟩ := Option.map_eq_some_iff.mp hshown.symm
      -- the one text is read as either value
      have hread := he.run_pretty hnumbers hv
      rw [← htext, hother.run_pretty hothers hw] at hread
      rw [hw, Except.ok.inj hread]
  · rw [testResult_ofEntry, testResult_ofEntry, hsame]

/-- An entry with a test result: a key with a control character, a key that is given twice, an
empty object, a tabulator and the integers at both ends of the range. -/
def controlsText : String :=
  "\x7b\"testResult\":[\x7b\"b\":0,\"a\\u0001\":\x7b\x7d," ++
    "\"b\":[18446744073709551615,-9223372036854775808,\"\\t\"]\x7d]\x7d"

/-- What a panel shows of it. -/
def controlsShown : String :=
  "[\n  \x7b\n    \"a\\u0001\": \x7b\x7d,\n    \"b\": [\n" ++
    "      18446744073709551615,\n      -9223372036854775808,\n      \"\\t\"\n    ]\n  \x7d\n]"

theorem testResult_intact_of_controls : ∃ e v, Entry.ofText controlsText = .ok e ∧
    e.testResult = some v ∧ v.Integral ∧ (ofEntry "/a" e).testResult = some controlsShown ∧
    ∃ shown, (ofEntry "/a" e).testResult = some shown ∧
      Decoder.run (Doc.value nestingLimit) shown = .ok v ∧
      ∀ c ∈ shown.toList, c.toNat < 0x20 → c = '\n' := by
  have hentry : (Entry.ofText controlsText).toOption.any (fun e =>
      decide ((∀ v ∈ e.testResult, v.Integral) ∧
        (ofEntry "/a" e).testResult = some controlsShown)) = true := by
    decide +kernel
  obtain ⟨e, he, hfacts⟩ := exists_ok_of_any hentry
  obtain ⟨hnumbers, hshown⟩ := of_decide_eq_true hfacts
  obtain ⟨v, hv, -⟩ := Option.map_eq_some_iff.mp hshown
  exact ⟨e, v, he, hv, hnumbers v hv, hshown, (testResult_intact (.alone he) hnumbers "/a").1 v hv⟩

end Panel

end EntryReport
