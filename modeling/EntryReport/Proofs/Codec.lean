import EntryReport.Proofs.Config.Codec
import EntryReport.Proofs.Entry.Codec

/-!
# Documents are read back

An entry, a manifest or a configuration that was read from any text is read back, from its text on
one line as from that over several lines, with all that is in it (`documents_read_back`). Only the
numbers in test results are confined, to integers of 64 bits.
-/

namespace EntryReport

/-- **Reading undoes writing.** What a text says, in whatever form, is said by both texts that are
written of it. -/
theorem documents_read_back :
    (∀ s e, Entry.ofText s = .ok e → (∀ v ∈ e.testResult, v.Integral) →
      Entry.ofText e.toJson.compact = .ok e ∧ Entry.ofText e.toJson.pretty = .ok e) ∧
    (∀ s m, Manifest.ofText s = .ok m → (∀ e ∈ m.entries, ∀ v ∈ e.testResult, v.Integral) →
      Manifest.ofText m.toJson.compact = .ok m ∧ Manifest.ofText m.toJson.pretty = .ok m) ∧
    (∀ c : Config,
      Config.ofText c.toJson.compact = .ok c ∧ Config.ofText c.toJson.pretty = .ok c) := by
  refine ⟨fun s e h hnumbers => ?_, fun s m h hnumbers => ?_, fun c => ?_⟩
  · obtain ⟨d, hd⟩ := Json.Decoder.exists_doc_of_run h
    have hreadable : e.Readable 126 := Entry.readable_of_decode hd
    exact (Entry.recovers (by decide) hreadable).run (Entry.integral_toJson hnumbers)
  · obtain ⟨d, hd⟩ := Json.Decoder.exists_doc_of_run h
    have hreadable : m.Readable 124 := Manifest.readable_of_decode hd
    exact (Manifest.recovers (by decide) hreadable).run (Manifest.integral_toJson hnumbers)
  · exact (Config.recovers (by decide) c).run (Config.integral_toJson c)

/-- An entry given as an array, with a leap second of the year -1 in another time zone, and a
manifest given as an array, with the integers at both ends of the range. -/
theorem array_read_back :
    (∃ e, Entry.ofText
        "[\"\\ud83d\\ude00\",\"\",[],[],[],[null],null,null,null,null,\"-1-1-1T0:0:60.5-01:30\"]" =
          .ok e ∧
      e.name = "😀" ∧ e.loadedAt = some ⟨-62198749741, 1500000000⟩ ∧
      Entry.ofText e.toJson.compact = .ok e ∧ Entry.ofText e.toJson.pretty = .ok e) ∧
    ∃ m, Manifest.ofText
        "[null,[[\"n\",\"\",[],[],[],[-9223372036854775808,18446744073709551615]]]]" = .ok m ∧
      m.entries.length = 1 ∧
      Manifest.ofText m.toJson.compact = .ok m ∧ Manifest.ofText m.toJson.pretty = .ok m := by
  have hentry : (Entry.ofText
      "[\"\\ud83d\\ude00\",\"\",[],[],[],[null],null,null,null,null,\"-1-1-1T0:0:60.5-01:30\"]"
      ).toOption.any (fun e => decide (e.name = "😀" ∧
        e.loadedAt = some ⟨-62198749741, 1500000000⟩ ∧ ∀ v ∈ e.testResult, v.Integral)) = true := by
    decide +kernel
  have hmanifest : (Manifest.ofText
      "[null,[[\"n\",\"\",[],[],[],[-9223372036854775808,18446744073709551615]]]]"
      ).toOption.any (fun m => decide (m.entries.length = 1 ∧
        ∀ e ∈ m.entries, ∀ v ∈ e.testResult, v.Integral)) = true := by
    decide +kernel
  obtain ⟨e, he, hfacts⟩ := exists_ok_of_any hentry
  obtain ⟨hname, hloaded, hnumbers⟩ := of_decide_eq_true hfacts
  obtain ⟨m, hm, hfacts⟩ := exists_ok_of_any hmanifest
  obtain ⟨hlength, hallNumbers⟩ := of_decide_eq_true hfacts
  exact ⟨⟨e, he, hname, hloaded, documents_read_back.1 _ e he hnumbers⟩,
    ⟨m, hm, hlength, documents_read_back.2.1 _ m hm hallNumbers⟩⟩

end EntryReport
