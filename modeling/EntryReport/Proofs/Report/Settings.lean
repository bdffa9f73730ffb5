import EntryReport.Proofs.Config.Codec
import EntryReport.Proofs.Json.Scripts
import EntryReport.Proofs.Json.Values
import EntryReport.Report.Page

/-!
# The settings in a page

The colours of the selected item stand in a script of the page, as JSON whose markup is escaped.
Whatever texts they are, there is no markup in it, and it is read as these colours
(`Highlight.embedded_intact`). So the script begins and ends where the page means it to
(`Page.settingsLine_script`).
-/

namespace EntryReport

open Html (escapeForScript)

/-! ## Nothing opens or closes a script -/

namespace Html

variable {s : String} {c : Char}

/-- What opens or closes a script, or a comment in one, in small letters. -/
def scriptMarks : List String := ["<script", "</script", "<!--"]

theorem not_markup_of_mem (h : c ∈ (escapeForScript s).toList) : c ≠ '<' ∧ c ≠ '>' ∧ c ≠ '&' := by
  rw [toList_escapeForScript] at h
  have hc := isMarkup_of_mem_scriptChars h
  simp only [isMarkup, Bool.or_eq_false_iff, decide_eq_false_iff_not] at hc
  exact ⟨hc.1.1, hc.1.2, hc.2⟩

/-- What comes before the small letters is the small form of itself only. -/
theorem eq_of_toLower_eq {d : Char} (hd : d.val < 'a'.val) (h : c.toLower = d) : c = d := by
  unfold Char.toLower at h
  split at h
  next hc =>
    have hval : c.val + 32 = d.val := congrArg Char.val h
    have hfirst : 65 ≤ c.val := hc.1
    have hlast : c.val ≤ 90 := hc.2
    grind
  next => exact h

/-- **No part of a text in a script** opens or closes one, in any letter case. -/
theorem scriptMark_not_spelled {part : List Char} (h : part <:+: (escapeForScript s).toList) :
    part.map Char.toLower ∉ scriptMarks.map String.toList := by
  have hbegin : ∀ mark ∈ scriptMarks.map String.toList, '<' ∈ mark := by decide
  intro hmark
  obtain ⟨c, hc, hlower⟩ := List.mem_map.mp (hbegin _ hmark)
  exact (not_markup_of_mem (h.subset hc)).1 (eq_of_toLower_eq (by decide) hlower)

end Html

/-! ## The colours -/

namespace Highlight

theorem integral_toJson (h : Highlight) : h.toJson.Integral := ⟨trivial, trivial, trivial⟩

theorem canonical_toJson (h : Highlight) {room : Nat} (hroom : 0 < room) :
    h.toJson.Canonical room := by
  have hkeys : "background" < "foreground" := by decide
  exact ⟨hroom, List.pairwise_pair.mpr hkeys, trivial, trivial, trivial⟩

theorem length_escapeForScript_pos (h : Highlight) :
    0 < (escapeForScript h.toJson.compact).length := by
  have hopen : (escapeForScript h.toJson.compact).toList =
      '\x7b' :: Html.scriptChars h.toJson.compact.toList.tail := by
    rw [Html.toList_escapeForScript, Json.compact, Json.text, String.toList_ofList]
    rfl
  rw [← String.length_toList, hopen]
  exact Nat.succ_pos _

/-- **Whatever the colours are, their text in a script is safe and intact**: none of the characters
that mean something in markup is in it, so that no part of it opens or closes a script, in whatever
letter case; and it is read as the object of the colours, and as the colours. -/
theorem embedded_intact (h : Highlight) :
    (∀ c ∈ (escapeForScript h.toJson.compact).toList, c ≠ '<' ∧ c ≠ '>' ∧ c ≠ '&') ∧
    (∀ part, part <:+: (escapeForScript h.toJson.compact).toList →
      part.map Char.toLower ∉ Html.scriptMarks.map String.toList) ∧
    Json.parse (escapeForScript h.toJson.compact) = .ok h.toJson ∧
    (record.decode Json.nestingLimit).run (escapeForScript h.toJson.compact) = .ok h := by
  have hvalue : Json.Decoder.Recovers (Json.Doc.value _) id h.toJson :=
    Json.value_ofJson _ _ (h.canonical_toJson h.length_escapeForScript_pos)
  have hrecord : (record.decode Json.nestingLimit).Recovers toJson h := recovers (by decide) h
  exact ⟨fun _ => Html.not_markup_of_mem, fun _ => Html.scriptMark_not_spelled,
    hvalue.run_escapeForScript h.integral_toJson, hrecord.run_escapeForScript h.integral_toJson⟩

end Highlight

/-! ## The script -/

/-- **The script with the settings** is one script, whatever the view is. -/
theorem Page.settingsLine_script (v : View) : ∃ body : String,
    settingsLine v = "<script>" ++ body ++ "</script>" ∧ '<' ∉ body.toList := by
  have hopen : "<script>const HIGHLIGHT=" = "<script>" ++ "const HIGHLIGHT=" := by decide
  have hclose : ";</script>" = ";" ++ "</script>" := by decide
  have hcolours : '<' ∉ (escapeForScript v.highlight.toJson.compact).toList :=
    fun hmem => (Html.not_markup_of_mem hmem).1 rfl
  have hflag : '<' ∉ (if v.emptyFolders = .hidden then "true" else "false").toList := by
    split <;> decide
  unfold settingsLine
  generalize escapeForScript v.highlight.toJson.compact = colours at hcolours ⊢
  generalize (if v.emptyFolders = .hidden then "true" else "false") = flag at hflag ⊢
  refine ⟨"const HIGHLIGHT=" ++ colours ++ ";const HIDE_EMPTY=" ++ flag ++ ";", ?_, ?_⟩
  · rw [hopen, hclose]
    simp only [String.append_assoc]
  · simp only [String.toList_append, List.mem_append, hcolours, hflag]
    decide

end EntryReport
