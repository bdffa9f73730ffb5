import EntryReport.Config.Basic
import EntryReport.Proofs.Json.Records

/-!
# Configurations that were read

Every configuration is read back from the object that it is written as (`Config.recovers`).
-/

namespace EntryReport

open Json (Decoder Record)

variable {room : Nat}

theorem Highlight.recovers (hroom : room ≠ 0) (h : Highlight) :
    (Highlight.record.decode room).Recovers Highlight.toJson h := by
  have hbackground : Highlight.record.Takes {} _ _ :=
    Record.takes_field "background" (fun d x => { d with background := x }) (by decide)
      (fun _ => rfl) (Decoder.recovers_text h.background)
  have hforeground := hbackground.append <|
    Record.takes_field "foreground" (fun d x => { d with foreground := x }) (by decide)
      (fun _ => rfl) (Decoder.recovers_text h.foreground)
  exact hforeground.decode hroom

namespace Config

/-- The fields of a configuration as they are met in the object that it is written as. -/
def toDraft (c : Config) : Draft where
  base := c.base.map some
  title := c.title.map some
  rootName := c.rootName.map some
  ignore := some c.ignore
  expandAll := c.expandAll.map some
  hideEmptyFolders := c.hideEmptyFolders.map some
  highlight := c.highlight.map some
  failOnError := c.failOnError.map some

theorem config_toDraft (c : Config) : c.toDraft.config = c := by
  simp only [toDraft, Draft.config, Json.getD_map_some, Option.getD_some]

theorem mem_fields {key : String} (h : key ∈ fieldNames) : key ∈ (record room).fields := h

/-- The members that a configuration is written as take their fields one after the other. -/
theorem takes_toJson (hroom : room ≠ 0) (c : Config) :
    ∃ ms, c.toJson = .obj ms ∧ (record room).Takes {} ms c.toDraft := by
  have hcolours : ∀ h, c.highlight = some h → h.toJson ≠ .null ∧
      (Highlight.record.decode room).Recovers Highlight.toJson h :=
    fun h _ => ⟨nofun, Highlight.recovers hroom h⟩
  have hbase : (record room).Takes {} _ _ :=
    Record.takes_member? "extends" (fun d x => { d with base := x }) (mem_fields (by decide))
      (fun _ => rfl) rfl (Decoder.recovers_of_text c.base)
  have htitle := hbase.append <|
    Record.takes_member? "title" (fun d x => { d with title := x }) (mem_fields (by decide))
      (fun _ => rfl) rfl (Decoder.recovers_of_text c.title)
  have hrootName := htitle.append <|
    Record.takes_member? "rootName" (fun d x => { d with rootName := x }) (mem_fields (by decide))
      (fun _ => rfl) rfl (Decoder.recovers_of_text c.rootName)
  have hignore : (record room).Takes {} _
      { base := c.base.map some, title := c.title.map some, rootName := c.rootName.map some,
        ignore := some c.ignore } :=
    hrootName.append <| Record.takes_field "ignore" (fun d x => { d with ignore := x })
      (mem_fields (by decide)) (fun _ => rfl) (Decoder.recovers_strs c.ignore)
  have hexpandAll := hignore.append <|
    Record.takes_member? "expandAll" (fun d x => { d with expandAll := x }) (mem_fields (by decide))
      (fun _ => rfl) rfl (Decoder.recovers_of_flag c.expandAll)
  have hhide := hexpandAll.append <|
    Record.takes_member? "hideEmptyFolders" (fun d x => { d with hideEmptyFolders := x })
      (mem_fields (by decide)) (fun _ => rfl) rfl (Decoder.recovers_of_flag c.hideEmptyFolders)
  have hhighlight := hhide.append <|
    Record.takes_member? "highlight" (fun d x => { d with highlight := x }) (mem_fields (by decide))
      (fun _ => rfl) rfl hcolours
  have hfail : (record room).Takes {} _ c.toDraft :=
    hhighlight.append <| Record.takes_member? "failOnError" (fun d x => { d with failOnError := x })
      (mem_fields (by decide)) (fun _ => rfl) rfl (Decoder.recovers_of_flag c.failOnError)
  exact ⟨_, rfl, hfail⟩

/-- **A configuration is read back** from the object that it is written as. -/
theorem recovers (hroom : room ≠ 0) (c : Config) : (decode (room + 1)).Recovers toJson c := by
  obtain ⟨ms, hms, htakes⟩ := takes_toJson hroom c
  unfold Decoder.Recovers decode
  rw [hms, Nat.add_sub_cancel, htakes.decode (Nat.succ_ne_zero _)]
  exact congrArg Except.ok (config_toDraft c)

/-- There are no numbers in a configuration. -/
theorem integral_toJson (c : Config) : c.toJson.Integral := by
  have hflag : ∀ key (o : Option Bool), Json.MembersIntegral (Json.member? key .bool o) :=
    fun key _ => Json.membersIntegral_member? key fun _ _ => trivial
  refine Json.membersIntegral_append ?_ (hflag "failOnError" _)
  refine Json.membersIntegral_append ?_
    (Json.membersIntegral_member? "highlight" fun _ _ => ⟨trivial, trivial, trivial⟩)
  refine Json.membersIntegral_append ?_ (hflag "hideEmptyFolders" _)
  refine Json.membersIntegral_append ?_ (hflag "expandAll" _)
  refine Json.membersIntegral_append ?_ ⟨Json.integral_strs _, trivial⟩
  refine Json.membersIntegral_append ?_ (Json.membersIntegral_text? "rootName" _)
  exact Json.membersIntegral_append (Json.membersIntegral_text? "extends" _)
    (Json.membersIntegral_text? "title" _)

end Config

end EntryReport
