import EntryReport.Proofs.Text.Lowercase
import EntryReport.Proofs.Tree.Hiding

/-!
# Searching for a part of a name

A search text and a name are compared by their lowercase forms. A text that is part of a name is
found in it, unless a capital sigma of it ends a word in the one and not in the other: its lowercase
form is then another letter (`sigma_missed`). So a text without capital sigmas is found in every
name that it is part of, and any text in the names where its sigmas keep their form
(`part_of_name_found`). An item with the name is then shown, and so are the folders that it is in.
-/

namespace EntryReport

namespace Tree

variable {t : Tree} {c : Criteria} {empty : EmptyFolders} {id a : Nat}

/-- What is above an item that is shown is shown. -/
theorem WellFormed.not_mem_hidden_above (h : t.WellFormed) (hi : t.isItem id = true)
    (hshown : id ∉ t.hidden c empty) (ha : a ∈ t.ancestors id) : a ∉ t.hidden c empty := by
  intro hhidden
  have hf := h.isFolder_of_mem_ancestors (lt_size_of_isItem hi) ha
  rw [h.mem_hidden_of_items hf ⟨id, hi, ha⟩] at hhidden
  exact hshown (hhidden.2 id ⟨hi, ha⟩)

end Tree

namespace Criteria

variable {c : Criteria} {name search : String} {before after : List Char}

/-- An item with the name is accepted whatever its tags are. In a reachable tree it is not hidden,
nor is a folder that it is in. -/
structure Finds (c : Criteria) (name : String) : Prop where
  accepts : ∀ tags, c.accepts tags name = true
  item : ∀ {t : Tree} {id n}, t.Reachable → t.node? id = some n → n.isItem = true →
    n.name = name → ∀ empty, id ∉ t.hidden c empty
  above : ∀ {t : Tree} {id n}, t.Reachable → t.node? id = some n → n.isItem = true →
    n.name = name → ∀ empty, ∀ a ∈ t.ancestors id, a ∉ t.hidden c empty

theorem finds_of_accepts (h : ∀ tags, c.accepts tags name = true) : c.Finds name := by
  have hitem {t : Tree} {id n} (hr : t.Reachable) (hn : t.node? id = some n)
      (hi : n.isItem = true) (hname : n.name = name) (empty) : id ∉ t.hidden c empty := by
    rw [hr.settled.wellFormed.mem_hidden_iff_rejected hn hi, hname, h]
    simp
  refine ⟨h, hitem, ?_⟩
  intro t id n hr hn hi hname empty a ha
  have hid : t.isItem id = true := by rw [Tree.isItem_of_node? hn, hi]
  exact hr.settled.wellFormed.not_mem_hidden_above hid (hitem hr hn hi hname empty) ha

/-- A text is found where it stands in a name, if its sigmas keep their form there. -/
theorem finds_of_keepsSigmas (hpart : name.toList = before ++ (Text.trim search).toList ++ after)
    (hkeeps : Text.KeepsSigmas before.reverse (Text.trim search).toList after) :
    (new false false search).Finds name := by
  refine finds_of_accepts fun tags => ?_
  have hfound : (new false false search).search.toList <:+: (Text.lowercase name).toList := by
    unfold new Text.lowercase
    rw [String.toList_ofList]
    exact Text.lowercase_infix hpart hkeeps
  rw [← Bool.not_eq_false, accepts_eq_false_iff]
  rintro (⟨hw, -⟩ | ⟨he, -⟩ | ⟨-, hno⟩)
  · exact Bool.false_ne_true hw
  · exact Bool.false_ne_true he
  · exact hno hfound

/-- **Searching for a part of a name** finds the name if there is no capital sigma in the part, and
also if each of its sigmas takes the form in the name that it takes in the part alone. -/
theorem part_of_name_found (search name : String) :
    ('Σ' ∉ (Text.trim search).toList → (Text.trim search).toList <:+: name.toList →
      (new false false search).Finds name) ∧
    ∀ before after, name.toList = before ++ (Text.trim search).toList ++ after →
      Text.KeepsSigmas before.reverse (Text.trim search).toList after →
      (new false false search).Finds name := by
  refine ⟨?_, fun _ _ => finds_of_keepsSigmas⟩
  rintro hnone ⟨before, after, hpart⟩
  exact finds_of_keepsSigmas hpart.symm (Text.keepsSigmas_of_not_mem hnone)

/-- Two sigmas within a word, in front of a letter. -/
theorem sigmas_found_within :
    "ΟΔΥΣΣΕΥΣ".toList = "ΟΔ".toList ++ (Text.trim " ΥΣΣΕ").toList ++ "ΥΣ".toList ∧
    Text.KeepsSigmas "ΟΔ".toList.reverse (Text.trim " ΥΣΣΕ").toList "ΥΣ".toList ∧
    (new false false " ΥΣΣΕ").Finds "ΟΔΥΣΣΕΥΣ" := by
  have hpart : "ΟΔΥΣΣΕΥΣ".toList =
    "ΟΔ".toList ++ (Text.trim " ΥΣΣΕ").toList ++ "ΥΣ".toList := by decide
  have hkeeps : Text.KeepsSigmas "ΟΔ".toList.reverse (Text.trim " ΥΣΣΕ").toList "ΥΣ".toList := by
    decide +kernel
  exact ⟨hpart, hkeeps, (part_of_name_found " ΥΣΣΕ" "ΟΔΥΣΣΕΥΣ").2 _ _ hpart hkeeps⟩

/-- **A part of a name may be missed**: its sigma ends a word, and that in the name does not. The
item is hidden, and so is the folder that it is in. -/
theorem sigma_missed :
    (Text.trim "ΑΣ").toList <:+: "ΑΣΑ".toList ∧
    (new false false "ΑΣ").accepts {} "ΑΣΑ" = false ∧
    ((Tree.new "r").add { name := "a/ΑΣΑ" }).1.Reachable ∧
    1 ∈ ((Tree.new "r").add { name := "a/ΑΣΑ" }).1.hidden (new false false "ΑΣ") .shown ∧
    2 ∈ ((Tree.new "r").add { name := "a/ΑΣΑ" }).1.hidden (new false false "ΑΣ") .shown := by
  refine ⟨⟨[], ['Α'], by decide⟩, by decide +kernel, ?_, by decide +kernel, by decide +kernel⟩
  exact (Tree.reachable_new "r").step (.add _ { name := "a/ΑΣΑ" })

end Criteria

end EntryReport
