import EntryReport.Proofs.Digits
import EntryReport.Proofs.Report.Lines

/-!
# Colours only decorate

A style sequence is an escape and a bracket, digits and semicolons, and the letter `m`. If no text
of the view holds an escape (`View.Lacks`), then no segment of the report does, and the escapes of
the coloured report are those of its own sequences: taken out, they leave the report without
colours (`stripped_linesText`). A styled segment is not joined with anything around it, because each
sequence ends with its `m` and what follows is text again.

* `Decorated`: what is in front of and behind each styled text; no style outlasts its segment;
* `colours_only_decorate`: all of this for the report of any view.
-/

namespace EntryReport

/-- The texts of a row. -/
def Row.texts (r : Row) : List String := [r.name, r.description]

/-- The texts of a panel. -/
def Panel.texts (p : Panel) : List String :=
  [p.id, p.name, p.description, p.timeout] ++
    (p.inputs ++ p.outputs ++ p.testParams).flatMap Row.texts ++
    [p.loadTime, p.parseWarning, p.testDuration, p.testResult, p.error].flatMap Option.toList

/-- The names of the nodes and the texts of the panels do not hold the character. -/
structure View.Lacks (v : View) (c : Char) : Prop where
  names : ∀ n ∈ v.nodes, c ∉ n.name.toList
  panels : ∀ p ∈ v.tree.panels, ∀ s ∈ p.texts, c ∉ s.toList

namespace Outline

theorem mem_nodesAll {n : NodeView} {os : List Outline} :
    n ∈ nodesAll os ↔ ∃ o ∈ os, n ∈ o.nodes := by
  induction os with
  | nil => simp [nodesAll]
  | cons o os ih => simp [nodesAll, ih]

end Outline

namespace View

variable {v : View} {n m : NodeView} {limit : Nat}

theorem mem_nodes_of_node? {id : Nat} (h : v.node? id = some n) : n ∈ v.nodes :=
  Array.mem_of_getElem? h

/-- An outline shows nodes of the view below the one on top. -/
theorem mem_nodes_of_mem_outlineFrom (hn : n ∈ v.nodes) (hm : m ∈ (v.outlineFrom limit n).nodes) :
    m ∈ v.nodes := by
  induction limit generalizing n with
  | zero =>
    rw [outlineFrom, Outline.nodes, Outline.nodesAll, List.mem_singleton] at hm
    exact hm ▸ hn
  | succ limit ih =>
    rw [outlineFrom, Outline.nodes, List.mem_cons, Outline.mem_nodesAll] at hm
    rcases hm with rfl | ⟨o, ho, hm⟩
    · exact hn
    · obtain ⟨child, hchild, rfl⟩ := List.mem_map.mp ho
      obtain ⟨id, -, hid⟩ := List.mem_filterMap.mp hchild
      exact ih (mem_nodes_of_node? hid) hm

theorem mem_nodes_of_mem_outline (h : n ∈ v.outline.nodes) : n ∈ v.nodes :=
  mem_nodes_of_mem_outlineFrom (mem_nodes_of_node? (node?_root v)) h

theorem mem_panels_of_visiblePanel? {p : Panel} (h : v.visiblePanel? = some p) :
    p ∈ v.tree.panels := by
  obtain ⟨shown, -, hp⟩ := Option.bind_eq_some_iff.mp h
  exact Array.mem_of_find?_eq_some hp

end View

namespace Console

variable {cs rest : List Char} {ls : List Line}

/-! ## Style sequences -/

/-- What follows a style sequence at the front of a text. -/
def afterStyle? : List Char → Option (List Char)
  | '\x1b' :: '[' :: cs =>
    match cs.dropWhile fun c => c.isDigit || c = ';' with
    | 'm' :: rest => some rest
    | _ => none
  | _ => none

theorem length_lt_of_afterStyle? (h : afterStyle? cs = some rest) : rest.length < cs.length := by
  unfold afterStyle? at h
  split at h
  · next numbers =>
    have hdrop := (List.dropWhile_suffix (l := numbers) fun c => c.isDigit || c = ';').length_le
    split at h
    · next after heq =>
      cases h
      rw [heq, List.length_cons] at hdrop
      simp only [List.length_cons]
      omega
    · cases h
  · cases h

/-- The text without its style sequences. -/
def stripped : List Char → List Char
  | [] => []
  | c :: cs =>
    match h : afterStyle? (c :: cs) with
    | some rest =>
      have := length_lt_of_afterStyle? h
      stripped rest
    | none => c :: stripped cs
termination_by cs => cs.length
decreasing_by
  · exact this
  · exact Nat.lt_succ_self _

/-- Each style that is begun is ended by a reset before another one begins, and before the end. -/
inductive Decorated : List Char → Prop
  | nil : Decorated []
  | plain {c : Char} {rest : List Char} (text : c ≠ '\x1b') (after : Decorated rest) :
    Decorated (c :: rest)
  | styled {style : Style} {cs rest : List Char} (look : style ≠ .plain) (text : '\x1b' ∉ cs)
    (after : Decorated rest) : Decorated (style.code ++ cs ++ reset ++ rest)

theorem stripped_cons {c : Char} (hc : c ≠ '\x1b') : stripped (c :: rest) = c :: stripped rest := by
  have hnone : afterStyle? (c :: rest) = none := by
    unfold afterStyle?
    split
    · next heq => exact absurd (List.cons.inj heq).1 hc
    · rfl
  rw [stripped]
  split
  · next heq => rw [hnone] at heq; cases heq
  · rfl

/-- Text without an escape stays. -/
theorem stripped_append (hcs : '\x1b' ∉ cs) : stripped (cs ++ rest) = cs ++ stripped rest := by
  induction cs with
  | nil => rfl
  | cons c cs ih =>
    rw [List.mem_cons, not_or] at hcs
    rw [List.cons_append, stripped_cons (Ne.symm hcs.1), ih hcs.2, List.cons_append]

theorem stripped_of_afterStyle? (h : afterStyle? cs = some rest) : stripped cs = stripped rest := by
  cases cs with
  | nil => cases h
  | cons c cs =>
    rw [stripped]
    split
    · next heq => rw [Option.some.inj (h.symm.trans heq)]
    · next heq => rw [h] at heq; cases heq

/-- The code of a style is a sequence, whatever follows. -/
theorem stripped_code (style : Style) : stripped (style.code ++ rest) = stripped rest := by
  refine stripped_of_afterStyle? ?_
  cases style <;> rfl

theorem stripped_reset : stripped (reset ++ rest) = stripped rest :=
  stripped_of_afterStyle? rfl

/-! ## Segments and lines -/

/-- Without an escape in a text there is no reset among its characters. -/
theorem afterResets_of_not_mem {code : List Char} (hcs : '\x1b' ∉ cs) :
    afterResets code cs = cs := by
  induction cs with
  | nil => rfl
  | cons c cs ih =>
    rw [List.mem_cons, not_or] at hcs
    rw [afterResets.eq_2 _ _ _ (fun _ heq _ => hcs.1 heq.symm), ih hcs.2]

/-- No segment of the line holds an escape. -/
def Line.Bare (line : Line) : Prop := ∀ s ∈ line, '\x1b' ∉ s.text.toList

instance (line : Line) : Decidable line.Bare :=
  inferInstanceAs (Decidable (∀ s ∈ line, _))

theorem painted_of_bare {s : Segment} (hs : '\x1b' ∉ s.text.toList) : s.painted =
    if s.style = .plain then s.text.toList else s.style.code ++ s.text.toList ++ reset := by
  rw [Segment.painted, afterResets_of_not_mem hs]

theorem stripped_painted {s : Segment} (hs : '\x1b' ∉ s.text.toList) :
    stripped (s.painted ++ rest) = s.text.toList ++ stripped rest := by
  rw [painted_of_bare hs]
  split
  · exact stripped_append hs
  · rw [List.append_assoc, List.append_assoc, stripped_code, stripped_append hs, stripped_reset]

theorem Decorated.append (hcs : '\x1b' ∉ cs) (h : Decorated rest) : Decorated (cs ++ rest) := by
  induction cs with
  | nil => exact h
  | cons c cs ih =>
    rw [List.mem_cons, not_or] at hcs
    exact .plain (Ne.symm hcs.1) (ih hcs.2)

theorem decorated_painted {s : Segment} (hs : '\x1b' ∉ s.text.toList) (h : Decorated rest) :
    Decorated (s.painted ++ rest) := by
  rw [painted_of_bare hs]
  split
  · exact h.append hs
  · next hstyle => exact .styled hstyle hs h

/-- The characters of a line with its end, in front of others. -/
theorem stripped_line {line : Line} (hline : line.Bare) :
    stripped (line.flatMap (Segment.chars true) ++ '\n' :: rest) =
      line.flatMap (Segment.chars false) ++ '\n' :: stripped rest := by
  induction line with
  | nil => exact stripped_cons (by decide)
  | cons s line ih =>
    obtain ⟨hs, hline⟩ := List.forall_mem_cons.mp hline
    have hpainted : Segment.chars true s = s.painted := rfl
    have hplain : Segment.chars false s = s.text.toList := rfl
    rw [List.flatMap_cons, List.flatMap_cons, hpainted, hplain, List.append_assoc,
      stripped_painted hs, ih hline, List.append_assoc]

theorem decorated_line {line : Line} (hline : line.Bare) (h : Decorated rest) :
    Decorated (line.flatMap (Segment.chars true) ++ '\n' :: rest) := by
  induction line with
  | nil => exact .plain (by decide) h
  | cons s line ih =>
    obtain ⟨hs, hline⟩ := List.forall_mem_cons.mp hline
    have hpainted : Segment.chars true s = s.painted := rfl
    rw [List.flatMap_cons, hpainted, List.append_assoc]
    exact decorated_painted hs (ih hline)

/-- **Without its style sequences** the coloured text of lines is their text without colours. -/
theorem stripped_linesText (hls : ∀ line ∈ ls, line.Bare) :
    stripped (linesText true ls).toList = (linesText false ls).toList := by
  unfold linesText
  rw [String.toList_ofList, String.toList_ofList]
  induction ls with
  | nil => rw [List.flatMap_nil, List.flatMap_nil, stripped]
  | cons line ls ih =>
    obtain ⟨hline, hls⟩ := List.forall_mem_cons.mp hls
    rw [List.flatMap_cons, List.flatMap_cons, List.append_assoc, List.append_assoc,
      List.singleton_append, List.singleton_append, stripped_line hline, ih hls]

/-- **No style outlasts** the text that it was begun for. -/
theorem decorated_linesText (hls : ∀ line ∈ ls, line.Bare) :
    Decorated (linesText true ls).toList := by
  unfold linesText
  rw [String.toList_ofList]
  induction ls with
  | nil => exact .nil
  | cons line ls ih =>
    obtain ⟨hline, hls⟩ := List.forall_mem_cons.mp hls
    rw [List.flatMap_cons, List.append_assoc, List.singleton_append]
    exact decorated_line hline (ih hls)

/-! ## The lines of a report -/

theorem escape_not_mem_append {a b : String} (ha : '\x1b' ∉ a.toList) (hb : '\x1b' ∉ b.toList) :
    '\x1b' ∉ (a ++ b).toList := by
  rw [String.toList_append, List.mem_append, not_or]
  exact ⟨ha, hb⟩

/-- Digits are no escapes. -/
theorem escape_not_mem_toString (n : Nat) : '\x1b' ∉ (toString n).toList := by
  intro hmem
  have hdigits : '\x1b' ∈ Nat.toDigits 10 n := by simpa using hmem
  exact absurd (isDigit_of_mem_toDigits hdigits) (by decide)

theorem bare_nodeLine {n : NodeView} (hn : '\x1b' ∉ n.name.toList) (depth : Nat) :
    Line.Bare (nodeLine depth n) := by
  have hindent : '\x1b' ∉ (indent depth).text.toList := by
    rw [indent, plain, String.toList_ofList, List.mem_replicate]
    exact fun hmem => absurd hmem.2 (by decide)
  have htags : Line.Bare (tagSegments n.tags) := by
    rcases n.tags with ⟨_ | _, _ | _⟩ <;> decide
  unfold nodeLine
  split
  · have hcaret : '\x1b' ∉ (caret n.expanded).text.toList := by
      cases n.expanded <;> decide
    exact List.forall_mem_cons.mpr ⟨hindent, List.forall_mem_cons.mpr ⟨hcaret,
      List.forall_mem_cons.mpr ⟨by decide, List.forall_mem_singleton.mpr hn⟩⟩⟩
  · refine List.forall_mem_cons.mpr ⟨hindent, List.forall_mem_cons.mpr ⟨?_, htags⟩⟩
    split <;> exact escape_not_mem_append (by decide) hn

mutual
/-- The lines of an outline hold no escape if the names of its nodes hold none. -/
theorem bare_outlineLines (depth : Nat) : (o : Outline) →
    (∀ n ∈ o.nodes, '\x1b' ∉ n.name.toList) → ∀ line ∈ outlineLines depth o, line.Bare
  | .node n os, h => by
    obtain ⟨hn, hos⟩ := List.forall_mem_cons.mp h
    rw [outlineLines]
    split
    · exact nofun
    · refine List.forall_mem_cons.mpr ⟨bare_nodeLine hn depth, ?_⟩
      split
      · exact bare_outlinesLines (depth + 1) os hos
      · exact nofun

theorem bare_outlinesLines (depth : Nat) : (os : List Outline) →
    (∀ n ∈ Outline.nodesAll os, '\x1b' ∉ n.name.toList) →
      ∀ line ∈ outlinesLines depth os, line.Bare
  | [], _ => by
    rw [outlinesLines]
    exact nofun
  | o :: os, h => by
    obtain ⟨ho, hos⟩ := List.forall_mem_append.mp h
    rw [outlinesLines]
    exact List.forall_mem_append.mpr ⟨bare_outlineLines depth o ho, bare_outlinesLines depth os hos⟩
end

theorem bare_detail {label : Segment} {rest : String} (hlabel : '\x1b' ∉ label.text.toList)
    (hrest : '\x1b' ∉ rest.toList) : Line.Bare (detail label rest) :=
  List.forall_mem_cons.mpr ⟨by decide, List.forall_mem_cons.mpr ⟨hlabel,
    List.forall_mem_singleton.mpr hrest⟩⟩

theorem bare_rowLines {heading : String} {rows : List Row} (hheading : '\x1b' ∉ heading.toList)
    (hrows : ∀ r ∈ rows, ∀ s ∈ r.texts, '\x1b' ∉ s.toList) :
    ∀ line ∈ rowLines heading rows, line.Bare := by
  refine List.forall_mem_map.mpr fun r hr => bare_detail hheading ?_
  have hname : '\x1b' ∉ r.name.toList := hrows r hr _ (by simp [Row.texts])
  have hdescription : '\x1b' ∉ r.description.toList := hrows r hr _ (by simp [Row.texts])
  refine escape_not_mem_append (escape_not_mem_append ?_ (by decide)) hdescription
  exact escape_not_mem_append (by decide) hname

/-- The wording of a warning holds no escape of its own. -/
theorem escape_not_mem_rowWarning {r : Row} {w : String} (hname : '\x1b' ∉ r.name.toList)
    (hw : Panel.rowWarning? r = some w) : '\x1b' ∉ w.toList := by
  obtain ⟨warning, -, rfl⟩ := Option.map_eq_some_iff.mp hw
  refine escape_not_mem_append (escape_not_mem_append hname (by decide)) ?_
  cases warning <;> decide

theorem bare_panelLines {p : Panel} (h : ∀ s ∈ p.texts, '\x1b' ∉ s.toList) :
    ∀ line ∈ panelLines p, line.Bare := by
  have hid : '\x1b' ∉ p.id.toList := h _ (by simp [Panel.texts])
  have hdescription : '\x1b' ∉ p.description.toList := h _ (by simp [Panel.texts])
  have htimeout : '\x1b' ∉ p.timeout.toList := h _ (by simp [Panel.texts])
  have hrows : ∀ r ∈ p.inputs ++ p.outputs ++ p.testParams, ∀ s ∈ r.texts, '\x1b' ∉ s.toList := by
    intro r hr s hs
    have hmem : s ∈ (p.inputs ++ p.outputs ++ p.testParams).flatMap Row.texts :=
      List.mem_flatMap.mpr ⟨r, hr, hs⟩
    exact h s (List.mem_append_left _ (List.mem_append_right _ hmem))
  have hoption : ∀ o ∈ [p.loadTime, p.parseWarning, p.testDuration, p.testResult, p.error],
      ∀ s ∈ o, '\x1b' ∉ s.toList := fun o ho s hs =>
    h s (List.mem_append_right _ (List.mem_flatMap.mpr ⟨o, ho, Option.mem_toList.mpr hs⟩))
  have herror : ∀ e ∈ p.error.toList, '\x1b' ∉ e.toList := fun e he =>
    hoption p.error (by simp) e (Option.mem_toList.mp he)
  have hloaded : ∀ t ∈ p.loadTime.toList, '\x1b' ∉ t.toList := fun t ht =>
    hoption p.loadTime (by simp) t (Option.mem_toList.mp ht)
  have hwarnings : ∀ w ∈ p.warnings, '\x1b' ∉ w.toList := by
    intro w hw
    rcases List.mem_append.mp hw with hw | hw
    · rcases List.mem_append.mp hw with hw | hw
      · split at hw
        · rw [List.mem_singleton.mp hw]
          decide
        · exact absurd hw List.not_mem_nil
      · obtain ⟨r, hr, hw⟩ := List.mem_filterMap.mp hw
        have hname := hrows r (List.mem_append_left _ hr) r.name (by simp [Row.texts])
        exact escape_not_mem_rowWarning hname hw
    · exact hoption p.parseWarning (by simp) w (Option.mem_toList.mp hw)
  simp only [panelLines, List.forall_mem_append, List.forall_mem_map]
  refine ⟨⟨⟨⟨⟨⟨⟨⟨?_, ?_⟩, fun e he => ?_⟩, fun w hw => ?_⟩, ?_⟩, ?_⟩, ?_⟩, fun t ht => ?_⟩, ?_⟩
  · exact List.forall_mem_singleton.mpr (List.forall_mem_singleton.mpr hid)
  · split
    · exact nofun
    · refine List.forall_mem_singleton.mpr (List.forall_mem_singleton.mpr ?_)
      exact escape_not_mem_append (by decide) hdescription
  · exact bare_detail (by decide) (escape_not_mem_append (by decide) (herror e he))
  · exact bare_detail (by decide) (escape_not_mem_append (by decide) (hwarnings w hw))
  · exact bare_rowLines (by decide) fun r hr =>
      hrows r (List.mem_append_left _ (List.mem_append_left _ hr))
  · exact bare_rowLines (by decide) fun r hr =>
      hrows r (List.mem_append_left _ (List.mem_append_right _ hr))
  · exact bare_rowLines (by decide) fun r hr => hrows r (List.mem_append_right _ hr)
  · exact bare_detail (by decide) (escape_not_mem_append (by decide) (hloaded t ht))
  · refine List.forall_mem_cons.mpr ⟨?_, List.forall_mem_singleton.mpr ?_⟩
    · exact bare_detail (by decide) (escape_not_mem_append (by decide) htimeout)
    · refine bare_detail (by decide) (escape_not_mem_append (by decide) ?_)
      cases p.testPass <;> decide

theorem bare_summaryLine (v : View) : Line.Bare (summaryLine v) := by
  have hcount (n : Nat) : '\x1b' ∉ (toString n).toList := escape_not_mem_toString n
  refine List.forall_mem_append.mpr ⟨?_, ?_⟩
  · simp only [List.forall_mem_cons]
    exact ⟨escape_not_mem_append (hcount _) (by decide), hcount _, by decide, hcount _, by decide,
      nofun⟩
  · split
    · refine List.forall_mem_singleton.mpr (escape_not_mem_append ?_ (by decide))
      exact escape_not_mem_append (by decide) (hcount _)
    · exact nofun

/-- **No line of the report holds an escape** if no text of the view does. -/
theorem bare_lines (h : v.Lacks '\x1b') (verbose : Bool) : ∀ line ∈ lines verbose v, line.Bare := by
  have htree : ∀ line ∈ treeLines v, line.Bare :=
    bare_outlineLines 0 v.outline fun n hn => h.names n (View.mem_nodes_of_mem_outline hn)
  have hpanel : ∀ p, v.visiblePanel? = some p → ∀ line ∈ panelLines p, line.Bare := fun p hp =>
    bare_panelLines (h.panels p (View.mem_panels_of_visiblePanel? hp))
  have hempty : Line.Bare [] := nofun
  refine List.forall_mem_append.mpr ⟨List.forall_mem_append.mpr ⟨htree, ?_⟩, ?_⟩
  · split
    · next p hp => exact List.forall_mem_cons.mpr ⟨hempty, hpanel p hp⟩
    · exact nofun
  · exact List.forall_mem_cons.mpr ⟨hempty, List.forall_mem_singleton.mpr (bare_summaryLine v)⟩

/-! ## The report with and without colours -/

/-- **Colours only decorate.** If no text of the view holds an escape, the coloured report without
its style sequences is the report without colours. Each styled text stands between the code of its
style and a reset, and so no style is in force where another one begins, nor at the end. -/
theorem colours_only_decorate (h : v.Lacks '\x1b') (verbose : Bool) :
    stripped (text true verbose v).toList = (text false verbose v).toList ∧
    Decorated (text true verbose v).toList ∧
    ∀ line ∈ lines verbose v, ∀ s ∈ line, s.style ≠ .plain →
      Segment.chars true s = s.style.code ++ s.text.toList ++ reset := by
  have hlines := bare_lines h verbose
  refine ⟨stripped_linesText hlines, decorated_linesText hlines, fun line hline s hs hstyle => ?_⟩
  exact (painted_of_bare (hlines line hline s hs)).trans (if_neg hstyle)

/-- A selected item with a name that goes on like a style sequence. -/
def bracketed : View :=
  .render ((Tree.new "0m").add { name := "[31m", error := some ";1m" }).1
    { expanded := .ofList [0], selection := some ⟨"/[31m", 1⟩ } {}

/-- The names stay. -/
theorem stripped_bracketed : bracketed.Lacks '\x1b' ∧
    text true false bracketed =
      "\x1b[2m▾\x1b[0m \x1b[1m0m\x1b[0m\n" ++
        "  \x1b[42;30m> [31m\x1b[0m \x1b[33m[W]\x1b[0m \x1b[1;31m[E]\x1b[0m\n\n" ++
        "1 items, \x1b[33m1\x1b[0m warnings, \x1b[31m1\x1b[0m errors\n" ∧
    stripped (text true false bracketed).toList =
      "▾ 0m\n  > [31m [W] [E]\n\n1 items, 1 warnings, 1 errors\n".toList := by
  have hlacks : bracketed.Lacks '\x1b' := ⟨by decide +kernel, by decide +kernel⟩
  refine ⟨hlacks, by decide +kernel, (colours_only_decorate hlacks false).1.trans ?_⟩
  decide +kernel

end Console

end EntryReport
