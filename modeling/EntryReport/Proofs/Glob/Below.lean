import EntryReport.Proofs.Files.Components
import EntryReport.Proofs.Glob.Matching
import EntryReport.Proofs.Text.ByteOrder

/-!
# Patterns of paths below a directory

The path of what is below a directory is the path of the directory, with a slash behind it, and then
the names on the way. Some patterns cannot tell where the directory is:

* a pattern that reads one name, after any directories or any run of bytes, takes no such path
  unless it takes the names alone (`accepts_of_readsOneName`);
* a pattern that begins with a byte of a name takes none that begins at the root
  (`accepts_eq_false_of_startsInName`).
-/

namespace EntryReport.Glob

open Files (IsFileName)
open Files.FileSystem (joinNames)
open Files.Path (lead)

variable {front w : List UInt8} {pre ts : List Token} {names : List String} {directory name : String}

/-! ## Patterns without slashes -/

mutual
/-- The tokens stand for bytes of a name only. -/
def staysInName : List Token → Bool
  | [] => true
  | .oneOf alternatives :: rest => allStayInName alternatives && staysInName rest
  | t :: rest => t.isInName && staysInName rest

/-- All of the patterns stand for bytes of a name only. -/
def allStayInName : List (List Token) → Bool
  | [] => true
  | tokens :: rest => staysInName tokens && allStayInName rest
end

mutual
/-- The tokens begin with one that stands for bytes of a name. -/
def startsInName : List Token → Bool
  | [] => false
  | .oneOf alternatives :: _ => !alternatives.isEmpty && allStartInName alternatives
  | t :: _ => t.isInName

/-- All of the patterns begin so. -/
def allStartInName : List (List Token) → Bool
  | [] => true
  | tokens :: rest => startsInName tokens && allStartInName rest
end

/-- The tokens read one name, after any directories or any run of bytes. -/
def readsOneName (tokens : List Token) : Bool :=
  staysInName (afterRun (afterTreeStart tokens))

theorem slash_not_mem_utf8EncodeChar {c : Char} (h : c ≠ '/') :
    slash ∉ String.utf8EncodeChar c :=
  Text.not_mem_utf8EncodeChar (by decide) fun hs => h (Char.ext (UInt32.toNat_inj.mp hs))

/-- A token of a name stands for some bytes, none of which is a slash. -/
theorem Token.Matches.inName {t : Token} (h : t.Matches w) (ht : t.isInName = true) :
    w ≠ [] ∧ slash ∉ w := by
  cases t with
  | literal c =>
    obtain rfl := h
    exact ⟨Text.utf8EncodeChar_ne_nil c, slash_not_mem_utf8EncodeChar (of_decide_eq_true ht)⟩
  | set negated ranges =>
    obtain ⟨b, rfl, hb⟩ := h
    refine ⟨by simp, fun hs => hb ?_⟩
    rw [← List.mem_singleton.mp hs]
    exact beq_iff_eq.mp ht
  | anyByte => cases ht
  | anyRun => cases ht
  | treeStart => cases ht
  | treeInside => cases ht
  | treeEnd => cases ht
  | oneOf alternatives => cases ht

theorem staysInName_cons {t : Token} : staysInName (t :: ts) = true ↔
    (t.isInName = true ∨ ∃ tss, t = .oneOf tss ∧ allStayInName tss = true) ∧
      staysInName ts = true := by
  cases t <;> simp [staysInName, Token.isInName]

mutual
theorem slash_not_mem_of_staysInName : (ts : List Token) → {w : List UInt8} →
    staysInName ts = true → Matches ts w → slash ∉ w
  | [], _, _, h => by
    rw [Matches] at h
    rw [h]
    exact List.not_mem_nil
  | t :: ts, _, hts, h => by
    rw [Matches] at h
    obtain ⟨u, v, rfl, hu, hv⟩ := h
    obtain ⟨ht, hts⟩ := staysInName_cons.mp hts
    rw [List.mem_append, not_or]
    refine ⟨?_, slash_not_mem_of_staysInName ts hts hv⟩
    rcases ht with ht | ⟨tss, rfl, htss⟩
    · exact (hu.inName ht).2
    · rw [Token.Matches] at hu
      split at hu
      · rw [hu]
        exact List.not_mem_nil
      · exact slash_not_mem_of_allStayInName tss htss hu

theorem slash_not_mem_of_allStayInName : (tss : List (List Token)) → {w : List UInt8} →
    allStayInName tss = true → MatchesOne tss w → slash ∉ w
  | [], _, _, h => by
    rw [MatchesOne] at h
    exact h.elim
  | ts :: tss, _, htss, h => by
    rw [allStayInName, Bool.and_eq_true] at htss
    rw [MatchesOne] at h
    rcases h with ⟨-, h⟩ | h
    · exact slash_not_mem_of_staysInName ts htss.1 h
    · exact slash_not_mem_of_allStayInName tss htss.2 h
end

/-! ## Patterns that begin in a name -/

theorem startsInName_cons {t : Token} : startsInName (t :: ts) = true ↔
    t.isInName = true ∨ ∃ tss, t = .oneOf tss ∧ tss ≠ [] ∧ allStartInName tss = true := by
  cases t <;> simp [startsInName, Token.isInName]

mutual
/-- Such a pattern is not made of nothing. -/
theorem vacuous_of_startsInName : (ts : List Token) → startsInName ts = true → vacuous ts = false
  | [], h => by simp [startsInName] at h
  | t :: ts, h => by
    rcases startsInName_cons.mp h with ht | ⟨tss, rfl, hne, htss⟩
    · cases t <;> simp_all [vacuous, Token.isInName]
    · rw [vacuous, allVacuous_of_allStartInName tss hne htss, Bool.false_and]

theorem allVacuous_of_allStartInName : (tss : List (List Token)) → tss ≠ [] →
    allStartInName tss = true → allVacuous tss = false
  | [], hne, _ => absurd rfl hne
  | ts :: tss, _, h => by
    rw [allStartInName, Bool.and_eq_true] at h
    rw [allVacuous, vacuous_of_startsInName ts h.1, Bool.false_and]
end

mutual
/-- **What begins in a name** does not begin with a slash. -/
theorem head_of_startsInName : (ts : List Token) → {w : List UInt8} → startsInName ts = true →
    Matches ts w → ∃ b rest, w = b :: rest ∧ b ≠ slash
  | [], _, hts, _ => by simp [startsInName] at hts
  | t :: ts, _, hts, h => by
    rw [Matches] at h
    obtain ⟨u, v, rfl, hu, -⟩ := h
    suffices hhead : ∃ b rest, u = b :: rest ∧ b ≠ slash by
      obtain ⟨b, rest, rfl, hb⟩ := hhead
      exact ⟨b, rest ++ v, rfl, hb⟩
    rcases startsInName_cons.mp hts with ht | ⟨tss, rfl, hne, htss⟩
    · obtain ⟨hne, hslash⟩ := hu.inName ht
      obtain ⟨b, rest, rfl⟩ := List.exists_cons_of_ne_nil hne
      exact ⟨b, rest, rfl, fun hb => hslash (hb ▸ List.mem_cons_self)⟩
    · rw [Token.Matches, allVacuous_of_allStartInName tss hne htss, if_neg Bool.false_ne_true] at hu
      exact head_of_allStartInName tss htss hu

theorem head_of_allStartInName : (tss : List (List Token)) → {w : List UInt8} →
    allStartInName tss = true → MatchesOne tss w → ∃ b rest, w = b :: rest ∧ b ≠ slash
  | [], _, _, h => by
    rw [MatchesOne] at h
    exact h.elim
  | ts :: tss, _, htss, h => by
    rw [allStartInName, Bool.and_eq_true] at htss
    rw [MatchesOne] at h
    rcases h with ⟨-, h⟩ | h
    · exact head_of_startsInName ts htss.1 h
    · exact head_of_allStartInName tss htss.2 h
end

/-! ## Patterns that read one name -/

/-- What a name is read from ends where the name begins, so it may lose directories in front. -/
theorem matches_of_append (pre : List Token)
    (hpre : ∀ {u}, Matches pre (front ++ u) → Matches pre u)
    (hts : staysInName ts = true) (hfront : front = [] ∨ ∃ v, front = v ++ [slash])
    (h : Matches (pre ++ ts) (front ++ w)) : Matches (pre ++ ts) w := by
  obtain ⟨u, v, heq, hu, hv⟩ := matches_append.mp h
  have hslash := slash_not_mem_of_staysInName ts hts hv
  rcases List.append_eq_append_iff.mp heq with ⟨u', rfl, rfl⟩ | ⟨v', rfl, rfl⟩
  · exact matches_append.mpr ⟨u', v, rfl, hpre hu, hv⟩
  · -- the name would begin in front, and there is a slash at the end of that
    obtain rfl : v' = [] := by
      rcases hfront with hnil | ⟨x, hx⟩
      · exact (List.append_eq_nil_iff.mp hnil).2
      · by_contra hne
        have hlast := congrArg List.getLast? hx
        rw [List.getLast?_append_of_ne_nil _ hne, List.getLast?_concat] at hlast
        exact hslash (List.mem_append_left _ (List.mem_of_getLast? hlast))
    rw [List.append_nil] at hpre
    exact matches_append.mpr ⟨[], w, rfl, hpre (by rwa [List.append_nil]), hv⟩

theorem matches_treeStart : Matches [.treeStart] w ↔ w = [] ∨ ∃ v, w = v ++ [slash] := by
  simp [Matches, Token.Matches]

theorem matches_anyRun : Matches [.anyRun] w :=
  ⟨w, [], (List.append_nil w).symm, trivial, rfl⟩

theorem matches_treeStart_anyRun : Matches [.treeStart, .anyRun] w :=
  ⟨[], w, rfl, Or.inl rfl, w, [], (List.append_nil w).symm, trivial, rfl⟩

/-- **A pattern that reads one name** reads it without the directories in front. -/
theorem matches_of_readsOneName (hts : readsOneName ts = true)
    (hfront : front = [] ∨ ∃ v, front = v ++ [slash]) (h : Matches ts (front ++ w)) :
    Matches ts w := by
  have hnone {u : List UInt8} (hu : Matches [] (front ++ u)) : Matches [] u :=
    (List.append_eq_nil_iff.mp hu).2
  have htree {u : List UInt8} (hu : Matches [.treeStart] (front ++ u)) : Matches [.treeStart] u := by
    rw [matches_treeStart] at hu ⊢
    rcases hu with hu | ⟨v, hv⟩
    · exact Or.inl (List.append_eq_nil_iff.mp hu).2
    · by_cases hnil : u = []
      · exact Or.inl hnil
      · have hlast := congrArg List.getLast? hv
        rw [List.getLast?_append_of_ne_nil _ hnil, List.getLast?_concat] at hlast
        exact Or.inr (List.getLast?_eq_some_iff.mp hlast)
  unfold readsOneName afterTreeStart at hts
  split at hts
  · unfold afterRun at hts
    split at hts
    · exact matches_of_append [.treeStart, .anyRun] (fun _ => matches_treeStart_anyRun) hts
        hfront h
    · exact matches_of_append [.treeStart] htree hts hfront h
  · unfold afterRun at hts
    split at hts
    · exact matches_of_append [.anyRun] (fun _ => matches_anyRun) hts hfront h
    · exact matches_of_append [] hnone hts hfront h

/-! ## Paths below a directory -/

theorem bytes_lead (directory : String) : bytes (lead directory).toList = [] ∨
    ∃ v, bytes (lead directory).toList = v ++ [slash] := by
  by_cases hempty : directory = ""
  · subst hempty
    exact Or.inl rfl
  · obtain ⟨cs, hcs, -⟩ := Files.Path.exists_toList_lead hempty
    refine Or.inr ⟨bytes cs, ?_⟩
    rw [hcs, bytes, List.flatMap_append]
    rfl

theorem bytes_joinNames (hne : names ≠ []) (hnamed : ∀ n ∈ names, IsFileName n) :
    bytes (joinNames directory names).toList =
      bytes (lead directory).toList ++ bytes ("/".intercalate names).toList := by
  rw [Files.Path.joinNames_eq hne hnamed, String.toList_append, bytes, List.flatMap_append]
  rfl

theorem hasFileName_join (h : IsFileName name) :
    hasFileName (Files.Path.join directory name) = true := by
  have hlast : (Text.slashParts (Files.Path.join directory name).toList).getLast? =
      some name.toList := by
    rw [Files.Path.join_eq h.slash_not_mem, String.toList_append]
    by_cases hempty : directory = ""
    · subst hempty
      exact congrArg List.getLast? (Files.Path.slashParts_of_not_mem h.slash_not_mem)
    · obtain ⟨cs, hcs, -⟩ := Files.Path.exists_toList_lead hempty
      rw [hcs, List.append_assoc, List.singleton_append, slashParts_append_slash,
        Files.Path.slashParts_of_not_mem h.slash_not_mem, List.getLast?_concat]
  have hdots : name.toList ≠ ['.', '.'] := fun heq => h.2.2 (String.toList_inj.mp heq)
  rw [hasFileName, hlast, bne_iff_ne, ne_eq, Option.some.injEq]
  exact hdots

/-- **A pattern that reads one name** takes what is below a directory only if it takes it alone. -/
theorem accepts_of_readsOneName {g : Glob} (hg : readsOneName g.tokens = true) (hne : names ≠ [])
    (hnamed : ∀ n ∈ names, IsFileName n) (h : g.accepts (joinNames directory names) = true) :
    g.accepts ("/".intercalate names) = true := by
  rw [accepts_iff] at h ⊢
  refine h.imp_right fun ⟨_, hmatches⟩ => ⟨fun _ => ?_, ?_⟩
  · obtain ⟨dirs, name, rfl⟩ := (List.eq_nil_or_concat' names).resolve_left hne
    rw [← Files.Path.joinNames_empty hnamed, Files.Path.joinNames_concat]
    exact hasFileName_join (hnamed name (List.mem_append_right _ List.mem_cons_self))
  · rw [bytes_joinNames hne hnamed] at hmatches
    exact matches_of_readsOneName hg (bytes_lead directory) hmatches

/-- **A pattern that begins in a name** takes nothing that begins at the root. -/
theorem accepts_eq_false_of_startsInName {g : Glob} {path : String}
    (hg : startsInName g.tokens = true) (habsolute : Files.Path.isAbsolute path = true) :
    g.accepts path = false := by
  by_contra haccepts
  rw [Bool.not_eq_false, accepts_iff] at haccepts
  rcases haccepts with htree | ⟨-, hmatches⟩
  · unfold isAnyTree at htree
    split at htree
    · next heq =>
      rw [heq] at hg
      simp [startsInName, Token.isInName] at hg
    · cases htree
  · obtain ⟨b, rest, hbytes, hb⟩ := head_of_startsInName g.tokens hg hmatches
    obtain ⟨cs, hcs⟩ := List.head?_eq_some_iff.mp (beq_iff_eq.mp habsolute)
    rw [hcs] at hbytes
    exact hb (List.cons.inj hbytes).1.symm

theorem isAbsolute_joinNames (hne : names ≠ []) (hnamed : ∀ n ∈ names, IsFileName n)
    (habsolute : Files.Path.isAbsolute directory = true) :
    Files.Path.isAbsolute (joinNames directory names) = true := by
  have hempty : directory ≠ "" := by
    rintro rfl
    cases habsolute
  rw [Files.Path.joinNames_eq hne hnamed, Files.Path.isAbsolute_lead_append hempty, habsolute]

end EntryReport.Glob
