import EntryReport.Glob.Match
import Mathlib.Data.List.Basic

/-!
# What patterns match

`Glob.Matches` says which bytes a pattern stands for, token by token, and nothing of how they are
found. `Marks` find them place by place: a step takes a set of places to those that bytes lead to
which the token stands for (`Marks.Leads`), and the tokens of a pattern do so one after the other
(`leads_steps`, by induction on the tokens and their alternatives). So a path is accepted exactly if
the pattern stands for its bytes (`accepts_iff`).
-/

namespace EntryReport.Glob

variable {path u v w : List UInt8} {m m' n : Marks} {stands stands' : List UInt8 → Prop}
  {j k l : Nat} {ts us : List Token} {b : UInt8}

/-! ## What a pattern stands for -/

mutual
/-- The token stands for the bytes. -/
def Token.Matches : Token → List UInt8 → Prop
  | .literal c, w => w = String.utf8EncodeChar c
  | .anyByte, w => ∃ b, w = [b]
  | .anyRun, _ => True
  | .treeStart, w => w = [] ∨ ∃ v, w = v ++ [slash]
  | .treeInside, w => w = [slash] ∨ ∃ v, w = slash :: v ++ [slash]
  | .treeEnd, w => ∃ v, w = slash :: v
  | .set negated ranges, w => ∃ b, w = [b] ∧ inRanges ranges b ≠ negated
  | .oneOf alternatives, w =>
    if allVacuous alternatives then w = [] else MatchesOne alternatives w

/-- The tokens stand for the bytes, one after the other. -/
def Matches : List Token → List UInt8 → Prop
  | [], w => w = []
  | t :: ts, w => ∃ u v, w = u ++ v ∧ t.Matches u ∧ Matches ts v

/-- One of the patterns stands for the bytes, and is not made of nothing. -/
def MatchesOne : List (List Token) → List UInt8 → Prop
  | [], _ => False
  | tokens :: rest, w => vacuous tokens = false ∧ Matches tokens w ∨ MatchesOne rest w
end

theorem matches_append :
    Matches (ts ++ us) w ↔ ∃ u v, w = u ++ v ∧ Matches ts u ∧ Matches us v := by
  induction ts generalizing w with
  | nil => simp [Matches]
  | cons t ts ih =>
    simp only [List.cons_append, Matches, ih]
    constructor
    · rintro ⟨u, _, rfl, hu, v, x, rfl, hv, hx⟩
      exact ⟨u ++ v, x, (List.append_assoc ..).symm, ⟨u, v, rfl, hu, hv⟩, hx⟩
    · rintro ⟨_, x, rfl, ⟨u, v, rfl, hu, hv⟩, hx⟩
      exact ⟨u, v ++ x, List.append_assoc .., hu, v, x, rfl, hv, hx⟩

/-- The pattern is one of any directories alone. -/
def isAnyTree (g : Glob) : Bool :=
  match g.tokens with
  | [.treeStart] => true
  | _ => false

/-! ## The bytes between two places -/

/-- The bytes of a path from a place to another one. -/
def between (path : List UInt8) (j k : Nat) : List UInt8 :=
  (path.take k).drop j

theorem length_between (hk : k ≤ path.length) : (between path j k).length = k - j := by
  rw [between, List.length_drop, List.length_take, Nat.min_eq_left hk]

theorem between_self : between path k k = [] :=
  List.drop_eq_nil_of_le (List.length_take_le ..)

theorem between_all : between path 0 path.length = path := by
  rw [between, List.take_length, List.drop_zero]

theorem between_succ (h : path[j]? = some b) : between path j (j + 1) = [b] := by
  obtain ⟨hlt, rfl⟩ := List.getElem?_eq_some_iff.mp h
  rw [between, List.drop_take, Nat.add_sub_cancel_left, List.drop_eq_getElem_cons hlt]
  rfl

theorem between_append (hj : j ≤ l) (hl : l ≤ k) :
    between path j l ++ between path l k = between path j k := by
  have hfirst : between path j l = ((path.take k).drop j).take (l - j) := by
    rw [between, ← List.drop_take, List.take_take, Nat.min_eq_left hl]
  have hsecond : between path l k = ((path.take k).drop j).drop (l - j) := by
    rw [between, List.drop_drop, Nat.add_sub_cancel' hj]
  rw [hfirst, hsecond, List.take_append_drop, between]

/-- Where the bytes between two places are cut, there is a place. -/
theorem between_eq_append (hk : k ≤ path.length) (hj : j ≤ k) (h : between path j k = u ++ v) :
    j + u.length ≤ k ∧ between path j (j + u.length) = u ∧
      between path (j + u.length) k = v := by
  have hlength := congrArg List.length h
  rw [length_between hk, List.length_append] at hlength
  have hle : j + u.length ≤ k := by omega
  have happend : between path j (j + u.length) ++ between path (j + u.length) k = u ++ v :=
    (between_append (Nat.le_add_right j u.length) hle).trans h
  have hfirst : (between path j (j + u.length)).length = u.length := by
    rw [length_between (Nat.le_trans hle hk), Nat.add_sub_cancel_left]
  obtain ⟨hu, hv⟩ := List.append_inj happend hfirst
  exact ⟨hle, hu, hv⟩

/-! ## Marks -/

namespace Marks

/-- From a set of places, bytes of a kind lead to just the places of another set. -/
structure Leads (path : List UInt8) (stands : List UInt8 → Prop) (m m' : Marks) : Prop where
  length : m'.length = m.length
  has : ∀ {k}, k ≤ path.length →
    (m'[k]? = some true ↔ ∃ j ≤ k, m[j]? = some true ∧ stands (between path j k))

theorem Leads.congr (h : Leads path stands m m') (hsame : ∀ w, stands w ↔ stands' w) :
    Leads path stands' m m' where
  length := h.length
  has hk := by simp only [h.has hk, hsame]

theorem leads_nothing : Leads path (· = []) m m where
  length := rfl
  has {k} hk := by
    refine ⟨fun hm => ⟨k, Nat.le_refl k, hm, between_self⟩, ?_⟩
    rintro ⟨j, hj, hm, hnil⟩
    have hlength := congrArg List.length hnil
    rw [length_between hk, List.length_nil] at hlength
    obtain rfl : j = k := by omega
    exact hm

theorem Leads.trans (h : Leads path stands m m') (h' : Leads path stands' m' n) :
    Leads path (fun w => ∃ u v, w = u ++ v ∧ stands u ∧ stands' v) m n where
  length := h'.length.trans h.length
  has {k} hk := by
    rw [h'.has hk]
    constructor
    · rintro ⟨l, hl, hm', hv⟩
      obtain ⟨j, hj, hm, hu⟩ := (h.has (Nat.le_trans hl hk)).mp hm'
      exact ⟨j, Nat.le_trans hj hl, hm, _, _, (between_append hj hl).symm, hu, hv⟩
    · rintro ⟨j, hj, hm, u, v, heq, hu, hv⟩
      obtain ⟨hle, hfirst, hsecond⟩ := between_eq_append hk hj heq
      refine ⟨j + u.length, hle, (h.has (Nat.le_trans hle hk)).mpr ?_, by rwa [hsecond]⟩
      exact ⟨j, Nat.le_add_right .., hm, by rwa [hfirst]⟩

theorem leads_none : Leads path (fun _ => False) m m.none where
  length := length_none m
  has hk := by simp [none, List.getElem?_replicate]

theorem Leads.union (h : Leads path stands m m') (h' : Leads path stands' m n) :
    Leads path (fun w => stands w ∨ stands' w) m (m'.union n) where
  length := by rw [length_union, h.length, h'.length, Nat.min_self]
  has {k} hk := by
    have hor : (m'.union n)[k]? = some true ↔ m'[k]? = some true ∨ n[k]? = some true := by
      have hlength : n.length = m'.length := h'.length.trans h.length.symm
      rw [Marks.union, List.getElem?_zipWith]
      rcases Nat.lt_or_ge k m'.length with hlt | hge
      · rw [List.getElem?_eq_getElem hlt, List.getElem?_eq_getElem (hlength ▸ hlt)]
        simp
      · rw [List.getElem?_eq_none hge, List.getElem?_eq_none (hlength ▸ hge)]
        simp
    rw [hor, h.has hk, h'.has hk, ← exists_or]
    simp only [← and_or_left]

theorem getElem?_onwardAfter {before : Bool} : (onwardAfter before m)[k]? = some true ↔
    k < m.length ∧ (before = true ∨ ∃ j ≤ k, m[j]? = some true) := by
  induction m generalizing before k with
  | nil => simp [onwardAfter]
  | cons marked m ih =>
    cases k with
    | zero => simp [onwardAfter]
    | succ k =>
      have hsplit : (∃ j ≤ k + 1, (marked :: m)[j]? = some true) ↔
          marked = true ∨ ∃ j ≤ k, m[j]? = some true := by
        constructor
        · rintro ⟨_ | j, hj, hm⟩
          · exact Or.inl (Option.some.inj hm)
          · exact Or.inr ⟨j, Nat.le_of_succ_le_succ hj, hm⟩
        · rintro (rfl | ⟨j, hj, hm⟩)
          · exact ⟨0, Nat.zero_le _, rfl⟩
          · exact ⟨j + 1, Nat.succ_le_succ hj, hm⟩
      rw [onwardAfter, List.getElem?_cons_succ, ih, hsplit, Bool.or_eq_true, or_assoc,
        List.length_cons, Nat.succ_lt_succ_iff]

theorem leads_onward (hm : m.length = path.length + 1) :
    Leads path (fun _ => True) m m.onward where
  length := length_onward m
  has {k} hk := by
    rw [onward, getElem?_onwardAfter]
    simp only [Bool.false_eq_true, false_or, and_true]
    exact and_iff_right (by omega)

theorem leads_past (hm : m.length = path.length + 1) (isIn : UInt8 → Bool) :
    Leads path (fun w => ∃ b, w = [b] ∧ isIn b = true) m (m.past path isIn) where
  length := by rw [length_past, hm, Nat.min_eq_left (Nat.le_succ _)]
  has {k} hk := by
    cases k with
    | zero =>
      refine iff_of_false (by simp [past]) ?_
      rintro ⟨j, hj, -, b, hone, -⟩
      have hlength := congrArg List.length hone
      rw [length_between hk, List.length_singleton] at hlength
      omega
    | succ k =>
      have hmarked : m[k]? = some m[k] := List.getElem?_eq_getElem (by omega)
      have hbyte : path[k]? = some path[k] := List.getElem?_eq_getElem (by omega)
      rw [past, List.getElem?_cons_succ, List.getElem?_zipWith, hmarked, hbyte]
      constructor
      · intro hand
        obtain ⟨hmark, hin⟩ := Bool.and_eq_true_iff.mp (Option.some.inj hand)
        exact ⟨k, Nat.le_succ k, by rw [hmarked, hmark], path[k], between_succ hbyte, hin⟩
      · rintro ⟨j, hj, hmark, b, hone, hin⟩
        have hlength := congrArg List.length hone
        rw [length_between hk, List.length_singleton] at hlength
        obtain rfl : j = k := by omega
        rw [between_succ hbyte, List.singleton_inj] at hone
        rw [hmarked, Option.some.injEq] at hmark
        rw [hmark, hone]
        exact congrArg some hin

theorem leads_pastBytes (hm : m.length = path.length + 1) (bs : List UInt8) :
    Leads path (· = bs) m (m.pastBytes path bs) := by
  induction bs generalizing m with
  | nil => exact leads_nothing
  | cons b bs ih =>
    have hfirst := leads_past hm (· == b)
    refine (hfirst.trans (ih (hfirst.length.trans hm))).congr fun w => ?_
    constructor
    · rintro ⟨_, v, rfl, ⟨c, rfl, hc⟩, rfl⟩
      rw [beq_iff_eq.mp hc]
      rfl
    · rintro rfl
      exact ⟨[b], bs, rfl, ⟨b, rfl, beq_self_eq_true b⟩, rfl⟩

theorem leads_pastSlash (hm : m.length = path.length + 1) :
    Leads path (· = [slash]) m (m.pastSlash path) :=
  leads_pastBytes hm [slash]

end Marks

/-! ## Steps -/

open Marks (Leads leads_nothing leads_none leads_onward leads_past leads_pastBytes leads_pastSlash)

mutual
/-- **One token** leads over the bytes that it stands for. -/
theorem leads_step : (t : Token) → {m : Marks} → m.length = path.length + 1 →
    Leads path t.Matches m (t.step path m)
  | .literal c, _, hm => by
    simpa only [Token.Matches, Token.step] using leads_pastBytes hm (String.utf8EncodeChar c)
  | .anyByte, _, hm => by
    simpa [Token.Matches, Token.step] using leads_past hm fun _ => true
  | .anyRun, _, hm => by
    simpa only [Token.Matches, Token.step] using leads_onward hm
  | .treeStart, _, hm => by
    have honward := leads_onward hm
    have hslash := honward.trans (leads_pastSlash (honward.length.trans hm))
    refine (leads_nothing.union hslash).congr fun w => ?_
    simp [Token.Matches]
  | .treeInside, _, hm => by
    have hslash := leads_pastSlash hm
    have honward := leads_onward (hslash.length.trans hm)
    have hall := hslash.trans (honward.trans
      (leads_pastSlash (honward.length.trans (hslash.length.trans hm))))
    refine (hslash.union hall).congr fun w => ?_
    simp [Token.Matches]
  | .treeEnd, _, hm => by
    have hslash := leads_pastSlash hm
    refine (hslash.trans (leads_onward (hslash.length.trans hm))).congr fun w => ?_
    simp [Token.Matches]
  | .set negated ranges, _, hm => by
    refine (leads_past hm fun b => inRanges ranges b != negated).congr fun w => ?_
    simp [Token.Matches]
  | .oneOf alternatives, _, hm => by
    simp only [Token.step]
    split
    · next hvacuous => exact leads_nothing.congr fun w => by simp [Token.Matches, hvacuous]
    · next hvacuous =>
      exact (leads_alternativeSteps alternatives hm).congr fun w => by
        simp [Token.Matches, hvacuous]

/-- **Tokens** lead over the bytes that they stand for. -/
theorem leads_steps : (ts : List Token) → {m : Marks} → m.length = path.length + 1 →
    Leads path (Matches ts) m (steps path ts m)
  | [], _, _ => leads_nothing.congr fun w => by simp [Matches]
  | t :: ts, _, hm => by
    have hfirst := leads_step t hm
    refine (hfirst.trans (leads_steps ts (hfirst.length.trans hm))).congr fun w => ?_
    simp only [Matches]

theorem leads_alternativeSteps : (tss : List (List Token)) → {m : Marks} →
    m.length = path.length + 1 → Leads path (MatchesOne tss) m (alternativeSteps path tss m)
  | [], _, _ => leads_none.congr fun w => by simp [MatchesOne]
  | tokens :: rest, _, hm => by
    have hrest := leads_alternativeSteps rest hm
    simp only [alternativeSteps]
    split
    · next hvacuous => exact hrest.congr fun w => by simp [MatchesOne, hvacuous]
    · next hvacuous =>
      refine ((leads_steps tokens hm).union hrest).congr fun w => ?_
      simp [MatchesOne, hvacuous]
end

theorem hasLast_steps : (steps path ts (Marks.first path)).hasLast = true ↔ Matches ts path := by
  have hleads := leads_steps ts (Marks.length_first path)
  have hfirst : ∀ j, (Marks.first path)[j]? = some true ↔ j = 0 := by
    rintro (_ | j) <;> simp [Marks.first, List.getElem?_replicate]
  rw [Marks.hasLast, beq_iff_eq, List.getLast?_eq_getElem?, hleads.length, Marks.length_first,
    Nat.add_sub_cancel, hleads.has (Nat.le_refl _)]
  simp only [hfirst]
  constructor
  · rintro ⟨_, -, rfl, h⟩
    rwa [between_all] at h
  · intro h
    exact ⟨0, Nat.zero_le _, rfl, by rwa [between_all]⟩

/-- **A path is accepted** if the pattern stands for its bytes. A pattern that decides by the file
name takes no path without one, and a pattern of any directories alone takes every path. -/
theorem accepts_iff {g : Glob} {path : String} : g.accepts path = true ↔
    g.isAnyTree = true ∨ (g.kind.readsFileName = true → hasFileName path = true) ∧
      Matches g.tokens (bytes path.toList) := by
  unfold accepts
  split
  · next htree => simp only [isAnyTree, htree, true_or]
  · next hother =>
    have htree : g.isAnyTree = false := by
      unfold isAnyTree
      split
      · next htree => exact absurd htree hother
      · rfl
    rw [Bool.and_eq_true, hasLast_steps, htree]
    simp [imp_iff_not_or]

end EntryReport.Glob
