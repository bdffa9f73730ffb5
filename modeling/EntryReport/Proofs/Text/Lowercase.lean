import EntryReport.Text.Lowercase
import Mathlib.Data.List.Infix

/-!
# Lowercase of a part of a text

Lowercase is taken character by character but for the capital sigma, whose form depends on what
stands around it. So the lowercase form of a text consists of those of its parts, each
`lowerBetween` what stands around it (`lowerFrom_append`). A part has the form that it has on its
own exactly if it `KeepsSigmas` (`lowerBetween_eq_iff`), which it does if there is none in it. Then
the lowercase form of the part stands in that of the text (`lowercase_infix`).
-/

namespace EntryReport.Text

variable {before cs after : List Char}

/-- The lowercase form of characters between `before`, nearest first, and `after`. -/
def lowerBetween (before : List Char) : (cs after : List Char) → List Char
  | [], _ => []
  | c :: cs, after =>
    if c = 'Σ' then lowerSigma before (cs ++ after) :: lowerBetween (c :: before) cs after
    else lowerChar c ++ lowerBetween (c :: before) cs after

/-- **The lowercase form of a text is that of its parts**, each where it stands. -/
theorem lowerFrom_append (before cs after : List Char) : lowerFrom before (cs ++ after) =
    lowerBetween before cs after ++ lowerFrom (cs.reverse ++ before) after := by
  induction cs generalizing before with
  | nil => rfl
  | cons c cs ih =>
    rw [List.cons_append, lowerFrom, lowerBetween, ih, List.reverse_cons, List.append_assoc,
      List.singleton_append]
    split
    · rfl
    · rw [List.append_assoc]

theorem lowerBetween_nil (before cs : List Char) :
    lowerBetween before cs [] = lowerFrom before cs := by
  have happend := lowerFrom_append before cs []
  rw [List.append_nil, lowerFrom, List.append_nil] at happend
  exact happend.symm

/-- Each capital sigma takes the form between `before`, nearest first, and `after` that it takes
without them. -/
def KeepsSigmas (before cs after : List Char) : Prop :=
  ∀ i < cs.length, cs[i]? = some 'Σ' →
    lowerSigma ((cs.take i).reverse ++ before) (cs.drop (i + 1) ++ after) =
      lowerSigma (cs.take i).reverse (cs.drop (i + 1))

instance (before cs after : List Char) : Decidable (KeepsSigmas before cs after) :=
  inferInstanceAs (Decidable (∀ i < cs.length, cs[i]? = some 'Σ' →
    lowerSigma ((cs.take i).reverse ++ before) (cs.drop (i + 1) ++ after) =
      lowerSigma (cs.take i).reverse (cs.drop (i + 1))))

theorem keepsSigmas_of_not_mem (h : 'Σ' ∉ cs) : KeepsSigmas before cs after := by
  intro i _ hi
  exact absurd (List.mem_of_getElem? hi) h

/-- **A part has its own form** exactly if its sigmas have theirs. What stands in front of it is cut
in two, of which `near` belongs to the part. -/
theorem lowerBetween_eq_iff (near before cs after : List Char) :
    lowerBetween (near ++ before) cs after = lowerBetween near cs [] ↔
      ∀ i < cs.length, cs[i]? = some 'Σ' →
        lowerSigma ((cs.take i).reverse ++ (near ++ before)) (cs.drop (i + 1) ++ after) =
          lowerSigma ((cs.take i).reverse ++ near) (cs.drop (i + 1)) := by
  induction cs generalizing near with
  | nil => simp [lowerBetween]
  | cons c cs ih =>
    have hshift (i : Nat) (rest : List Char) :
        ((c :: cs).take (i + 1)).reverse ++ rest = (cs.take i).reverse ++ c :: rest := by simp
    have ih := ih (c :: near)
    rw [List.cons_append] at ih
    simp only [lowerBetween, List.length_cons, Nat.forall_lt_succ_left, List.getElem?_cons_zero,
      List.getElem?_cons_succ, Option.some.injEq, hshift, List.drop_succ_cons, List.take_zero,
      List.drop_zero, List.reverse_nil, List.nil_append, List.append_nil]
    by_cases hc : c = 'Σ'
    · rw [if_pos hc, if_pos hc, List.cons.injEq, ih, forall_prop_of_true hc]
    · rw [if_neg hc, if_neg hc, List.append_cancel_left_eq, ih]
      simp only [hc, false_imp_iff, true_and]

/-- **A part that keeps its sigmas** has its lowercase form in that of the text. -/
theorem lowercase_infix {text : String} (h : text.toList = before ++ cs ++ after)
    (hkeeps : KeepsSigmas before.reverse cs after) :
    lowerFrom [] cs <:+: (lowercase text).toList := by
  have hown : lowerBetween before.reverse cs after = lowerFrom [] cs := by
    have hiff := lowerBetween_eq_iff [] before.reverse cs after
    simp only [List.nil_append, List.append_nil, lowerBetween_nil] at hiff
    exact hiff.mpr hkeeps
  rw [lowercase, String.toList_ofList, h, List.append_assoc, lowerFrom_append, List.append_nil,
    lowerFrom_append, hown, ← List.append_assoc]
  exact List.infix_append _ _ _

end EntryReport.Text
