import EntryReport.Proofs.Json.Documents
import EntryReport.Proofs.Results

/-!
# The text of a document

A text that is read to its end spells the document that is read of it: its tokens are the tokens of
that document (`spelledBy_iff`). So a text that can be read spells one document, and no other.
-/

namespace EntryReport.Json

variable {root : Doc} {stack : List Open} {ts : List Token}

/-! ## Reading to the end -/

/-- With these tokens the reading comes to its end. -/
def Progress.EndsAt (p : Progress) (ts : List Token) (root : Doc) : Prop :=
  ts.foldl Progress.step p = .complete root

/-- What is broken remains so. -/
theorem not_endsAt_broken (broken : Doc) (ts : List Token) :
    ¬(Progress.broken broken).EndsAt ts root := by
  unfold Progress.EndsAt
  induction ts with
  | nil => exact nofun
  | cons t ts ih => exact ih

/-- Nothing follows a document. -/
theorem eq_of_endsAt_complete {d : Doc} (h : (Progress.complete d).EndsAt ts root) :
    ts = [] ∧ d = root := by
  cases ts with
  | nil =>
    cases h
    exact ⟨rfl, rfl⟩
  | cons t ts => exact absurd h (not_endsAt_broken d ts)

theorem endsAt_of_finish {p : Progress} (h : (ts.foldl Progress.step p).finish = ⟨root, true⟩) :
    p.EndsAt ts root := by
  unfold Progress.EndsAt
  generalize ts.foldl Progress.step p = last at h ⊢
  cases last with
  | complete d =>
    cases h
    rfl
  | broken d => cases h
  | reading expected stack => cases expected <;> cases h

/-- An array is empty, or its first item follows. -/
theorem endsAt_itemOrEnd (h : (Progress.reading .itemOrEnd (.arr [] :: stack)).EndsAt ts root) :
    (∃ rest, ts = .closeArr :: rest ∧ (settle (.arr .closed) stack).EndsAt rest root) ∨
      (Progress.reading .value (.arr [] :: stack)).EndsAt ts root := by
  cases ts with
  | nil => cases h
  | cons t ts =>
    cases t with
    | closeArr => exact .inl ⟨ts, rfl, h⟩
    | _ => exact .inr h

/-- An object is empty, or its first member follows. -/
theorem endsAt_keyOrEnd (h : (Progress.reading .keyOrEnd (.obj [] :: stack)).EndsAt ts root) :
    (∃ rest, ts = .closeObj :: rest ∧ (settle (.obj .closed) stack).EndsAt rest root) ∨
      (Progress.reading .key (.obj [] :: stack)).EndsAt ts root := by
  cases ts with
  | nil => cases h
  | cons t ts =>
    cases t with
    | closeObj => exact .inl ⟨ts, rfl, h⟩
    | _ => exact .inr h

/-- A member begins with its key and a colon. -/
theorem endsAt_key {done : List (Option String × Doc)}
    (h : (Progress.reading .key (.obj done :: stack)).EndsAt ts root) :
    ∃ key rest, ts = .string key :: .colon :: rest ∧
      (Progress.reading .value (.value done key :: stack)).EndsAt rest root := by
  cases ts with
  | nil => cases h
  | cons t ts =>
    cases t with
    | string key =>
      cases ts with
      | nil => cases h
      | cons t ts =>
        cases t with
        | colon => exact ⟨key, ts, rfl, h⟩
        | _ => exact absurd h (not_endsAt_broken _ ts)
    | _ => exact absurd h (not_endsAt_broken _ ts)

/-- After an item the array ends, or another item follows. -/
theorem endsAt_arr {done : List Doc}
    (h : (Progress.reading .commaOrEnd (.arr done :: stack)).EndsAt ts root) :
    (∃ rest, ts = .closeArr :: rest ∧
      (settle (.arr (.ofReversed done .closed)) stack).EndsAt rest root) ∨
    ∃ rest, ts = .comma :: rest ∧
      (Progress.reading .value (.arr done :: stack)).EndsAt rest root := by
  cases ts with
  | nil => cases h
  | cons t ts =>
    cases t with
    | closeArr => exact .inl ⟨ts, rfl, h⟩
    | comma => exact .inr ⟨ts, rfl, h⟩
    | _ => exact absurd h (not_endsAt_broken _ ts)

/-- After a member the object ends, or another member follows. -/
theorem endsAt_obj {done : List (Option String × Doc)}
    (h : (Progress.reading .commaOrEnd (.obj done :: stack)).EndsAt ts root) :
    (∃ rest, ts = .closeObj :: rest ∧
      (settle (.obj (.ofReversed done .closed)) stack).EndsAt rest root) ∨
    ∃ rest, ts = .comma :: rest ∧
      (Progress.reading .key (.obj done :: stack)).EndsAt rest root := by
  cases ts with
  | nil => cases h
  | cons t ts =>
    cases t with
    | closeObj => exact .inl ⟨ts, rfl, h⟩
    | comma => exact .inr ⟨ts, rfl, h⟩
    | _ => exact absurd h (not_endsAt_broken _ ts)

/-! ## What was read -/

mutual
/-- **Where a value is read to its end,** the tokens are those of a document, and others that follow
it. -/
theorem exists_doc_of_endsAt : (ts : List Token) → (stack : List Open) →
    (Progress.reading .value stack).EndsAt ts root →
    ∃ d rest, d.wellFormed = true ∧ ts = d.lexemes ++ rest ∧ (settle d stack).EndsAt rest root
  | [], _, h => by cases h
  | .null :: ts, _, h => ⟨.null, ts, rfl, by rw [Doc.lexemes]; rfl, h⟩
  | .bool b :: ts, _, h => ⟨.bool b, ts, rfl, by rw [Doc.lexemes]; rfl, h⟩
  | .number n :: ts, _, h => ⟨.number n, ts, rfl, by rw [Doc.lexemes]; rfl, h⟩
  | .string s :: ts, _, h => ⟨.string s, ts, rfl, by rw [Doc.lexemes]; rfl, h⟩
  | .openArr :: ts, stack, h => by
    rcases endsAt_itemOrEnd h with ⟨rest, rfl, hrest⟩ | hfirst
    · exact ⟨.arr .closed, rest, rfl, by rw [Doc.lexemes, Items.lexemes]; rfl, hrest⟩
    · obtain ⟨d, rest, hd, rfl, hrest⟩ := exists_doc_of_endsAt ts _ hfirst
      obtain ⟨items, rest, hitems, rfl, hend⟩ := exists_items_of_endsAt rest stack [d] hrest
      refine ⟨.arr (.item d items), rest, ?_, ?_, hend⟩
      · rw [Doc.wellFormed, Items.wellFormed, hd, hitems, Bool.and_self]
      · rw [Doc.lexemes, Items.lexemes, List.nil_append, List.cons_append, List.append_assoc]
  | .openObj :: ts, stack, h => by
    rcases endsAt_keyOrEnd h with ⟨rest, rfl, hrest⟩ | hfirst
    · exact ⟨.obj .closed, rest, rfl, by rw [Doc.lexemes, Members.lexemes]; rfl, hrest⟩
    · obtain ⟨key, rest, rfl, hvalue⟩ := endsAt_key hfirst
      obtain ⟨d, rest, hd, rfl, hrest⟩ := exists_doc_of_endsAt rest _ hvalue
      obtain ⟨members, rest, hmembers, rfl, hend⟩ :=
        exists_members_of_endsAt rest stack [(key, d)] hrest
      refine ⟨.obj (.member key d members), rest, ?_, ?_, hend⟩
      · rw [Doc.wellFormed, Members.wellFormed, hd, hmembers, Bool.and_self]
      · rw [Doc.lexemes, Members.lexemes, List.nil_append, List.cons_append, List.cons_append,
          List.cons_append, List.append_assoc]
  | .closeArr :: ts, _, h | .closeObj :: ts, _, h | .comma :: ts, _, h | .colon :: ts, _, h
  | .fault :: ts, _, h => absurd h (not_endsAt_broken _ ts)
termination_by ts => ts.length
decreasing_by
  all_goals
    subst_vars
    simp only [List.length_cons, List.length_append]
    omega

/-- Where an array is read on to its end, further items follow. -/
theorem exists_items_of_endsAt (ts : List Token) (stack : List Open) (done : List Doc)
    (h : (Progress.reading .commaOrEnd (.arr done :: stack)).EndsAt ts root) :
    ∃ items rest, items.wellFormed = true ∧ ts = items.lexemes [.comma] ++ rest ∧
      (settle (.arr (.ofReversed done items)) stack).EndsAt rest root := by
  rcases endsAt_arr h with ⟨rest, rfl, hrest⟩ | ⟨rest, rfl, hvalue⟩
  · exact ⟨.closed, rest, rfl, by rw [Items.lexemes]; rfl, hrest⟩
  · obtain ⟨d, rest, hd, rfl, hrest⟩ := exists_doc_of_endsAt rest _ hvalue
    obtain ⟨items, rest, hitems, rfl, hend⟩ := exists_items_of_endsAt rest stack (d :: done) hrest
    refine ⟨.item d items, rest, ?_, ?_, hend⟩
    · rw [Items.wellFormed, hd, hitems, Bool.and_self]
    · rw [Items.lexemes, List.singleton_append, List.cons_append, List.append_assoc]
termination_by ts.length
decreasing_by
  all_goals
    subst_vars
    simp only [List.length_cons, List.length_append]
    omega

/-- Where an object is read on to its end, further members follow. -/
theorem exists_members_of_endsAt (ts : List Token) (stack : List Open)
    (done : List (Option String × Doc))
    (h : (Progress.reading .commaOrEnd (.obj done :: stack)).EndsAt ts root) :
    ∃ members rest, members.wellFormed = true ∧ ts = members.lexemes [.comma] ++ rest ∧
      (settle (.obj (.ofReversed done members)) stack).EndsAt rest root := by
  rcases endsAt_obj h with ⟨rest, rfl, hrest⟩ | ⟨rest, rfl, hkey⟩
  · exact ⟨.closed, rest, rfl, by rw [Members.lexemes]; rfl, hrest⟩
  · obtain ⟨key, rest, rfl, hvalue⟩ := endsAt_key hkey
    obtain ⟨d, rest, hd, rfl, hrest⟩ := exists_doc_of_endsAt rest _ hvalue
    obtain ⟨members, rest, hmembers, rfl, hend⟩ :=
      exists_members_of_endsAt rest stack ((key, d) :: done) hrest
    refine ⟨.member key d members, rest, ?_, ?_, hend⟩
    · rw [Members.wellFormed, hd, hmembers, Bool.and_self]
    · rw [Members.lexemes, List.singleton_append, List.cons_append, List.cons_append,
        List.cons_append, List.append_assoc]
termination_by ts.length
decreasing_by
  all_goals
    subst_vars
    simp only [List.length_cons, List.length_append]
    omega
end

/-- **A text spells the document that is read of it to its end,** and no other. -/
theorem spelledBy_iff {d : Doc} {s : String} :
    d.SpelledBy s ↔ Document.ofText s = ⟨d, true⟩ := by
  refine ⟨Doc.SpelledBy.ofText, fun h => ?_⟩
  have hend : (Progress.reading .value []).EndsAt (tokens s.toList) d := endsAt_of_finish h
  obtain ⟨d, rest, hwell, htokens, hrest⟩ := exists_doc_of_endsAt _ _ hend
  obtain ⟨rfl, rfl⟩ := eq_of_endsAt_complete hrest
  exact ⟨hwell, by rw [htokens, List.append_nil]⟩

theorem Doc.SpelledBy.unique {c d : Doc} {s : String} (hc : c.SpelledBy s) (hd : d.SpelledBy s) :
    c = d :=
  congrArg Document.root (hc.ofText.symm.trans hd.ofText)

/-- **What is decoded of a text** is decoded of the document that the text spells. -/
theorem Decoder.run_eq_ok_iff {α : Type} {decode : Decoder α} {s : String} {a : α} :
    decode.run s = .ok a ↔ ∃ d : Doc, d.SpelledBy s ∧ decode d = .ok a := by
  constructor
  · intro h
    obtain ⟨b, hb, h⟩ := bind_eq_ok_iff.mp (mapError_eq_ok_iff.mp h)
    split at h
    next hclosed =>
      cases h
      exact ⟨(Document.ofText s).root, spelledBy_iff.mpr (by rw [← hclosed]), hb⟩
    · cases h
  · rintro ⟨d, hd, ha⟩
    rw [Decoder.run, hd.ofText]
    refine mapError_eq_ok_iff.mpr (bind_eq_ok_iff.mpr ⟨a, ha, rfl⟩)

end EntryReport.Json
