import EntryReport.Fingerprint
import EntryReport.Proofs.Text.ByteOrder
import Mathlib.Data.List.Forall2

/-!
# What a fingerprint tells apart

The stream of files ends every path and every content with a zero and gives no lengths. A content
may hold zeros of its own, so all that the stream keeps are the `pieces` between zeros, and a piece
does not say whether it is a path, a content or a part of one.

* `stream_eq_iff`: two streams are equal exactly if the pieces are;
* `eq_of_pieces_eq`: files can be told from the pieces if no content holds a zero;
* `eq_of_sameSizes`: files can be told from the stream if their paths and sizes are known.

A `Watch` is a `ChangeDetector` with the files that are edited under it. `Watch.answered` says which
changes its answers show.
-/

namespace EntryReport.Fingerprint

open Files (FileSystem)

/-! ## Paths in bytes -/

/-- The bytes of a path. -/
def pathBytes (path : String) : List UInt8 :=
  path.toUTF8.data.toList

theorem pathBytes_inj {p q : String} : pathBytes p = pathBytes q ↔ p = q := by
  unfold pathBytes
  rw [Array.toList_inj, ← ByteArray.ext_iff, String.toUTF8_eq_toByteArray,
    String.toUTF8_eq_toByteArray, String.toByteArray_inj]

theorem pathBytes_eq_flatMap (path : String) :
    pathBytes path = path.toList.flatMap String.utf8EncodeChar :=
  Text.bytes_eq_flatMap path

/-- Only the character zero has a zero in its encoding. -/
theorem zero_not_mem_utf8EncodeChar {c : Char} (h : c ≠ '\x00') :
    (0 : UInt8) ∉ String.utf8EncodeChar c :=
  Text.not_mem_utf8EncodeChar (by decide) fun hz => h (Char.ext (UInt32.toNat_inj.mp hz))

theorem zero_not_mem_pathBytes {path : String} (h : '\x00' ∉ path.toList) :
    0 ∉ pathBytes path := by
  rw [pathBytes_eq_flatMap, List.mem_flatMap]
  rintro ⟨c, hc, h0⟩
  by_cases hz : c = '\x00'
  · exact h (hz ▸ hc)
  · exact zero_not_mem_utf8EncodeChar hz h0

/-! ## Pieces -/

/-- Pieces one after the other, with a zero at the end of each. -/
def closeEach (pieces : List (List UInt8)) : List UInt8 :=
  pieces.flatMap (· ++ [0])

/-- The pieces of a file: its path, and its content cut at every zero. -/
def Input.pieces (i : Input) : List (List UInt8) :=
  pathBytes i.path :: (i.content.getD []).splitOn 0

/-- The pieces of files. -/
def pieces (inputs : List Input) : List (List UInt8) :=
  inputs.flatMap Input.pieces

theorem closeEach_eq_intercalate {ps : List (List UInt8)} (h : ps ≠ []) :
    closeEach ps = [0].intercalate ps ++ [0] := by
  induction ps with
  | nil => exact absurd rfl h
  | cons p ps ih =>
    by_cases hp : ps = []
    · simp [closeEach, hp]
    · rw [List.intercalate_cons_of_ne_nil hp, List.append_assoc, ← ih hp]
      simp [closeEach]

theorem closeEach_splitOn (content : List UInt8) :
    closeEach (content.splitOn 0) = content ++ [0] := by
  rw [closeEach_eq_intercalate (List.splitOn_ne_nil 0 content), List.intercalate_splitOn]

theorem stream_eq_closeEach (inputs : List Input) : stream inputs = closeEach (pieces inputs) := by
  induction inputs with
  | nil => rfl
  | cons i is ih =>
    have hi : i.stream = closeEach i.pieces := by
      have hc := closeEach_splitOn (i.content.getD [])
      simp only [closeEach] at hc
      simp [Input.stream, closeEach, Input.pieces, pathBytes, hc]
    calc stream (i :: is) = i.stream ++ stream is := rfl
      _ = closeEach (pieces (i :: is)) := by simp [hi, ih, closeEach, pieces]

/-- Pieces without zeros can be read off what they make when each is closed. -/
theorem closeEach_inj {ps qs : List (List UInt8)} (hp : ∀ p ∈ ps, 0 ∉ p) (hq : ∀ q ∈ qs, 0 ∉ q) :
    closeEach ps = closeEach qs ↔ ps = qs := by
  have cut (rs : List (List UInt8)) (hr : ∀ r ∈ rs, 0 ∉ r) :
      (closeEach rs).splitOn 0 = rs ++ [[]] := by
    have he : closeEach rs = [0].intercalate (rs ++ [[]]) := by
      induction rs with
      | nil => rfl
      | cons r rs ih =>
        rw [List.cons_append, List.intercalate_cons_of_ne_nil (by simp),
          ← ih fun r' h => hr r' (List.mem_cons_of_mem r h)]
        simp [closeEach]
    have h0 : ∀ r ∈ rs ++ [[]], (0 : UInt8) ∉ r := by
      intro r h
      obtain h | h := List.mem_append.mp h
      · exact hr r h
      · simp_all
    rw [he, List.splitOn_intercalate 0 h0 (by simp)]
  constructor
  · intro h
    exact List.append_cancel_right ((cut ps hp).symm.trans (h ▸ cut qs hq))
  · rintro rfl
    rfl

/-- No zero is left in the parts of a list that is cut at every zero. -/
theorem zero_not_mem_of_mem_splitOn (content : List UInt8) :
    ∀ p ∈ content.splitOn 0, (0 : UInt8) ∉ p := by
  induction content with
  | nil => simp
  | cons b content ih =>
    rw [List.splitOn_cons_eq_if_modifyHead]
    by_cases hb : b = 0
    · simpa [hb] using ih
    · obtain ⟨p, ps, hs⟩ := List.exists_cons_of_ne_nil (List.splitOn_ne_nil 0 content)
      rw [hs] at ih
      simp only [List.mem_cons, forall_eq_or_imp] at ih
      simpa [hs, hb, Ne.symm hb, ih.1] using ih.2

/-! ## Files -/

/-- A file that can be read: it has a content, and no zero in its path. -/
structure Input.Readable (i : Input) : Prop where
  zero_not_mem : '\x00' ∉ i.path.toList
  content : i.content.isSome

/-- No content holds a zero. -/
def ZeroFree (inputs : List Input) : Prop :=
  ∀ i ∈ inputs, ∀ content, i.content = some content → 0 ∉ content

instance (i : Input) : Decidable i.Readable :=
  decidable_of_iff ('\x00' ∉ i.path.toList ∧ i.content.isSome)
    ⟨fun h => ⟨h.1, h.2⟩, fun h => ⟨h.zero_not_mem, h.content⟩⟩

/-- Files with the same paths and the same numbers of bytes. -/
def SameSizes (a b : List Input) : Prop :=
  List.Forall₂ (fun i j => i.path = j.path ∧
    i.content.map List.length = j.content.map List.length) a b

variable {a b : List Input}

theorem zero_not_mem_of_mem_pieces (ha : ∀ i ∈ a, i.Readable) :
    ∀ p ∈ pieces a, (0 : UInt8) ∉ p := by
  intro p hp
  obtain ⟨i, hi, hp⟩ := List.mem_flatMap.mp hp
  obtain rfl | hp := List.mem_cons.mp hp
  · exact zero_not_mem_pathBytes (ha i hi).zero_not_mem
  · exact zero_not_mem_of_mem_splitOn _ p hp

/-- **The stream keeps the pieces and nothing else.** -/
theorem stream_eq_iff (ha : ∀ i ∈ a, i.Readable) (hb : ∀ i ∈ b, i.Readable) :
    stream a = stream b ↔ pieces a = pieces b := by
  rw [stream_eq_closeEach, stream_eq_closeEach]
  exact closeEach_inj (zero_not_mem_of_mem_pieces ha) (zero_not_mem_of_mem_pieces hb)

/-- A file whose content holds no zero has two pieces, from which it can be told. -/
theorem Input.pieces_of_zeroFree {i : Input} {content : List UInt8} (hc : i.content = some content)
    (h0 : 0 ∉ content) : i.pieces = [pathBytes i.path, content] := by
  simp [Input.pieces, hc, List.splitOn_eq_singleton h0]

theorem Input.eq_of_path_content {i j : Input} (hpath : i.path = j.path)
    (hcontent : i.content = j.content) : i = j := by
  cases i
  cases j
  rw [Input.mk.injEq]
  exact ⟨hpath, hcontent⟩

theorem eq_of_pieces_eq (ha : ∀ i ∈ a, i.Readable) (hb : ∀ i ∈ b, i.Readable) (za : ZeroFree a)
    (zb : ZeroFree b) (h : pieces a = pieces b) : a = b := by
  induction a generalizing b with
  | nil =>
    cases b with
    | nil => rfl
    | cons j b => simp [pieces, Input.pieces] at h
  | cons i a ih =>
    cases b with
    | nil => simp [pieces, Input.pieces] at h
    | cons j b =>
      simp only [List.mem_cons, forall_eq_or_imp, ZeroFree] at ha hb za zb
      obtain ⟨c, hc⟩ := Option.isSome_iff_exists.mp ha.1.content
      obtain ⟨d, hd⟩ := Option.isSome_iff_exists.mp hb.1.content
      simp only [pieces, List.flatMap_cons, Input.pieces_of_zeroFree hc (za.1 c hc),
        Input.pieces_of_zeroFree hd (zb.1 d hd), List.cons_append, List.nil_append,
        List.cons.injEq, pathBytes_inj] at h
      obtain ⟨hpath, hcontent, hrest⟩ := h
      have hij : i = j := Input.eq_of_path_content hpath (by rw [hc, hd, hcontent])
      rw [hij, ih ha.2 hb.2 za.2 zb.2 hrest]

theorem eq_of_sameSizes (h : SameSizes a b) (hs : stream a = stream b) : a = b := by
  induction h with
  | nil => rfl
  | @cons i j a b hij _ ih =>
    obtain ⟨hpath, hsize⟩ := hij
    have hlength : i.stream.length = j.stream.length := by
      cases hi : i.content <;> cases hj : j.content <;> simp_all [Input.stream]
    have hparts : i.stream ++ stream a = j.stream ++ stream b := hs
    obtain ⟨hfirst, hrest⟩ := List.append_inj hparts hlength
    have hcontent : i.content = j.content := by
      cases hi : i.content <;> cases hj : j.content <;> simp_all [Input.stream]
    rw [Input.eq_of_path_content hpath hcontent, ih hrest]

/-- Zeros or not, the content of one file among others can be told. -/
theorem stream_edit_inj (left right : List Input) (path : String) (c d : List UInt8) :
    stream (left ++ ⟨path, some c⟩ :: right) = stream (left ++ ⟨path, some d⟩ :: right) ↔
      c = d := by
  simp [stream, Input.stream]

/-! ## Answers -/

/-- A detector that is switched on keeps the new fingerprint, and says whether it is another one. -/
theorem check_of_enabled {d : ChangeDetector} (h : d.enabled = true) (fs : FileSystem)
    (paths : List String) :
    d.check fs paths =
      (⟨true, some (ofFiles fs paths)⟩, decide (d.last ≠ some (ofFiles fs paths))) := by
  obtain ⟨enabled, last⟩ := d
  obtain rfl : enabled = true := h
  by_cases hl : last = some (ofFiles fs paths) <;> simp [ChangeDetector.check, hl]

/-- Files with a detector that watches them, and what it was last asked about. -/
structure Watch where
  files : FileSystem
  detector : ChangeDetector
  asked : Option (List Input)

/-- The files are edited in any way, or the detector is asked about paths. -/
inductive Event where
  | edit (files : FileSystem)
  | ask (paths : List String)

namespace Watch

/-- A new detector. -/
def start (files : FileSystem) : Watch :=
  ⟨files, .new, none⟩

/-- What stands at the paths now. -/
def inputs (w : Watch) (paths : List String) : List Input :=
  paths.map (input w.files)

/-- The answer of the detector: whether there was a change. -/
def answer (w : Watch) (paths : List String) : Bool :=
  (w.detector.check w.files paths).2

/-- What an event leaves. -/
def after (w : Watch) : Event → Watch
  | .edit files => { w with files }
  | .ask paths =>
    { w with detector := (w.detector.check w.files paths).1, asked := some (w.inputs paths) }

/-- What events leave, one after the other. -/
def afterAll (w : Watch) (events : List Event) : Watch :=
  events.foldl after w

/-- The detector is switched on and keeps the fingerprint of what it was last asked about. -/
structure Fits (w : Watch) : Prop where
  enabled : w.detector.enabled = true
  last : w.detector.last = w.asked.map fun inputs => Sha256.hash (stream inputs)

variable {w : Watch}

theorem fits_start (files : FileSystem) : (start files).Fits :=
  ⟨rfl, rfl⟩

theorem Fits.after (h : w.Fits) (e : Event) : (w.after e).Fits := by
  cases e with
  | edit files => exact ⟨h.enabled, h.last⟩
  | ask paths =>
    exact ⟨by simp [Watch.after, check_of_enabled h.enabled],
      by simp [Watch.after, check_of_enabled h.enabled, ofFiles, inputs]⟩

theorem Fits.afterAll (h : w.Fits) (events : List Event) : (w.afterAll events).Fits := by
  induction events generalizing w with
  | nil => exact h
  | cons e events ih => exact ih (h.after e)

/-- No change is seen if the fingerprint is the one of what was last asked about. -/
theorem Fits.answer_eq_false_iff (h : w.Fits) (paths : List String) :
    w.answer paths = false ↔
      ∃ before, w.asked = some before ∧
        Sha256.hash (stream before) = Sha256.hash (stream (w.inputs paths)) := by
  have ha : w.answer paths = false ↔ w.detector.last = some (ofFiles w.files paths) := by
    simp [answer, check_of_enabled h.enabled]
  rw [ha, h.last, Option.map_eq_some_iff]
  rfl

/-- What the answer about paths says, where `before` is what the last question was about. -/
structure Answered (w : Watch) (paths : List String) : Prop where
  /-- The first answer is that there was a change. -/
  first : w.asked = none → w.answer paths = true
  /-- A change is seen exactly if the pieces are others. -/
  unseen_iff : ∀ {before}, w.asked = some before →
    (w.answer paths = false ↔ pieces before = pieces (w.inputs paths))
  /-- Every change is seen if no content holds a zero. -/
  of_zeroFree : ∀ {before}, w.asked = some before → ZeroFree before → ZeroFree (w.inputs paths) →
    (w.answer paths = false ↔ before = w.inputs paths)
  /-- Every change is seen that leaves paths and sizes as they were. -/
  of_sameSizes : ∀ {before}, w.asked = some before → SameSizes before (w.inputs paths) →
    (w.answer paths = false ↔ before = w.inputs paths)
  /-- Every change of the content of one file is seen. -/
  of_edit : ∀ {left right path c d}, w.asked = some (left ++ ⟨path, some c⟩ :: right) →
    w.inputs paths = left ++ ⟨path, some d⟩ :: right → (w.answer paths = false ↔ c = d)

/-- **What an answer says after any edits and questions**, if all files could be read when they were
asked about and the hash does not collide on the two streams that are compared. -/
theorem answered (files : FileSystem) (events : List Event) (paths : List String)
    (hb : ∀ before, ((start files).afterAll events).asked = some before → ∀ i ∈ before, i.Readable)
    (hr : ∀ i ∈ ((start files).afterAll events).inputs paths, i.Readable)
    (hc : ∀ before, ((start files).afterAll events).asked = some before →
      Sha256.hash (stream before) =
        Sha256.hash (stream (((start files).afterAll events).inputs paths)) →
      stream before = stream (((start files).afterAll events).inputs paths)) :
    ((start files).afterAll events).Answered paths := by
  have fits := (fits_start files).afterAll events
  generalize (start files).afterAll events = w at hb hr hc fits
  -- the only inputs with the same fingerprint are those with the same stream
  have hs {before : List Input} (h : w.asked = some before) :
      w.answer paths = false ↔ stream before = stream (w.inputs paths) := by
    rw [fits.answer_eq_false_iff]
    constructor
    · rintro ⟨before', h', heq⟩
      obtain rfl : before = before' := Option.some.inj (h ▸ h')
      exact hc before h heq
    · exact fun heq => ⟨before, h, by rw [heq]⟩
  refine ⟨fun h => ?first, fun h => ?unseen_iff, fun h zb zr => ?of_zeroFree,
    fun h hsize => ?of_sameSizes, fun h hedit => ?of_edit⟩
  case first =>
    by_contra hf
    obtain ⟨before, h', -⟩ := (fits.answer_eq_false_iff paths).mp (Bool.eq_false_iff.mpr hf)
    rw [h] at h'
    cases h'
  case unseen_iff => rw [hs h, stream_eq_iff (hb _ h) hr]
  case of_zeroFree =>
    rw [hs h, stream_eq_iff (hb _ h) hr]
    exact ⟨eq_of_pieces_eq (hb _ h) hr zb zr, fun heq => by rw [heq]⟩
  case of_sameSizes =>
    rw [hs h]
    exact ⟨eq_of_sameSizes hsize, fun heq => by rw [heq]⟩
  case of_edit => rw [hs h, hedit, stream_edit_inj]

/-- Files `a` and `b`. -/
def twoFiles (a b : List UInt8) : FileSystem :=
  ⟨[(["a"], .file a ⟨0, 0⟩), (["b"], .file b ⟨0, 0⟩)], []⟩

/-- A file is edited between two questions. -/
theorem answered_edited :
    ((start (twoFiles [0x78] [])).afterAll
      [.ask ["a", "b"], .edit (twoFiles [0x79, 0] [])]).Answered ["a", "b"] := by
  apply answered
  case hb =>
    intro before h
    cases h
    decide +kernel
  case hr => decide +kernel
  case hc =>
    intro before h
    cases h
    decide +kernel

/-- The zeros of one content are moved into the other, so that the stream is the same: the files are
others, and no change is seen. -/
theorem unseen_moved :
    let w := (start (twoFiles [0x78] [0x79, 0, 0x62, 0, 0x7a])).afterAll
      [.ask ["a", "b"], .edit (twoFiles [0x78, 0, 0x62, 0, 0x79] [0x7a])]
    ∃ before, w.asked = some before ∧
      (∀ i ∈ before, i.Readable) ∧ (∀ i ∈ w.inputs ["a", "b"], i.Readable) ∧
      stream before = stream (w.inputs ["a", "b"]) ∧ before ≠ w.inputs ["a", "b"] ∧
      w.answer ["a", "b"] = false :=
  ⟨_, rfl, by decide +kernel, by decide +kernel, by decide +kernel, by decide +kernel,
    by decide +kernel⟩

end Watch

end EntryReport.Fingerprint
