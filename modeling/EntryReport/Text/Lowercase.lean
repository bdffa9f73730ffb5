import EntryReport.Text.CaseTable

/-!
# Lowercase

`lowercase` maps a text to lowercase, character by character and independent of language. One
character depends on where it stands: a capital sigma that ends a word becomes `ς`, any other
becomes `σ`. It ends a word when a cased letter stands before it and none after it, where the
characters of `caseIgnorableRanges` are looked through.
-/

namespace EntryReport.Text

/-- The code point that the runs give for `n`. -/
def runTarget? (n : Nat) : Option Nat :=
  (lowerRuns.find? fun r => r.first ≤ n && n ≤ r.last && (n - r.first) % r.step == 0).map
    fun r => r.target + (n - r.first)

/-- The lowercase form of a character, wherever it stands. -/
def lowerChar (c : Char) : List Char :=
  if c.toNat < 0x80 then [c.toLower]
  else if c = 'İ' then ['i', '\u0307']
  else match runTarget? c.toNat with
    | some n => [Char.ofNat n]
    | none => [c]

/-- The first character that is not looked through is a cased letter. -/
def meetsCased (cs : List Char) : Bool :=
  match cs.dropWhile caseIgnorableRanges.contains with
  | [] => false
  | c :: _ => casedRanges.contains c

/-- The small form of a capital sigma between `before`, nearest character first, and `after`. -/
def lowerSigma (before after : List Char) : Char :=
  if meetsCased before && !meetsCased after then 'ς' else 'σ'

/-- The lowercase form of the characters that follow `before`, which is given nearest first. -/
def lowerFrom (before : List Char) : List Char → List Char
  | [] => []
  | c :: after =>
    if c = 'Σ' then lowerSigma before after :: lowerFrom (c :: before) after
    else lowerChar c ++ lowerFrom (c :: before) after

/-- The lowercase form of a text. -/
def lowercase (s : String) : String :=
  String.ofList (lowerFrom [] s.toList)

end EntryReport.Text
