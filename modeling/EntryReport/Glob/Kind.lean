import EntryReport.Glob.Basic

/-!
# Kinds of patterns

`Glob.kind` says by what a pattern decides. The first of these that fits:

* a name in any directory: `**/name`;
* the characters of a path: `a/b.txt`;
* any name with one extension: `*.txt`, `**/*.txt`;
* a beginning of paths: `a/*`, `a/**`;
* an ending of paths, after any directories or any run of bytes: `**/a/b`, `*b`;
* anything that ends in an extension: `a?.txt`;
* a name in any directory, of characters and sets without a slash: `**/a[bc]`;
* anything else.
-/

namespace EntryReport

namespace Glob

/-- By what a pattern decides. -/
inductive Kind where
  | name
  | characters
  | extension
  | beginning
  | ending
  | endsInExtension
  | spelling
  | general
deriving DecidableEq, Repr

/-- The characters of tokens that are all characters. -/
def literals? : List Token → Option (List Char)
  | [] => some []
  | .literal c :: rest => (literals? rest).map (c :: ·)
  | _ :: _ => none

/-- The tokens after the directories that they may begin with. -/
def afterTreeStart : List Token → List Token
  | .treeStart :: rest => rest
  | tokens => tokens

/-- The tokens after the run of bytes that they may begin with. -/
def afterRun : List Token → List Token
  | .anyRun :: rest => rest
  | tokens => tokens

/-- One name, in any directory. -/
def isName : List Token → Bool
  | .treeStart :: rest => (literals? rest).any fun name => !name.isEmpty && !name.contains '/'
  | _ => false

/-- Nothing but characters. -/
def isCharacters (tokens : List Token) : Bool :=
  !tokens.isEmpty && (literals? tokens).isSome

/-- Any name with one extension. -/
def isExtension (tokens : List Token) : Bool :=
  match afterTreeStart tokens with
  | .anyRun :: .literal '.' :: rest =>
    (literals? rest).any fun ext => !ext.contains '.' && !ext.contains '/'
  | _ => false

/-- Characters, and then any run of bytes or any directories. -/
def isBeginning (tokens : List Token) : Bool :=
  match tokens.getLast? with
  | some .anyRun => isCharacters tokens.dropLast
  | some .treeEnd => (literals? tokens.dropLast).isSome
  | _ => false

/-- Any directories or any run of bytes, and then characters. A slash alone is no ending. -/
def isEnding : List Token → Bool
  | .treeStart :: .literal _ :: rest => (literals? rest).isSome
  | tokens => (literals? (afterRun (afterTreeStart tokens))).any fun cs => cs ≠ [] && cs ≠ ['/']

/-- Tokens given last first end in an extension. -/
def extensionFromEnd : List Token → Bool
  | .literal c :: rest => c = '.' || (c ≠ '/' && extensionFromEnd rest)
  | _ => false

/-- The token stands for one byte, or the bytes of one character, that are no slash. -/
def Token.isInName : Token → Bool
  | .literal c => c ≠ '/'
  | .set negated ranges => inRanges ranges slash == negated
  | _ => false

/-- One name in any directory, of characters and sets without a slash. -/
def isSpelling : List Token → Bool
  | .treeStart :: rest => !rest.isEmpty && rest.all Token.isInName
  | _ => false

/-- The kind of a pattern. -/
def kind (g : Glob) : Kind :=
  if isName g.tokens then .name
  else if isCharacters g.tokens then .characters
  else if isExtension g.tokens then .extension
  else if isBeginning g.tokens then .beginning
  else if isEnding g.tokens then .ending
  else if extensionFromEnd g.tokens.reverse then .endsInExtension
  else if isSpelling g.tokens then .spelling
  else .general

/-- Patterns of the kind look at the file name of a path or at its extension. -/
def Kind.readsFileName : Kind → Bool
  | .name => true
  | .extension => true
  | .endsInExtension => true
  | _ => false

end Glob

end EntryReport
