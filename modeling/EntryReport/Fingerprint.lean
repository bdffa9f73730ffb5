import EntryReport.Files.FileSystem
import EntryReport.Fingerprint.Sha256

/-!
# Telling whether the input changed

The fingerprint of files is the digest of one stream of bytes: for each file its path, a zero, its
content and a zero. A file that cannot be read stands there with its path alone.

A `ChangeDetector` keeps the fingerprint of the files that it was last asked about, so that a
report is written anew only if its input is another one. One that is switched off takes every
input for a new one.
-/

namespace EntryReport

open Files (FileSystem)

namespace Fingerprint

/-- A file by its path, with its bytes if it can be read. -/
structure Input where
  path : String
  content : Option (List UInt8)
deriving DecidableEq, Repr

/-- The bytes of a file in the stream. -/
def Input.stream (i : Input) : List UInt8 :=
  i.path.toUTF8.data.toList ++ 0 :: (i.content.getD [] ++ [0])

/-- The bytes that stand for files. -/
def stream (inputs : List Input) : List UInt8 :=
  inputs.flatMap Input.stream

theorem stream_append (a b : List Input) : stream (a ++ b) = stream a ++ stream b :=
  List.flatMap_append

/-- What stands at a path. -/
def input (fs : FileSystem) (path : String) : Input :=
  ⟨path, (fs.readBytes path).toOption⟩

/-- The fingerprint of the files at the paths. -/
def ofFiles (fs : FileSystem) (paths : List String) : String :=
  Sha256.hash (stream (paths.map (input fs)))

end Fingerprint

/-- The fingerprint of the input that was last asked about. -/
structure ChangeDetector where
  enabled : Bool
  last : Option String
deriving DecidableEq, Repr

namespace ChangeDetector

/-- Nothing was asked about. -/
def new : ChangeDetector := ⟨true, none⟩

/-- Takes every input for a new one. -/
def disabled : ChangeDetector := ⟨false, none⟩

/-- Whether the files differ from those that were last asked about, which they become. -/
def check (d : ChangeDetector) (fs : FileSystem) (paths : List String) : ChangeDetector × Bool :=
  let current := Fingerprint.ofFiles fs paths
  if d.enabled then
    if d.last = some current then (d, false) else ({ d with last := some current }, true)
  else (d, true)

/-- Files that were just asked about are no new input. -/
theorem check_check {d : ChangeDetector} (h : d.enabled = true) (fs : FileSystem)
    (paths : List String) : ((d.check fs paths).1.check fs paths).2 = false := by
  by_cases hl : d.last = some (Fingerprint.ofFiles fs paths) <;> simp [check, h, hl]

end ChangeDetector

end EntryReport
