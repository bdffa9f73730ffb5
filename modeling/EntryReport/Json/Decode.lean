import EntryReport.Json.Diagnosis

/-!
# Decoding documents

A `Decoder` reads a value of a type off a document and reports the first problem in the order of
the text. `Decoder.run` decodes a whole text and tells the fault behind the problem,
`Decoder.ofJson` decodes a value that is at hand.

* `Decoder.text`, `.flag`, `.list`, `.optional`: the decoders of the simple types;
* `Doc.value`: any JSON value, nested no deeper than there is room for;
* `Record`: a type with named fields, read from an object or from an array of the fields in their
  order. Members with other names are skipped, whatever they hold, as long as it is well formed.
-/

namespace EntryReport.Json

/-- Reads a value off a document. -/
abbrev Decoder (α : Type) := Doc → Except Problem α

/-- The number of arrays and objects that may be nested. -/
def nestingLimit : Nat := 127

/-! ## Skipping -/

mutual
/-- The value was read to its end. -/
def Doc.wellFormed : Doc → Bool
  | .fault => false
  | .arr items => items.wellFormed
  | .obj members => members.wellFormed
  | _ => true

/-- The items were read to the end of the array. -/
def Items.wellFormed : Items → Bool
  | .closed => true
  | .broken => false
  | .item value rest => value.wellFormed && rest.wellFormed

/-- The members were read to the end of the object. -/
def Members.wellFormed : Members → Bool
  | .closed => true
  | .broken => false
  | .member _ value rest => value.wellFormed && rest.wellFormed
end

/-! ## Simple types -/

/-- The text cannot be read any more. -/
def brokenOff {α : Type} : Except Problem α := reject (.brokenOff .value)

/-- What stands there, if it can be told. -/
def Doc.found? : Doc → Option Found
  | .null => some .null
  | .bool b => some (.bool b)
  | .number n => n.map .number
  | .string s => s.map .string
  | .arr _ => some .sequence
  | .obj _ => some .map
  | .fault => none

/-- Something else than was expected. -/
def Doc.mismatch {α : Type} (d : Doc) (expected : String) : Except Problem α :=
  match d, d.found? with
  | _, some found => reject (.unfit (.wrongType found expected))
  | .fault, none => brokenOff
  | _, none => reject .unreadable

/-- A text. -/
def Decoder.text : Decoder String
  | .string (some s) => .ok s
  | d => d.mismatch "a string"

/-- A truth value. -/
def Decoder.flag : Decoder Bool
  | .bool b => .ok b
  | d => d.mismatch "a boolean"

/-- A value, or nothing where the document says null. -/
def Decoder.optional {α : Type} (decode : Decoder α) : Decoder (Option α)
  | .null => .ok none
  | d => (decode d).map some

/-- Every item, in order; `index` counts them. -/
def Items.decode {α : Type} (decode : Decoder α) (index : Nat) : Items → Except Problem (List α)
  | .closed => .ok []
  | .broken => brokenOff
  | .item value rest => do
    return (← within (.item index) (decode value)) :: (← rest.decode decode (index + 1))

/-- A list. -/
def Decoder.list {α : Type} (decode : Decoder α) : Decoder (List α)
  | .arr items => items.decode decode 0
  | d => d.mismatch "a sequence"

/-! ## Any value -/

mutual
/-- The value, with `room` more levels to nest. -/
def Doc.value (room : Nat) : Doc → Except Problem Json
  | .null => .ok .null
  | .bool b => .ok (.bool b)
  | .number (some n) => .ok (.num n)
  | .number none => reject .unreadable
  | .string (some s) => .ok (.str s)
  | .string none => reject .unreadable
  | .arr items => if room = 0 then reject .tooDeep else (items.values (room - 1) 0).map .arr
  | .obj members =>
    if room = 0 then reject .tooDeep else (members.values (room - 1) 0 []).map .obj
  | .fault => brokenOff

/-- The values of the items; `index` counts them. -/
def Items.values (room index : Nat) : Items → Except Problem (List Json)
  | .closed => .ok []
  | .broken => brokenOff
  | .item value rest => do
    return (← within (.item index) (value.value room)) :: (← rest.values room (index + 1))

/-- The members read so far with those that follow: the last of two with one key stays. `index`
counts them. -/
def Members.values (room index : Nat) :
    Members → List (String × Json) → Except Problem (List (String × Json))
  | .closed, done => .ok done
  | .broken, _ => brokenOff
  | .member none _ _, _ => within (.member index) (reject .unreadableKey)
  | .member (some key) value rest, done => do
    let value ← within (.member index) (value.value room)
    rest.values room (index + 1) (insertMember key value done)
end

/-! ## Records -/

/-- How a type with named fields is read. The fields that were met are collected in a draft. -/
structure Record (δ α : Type) where
  /-- The type, in messages. -/
  label : String
  /-- The fields in their order. -/
  fields : List String
  /-- A draft without fields. -/
  draft : δ
  /-- A field with the value that stands there. -/
  put : δ → String → Doc → Except Problem δ
  /-- The value of a draft; `fault` says what a field without a value amounts to. -/
  build : (fault : String → Fault) → δ → Except Fault α

/-- A field is given once. -/
def Decoder.once {α : Type} (name : String) (slot : Option α) (decode : Decoder α) (d : Doc) :
    Except Problem (Option α) :=
  if slot.isSome then reject (.repeated (.duplicateField name)) else (decode d).map some

namespace Record

variable {δ α : Type} (r : Record δ α)

/-- The draft with the fields among the members; `index` counts them. -/
def members (index : Nat) (draft : δ) : Members → Except Problem δ
  | .closed => .ok draft
  | .broken => brokenOff
  | .member none _ _ => within (.member index) (reject .unreadableKey)
  | .member (some key) value rest =>
    if key ∈ r.fields then do
      members (index + 1) (← within (.member index) (r.put draft key value)) rest
    else if value.wellFormed then members (index + 1) draft rest
    else reject (.brokenOff .skipping)

/-- The draft with the items as the fields of the given names; `index` counts them. -/
def items (index : Nat) (draft : δ) : List String → Items → Except Problem δ
  | _, .closed => .ok draft
  | [], _ => reject (.overlong index)
  | _, .broken => brokenOff
  | name :: names, .item value rest => do
    items (index + 1) (← within (.item index) (r.put draft name value)) names rest

/-- An array that ends before a field which has to be there. -/
def tooShort (name : String) : Fault :=
  .tooShort (r.fields.idxOf name)
    (r.label ++ " with " ++ toString r.fields.length ++ " elements")

/-- The value of a draft, from an array or object that has come to its end. -/
def finish (fault : String → Fault) (draft : δ) : Except Problem α :=
  (r.build fault draft).mapError fun fault => ⟨[], .incomplete fault⟩

/-- The record, with `room` more levels to nest. -/
def decode (room : Nat) : Decoder α
  | .obj ms =>
    if room = 0 then reject .tooDeep
    else do r.finish .missingField (← r.members 0 r.draft ms)
  | .arr is =>
    if room = 0 then reject .tooDeep
    else do r.finish r.tooShort (← r.items 0 r.draft r.fields is)
  | d => d.mismatch r.label

end Record

/-! ## Whole texts -/

/-- Decodes a text; nothing but blanks may follow the value. -/
def Decoder.run {α : Type} (decode : Decoder α) (s : String) : Except TextFault α :=
  let document := Document.ofText s
  let found := do
    let a ← decode document.root
    if document.closed then return a else brokenOff
  found.mapError (·.diagnose s)

/-- Decodes a value. -/
def Decoder.ofJson {α : Type} (decode : Decoder α) (value : Json) : Except Problem α :=
  decode (Doc.ofJson value)

/-- The value in a text, nested to any depth. -/
def parse (s : String) : Except TextFault Json :=
  Decoder.run (Doc.value s.length) s

end EntryReport.Json
