import SingingVoice.Note.Basic
import SingingVoice.Pitch
import SingingVoice.Value.Basic

/-!
# Notes as values

In documents a note is a map. Its entry `kind` says whether it is a rest or sung, and the other
entries are its fields; entries that are no fields are ignored. `Note.toValue` gives the map of a
note, and `Note.ofValue` reads maps and also the short form of a list, which holds the kind and then
the fields in their order. A pitch is a note number or the name of a note.
-/

namespace SingingVoice

/-- Why a value is not what it should be. -/
inductive DecodeFault (α : Type) where
  /-- It does not have the form. -/
  | mismatch
  /-- A text in it is refused. -/
  | entry (error : VoicebankError α)

namespace Note

/-- The kinds of notes. -/
inductive Kind where
  | rest
  | sung
deriving DecidableEq, Repr

namespace Kind

/-- The name of a kind in documents. -/
def name : Kind → String
  | rest => "rest"
  | sung => "sung"

/-- The kind with a name. -/
def ofName? (name : String) : Option Kind :=
  [rest, sung].find? fun kind => kind.name = name

end Kind

/-- The fields of a note. -/
inductive Field where
  | duration
  | pitch
  | name
  | preutterance
  | overlap
deriving DecidableEq, Repr

namespace Field

/-- The name of a field in documents. -/
def key : Field → String
  | duration => "duration_ms"
  | pitch => "pitch"
  | name => "alias"
  | preutterance => "preutterance"
  | overlap => "overlap"

/-- The fields of a kind of note, in their order. -/
def ofKind : Kind → List Field
  | .rest => [duration]
  | .sung => [duration, pitch, name, preutterance, overlap]

end Field

/-- The entry that tells the kind of a note. -/
def kindKey : String :=
  "kind"

variable {α : Type} [Numeral α]

/-- The entry of a field that may be absent. -/
def optionalEntry (field : Field) (value : Option α) : List (String × Value) :=
  (value.map fun x => (field.key, Value.ofNumeral x)).toList

/-- The map of a note. -/
def toValue : Note α → Value
  | rest duration =>
    .record [(kindKey, .text Kind.rest.name), (Field.duration.key, .ofNumeral duration)]
  | sung name pitch duration preutterance overlap =>
    .record ([(kindKey, .text Kind.sung.name), (Field.duration.key, .ofNumeral duration),
      (Field.pitch.key, .ofNumeral pitch), (Field.name.key, .text name)] ++
      optionalEntry .preutterance preutterance ++ optionalEntry .overlap overlap)

/-- The fields that have been read so far. -/
structure Fields (α : Type) where
  duration : Option α := none
  pitch : Option α := none
  name : Option String := none
  preutterance : Option (Option α) := none
  overlap : Option (Option α) := none

namespace Fields

/-- Whether a field has been read. -/
def has (fields : Fields α) : Field → Bool
  | .duration => fields.duration.isSome
  | .pitch => fields.pitch.isSome
  | .name => fields.name.isSome
  | .preutterance => fields.preutterance.isSome
  | .overlap => fields.overlap.isSome

/-- Refuses a value that could not be read. -/
def expect {β : Type} : Option β → Except (DecodeFault α) β
  | some value => .ok value
  | none => .error .mismatch

/-- A number or nothing. -/
def optional? : Value → Option (Option α)
  | .null => some none
  | value => value.numeral?.map some

/-- A note number, or the number of the note with a name. -/
def pitchOf [Scalar α] : Value → Except (DecodeFault α) α
  | .text string =>
    match Pitch.parse string with
    | .ok pitch => .ok (Scalar.ofInt pitch.noteNumber)
    | .error error => .error (.entry error)
  | value => expect value.numeral?

/-- Reads a field, which must not have been read before. -/
def read [Scalar α] (fields : Fields α) (field : Field) (value : Value) :
    Except (DecodeFault α) (Fields α) := do
  if fields.has field then throw .mismatch
  match field with
  | .duration => return { fields with duration := some (← expect value.numeral?) }
  | .pitch => return { fields with pitch := some (← pitchOf value) }
  | .name => return { fields with name := some (← expect value.text?) }
  | .preutterance => return { fields with preutterance := some (← expect (optional? value)) }
  | .overlap => return { fields with overlap := some (← expect (optional? value)) }

/-- Reads values for fields, in order. -/
def readAll [Scalar α] (fields : Fields α) :
    List (Field × Value) → Except (DecodeFault α) (Fields α)
  | [] => .ok fields
  | (field, value) :: others => do (← fields.read field value).readAll others

/-- The note that the fields make. -/
def note? (fields : Fields α) : Kind → Option (Note α)
  | .rest => fields.duration.map .rest
  | .sung => do
    return .sung (← fields.name) (← fields.pitch) (← fields.duration)
      (fields.preutterance.getD none) (fields.overlap.getD none)

end Fields

/-- The field that a key stands for: a name, or the place among the fields. Other texts and places
stand for none, and no other value is a key. -/
def fieldOf? (fields : List Field) : Value → Option (Option Field)
  | .text string => some (fields.find? fun field => field.key = string)
  | value => value.place?.map fun place => fields[place]?

/-- Reads the entries of a note of a known kind. -/
def ofEntries [Scalar α] (kind : Kind) (fields : Fields α) :
    List (Value × Value) → Except (DecodeFault α) (Note α)
  | [] => Fields.expect (fields.note? kind)
  | (key, value) :: others => do
    match ← Fields.expect (fieldOf? (Field.ofKind kind) key) with
    | some field => ofEntries kind (← fields.read field value) others
    | none => ofEntries kind fields others

/-- The kind that a value names. -/
def kindOf (value : Value) : Except (DecodeFault α) Kind :=
  Fields.expect (value.text?.bind Kind.ofName?)

/-- Whether a key is the one of the kind. -/
def isKindKey (key : Value) : Bool :=
  key.text? = some kindKey

/-- Reads a note. -/
def ofValue [Scalar α] : Value → Except (DecodeFault α) (Note α)
  | .map entries =>
    match entries.filter fun (key, _) => isKindKey key with
    | [(_, value)] => do
      ofEntries (← kindOf value) {} (entries.filter fun (key, _) => !isKindKey key)
    | _ => .error .mismatch
  | .list (value :: values) => do
    let kind ← kindOf value
    let fields := Field.ofKind kind
    let read ← Fields.readAll {} (fields.zip values)
    let note ← Fields.expect (read.note? kind)
    if fields.length < values.length then throw .mismatch
    return note
  | _ => .error .mismatch

/-- Reads a list of notes. -/
def listOfValues [Scalar α] : List Value → Except (DecodeFault α) (List (Note α))
  | [] => .ok []
  | value :: values => do
    let note ← ofValue value
    return note :: (← listOfValues values)

end Note

end SingingVoice
