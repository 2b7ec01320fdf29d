import SingingVoice.Path
import SingingVoice.Segment.Basic
import SingingVoice.Text.Line
import SingingVoice.Voicebank.Error

/-!
# Samples

A sample names a stretch of recorded audio by an alias and says how the audio falls into parts:

    |--offset--|--consonant--|------vowel------|--cutoff--|

A negative cutoff is measured forward from the start of the vowel instead. All times are in
milliseconds. `Sample.parse` reads the record of a sample,

    file=alias,offset,consonant,cutoff,preutterance,overlap

and `Sample.slice` cuts audio into the consonant and the vowel.
-/

namespace SingingVoice

/-- A named stretch of recorded audio and its parts. -/
structure Sample (α : Type) where
  /-- The audio file, seen from the directory of the voicebank. -/
  file : String
  /-- The name of the syllable that is sung. -/
  name : String
  /-- The time at the start of the file that is not used. -/
  offset : α
  /-- The time after the offset that is never stretched. -/
  consonant : α
  /-- The time at the end of the file that is not used, or minus the length of the vowel. -/
  cutoff : α
  /-- How long before its note the sample starts. -/
  preutterance : α
  /-- How far the sample blends into the note before. -/
  overlap : α
deriving BEq, Repr, Inhabited

namespace Sample

variable {α : Type}

/-- Reads the next number of a record; the fields that are left come with it. -/
def parseField [Numeral α] (field : Sample.Field) :
    List (List Char) → Except EntryFault (α × List (List Char))
  | [] => .error (.missing field)
  | part :: parts =>
    let part := Line.trim part
    match Numeral.parse? part with
    | some value => .ok (value, parts)
    | none => .error (.notNumber field (String.ofList part))

/-- Reads the record of a sample. A blank alias stands for the name of the file without its
extension. -/
def parseEntry [Numeral α] (entry : List Char) : Except EntryFault (Sample α) := do
  let line := Line.dropEndWhile (fun c => c = '\r' || c = '\n') entry
  let some (file, value) := Line.splitOnce? '=' line | throw .noEquals
  let file := String.ofList (Line.trim file)
  if file.isEmpty then throw .emptyFile
  let parts := Line.splitOn ',' value
  let given := String.ofList (Line.trim (parts.headD []))
  let name := if given.isEmpty then (Path.stem? file).getD file else given
  let (offset, parts) ← parseField .offset parts.tail
  let (consonant, parts) ← parseField .consonant parts
  let (cutoff, parts) ← parseField .cutoff parts
  let (preutterance, parts) ← parseField .preutterance parts
  let (overlap, parts) ← parseField .overlap parts
  if !parts.isEmpty then throw .tooManyFields
  return { file, name, offset, consonant, cutoff, preutterance, overlap }

/-- Reads the record of a sample. Errors carry line zero and the whole record. -/
def parse [Numeral α] (entry : String) : Except (VoicebankError α) (Sample α) :=
  match parseEntry entry.toList with
  | .ok sample => .ok sample
  | .error fault => .error (.parse 0 entry fault)

/-- The record of a sample. -/
def entry [Numeral α] (sample : Sample α) : String :=
  sample.file ++ "=" ++ ",".intercalate
    [sample.name, Numeral.text sample.offset, Numeral.text sample.consonant,
      Numeral.text sample.cutoff, Numeral.text sample.preutterance, Numeral.text sample.overlap]

variable [Scalar α]

/-- The start and the end of the vowel in audio that lasts `length` milliseconds. -/
def vowelRegion (sample : Sample α) (length : α) : α × α :=
  let start := sample.offset + sample.consonant
  let stop :=
    if sample.cutoff < (0.0 : α) then start + Scalar.abs sample.cutoff else length - sample.cutoff
  (start, stop)

/-- Cuts audio into the consonant and the vowel. The vowel is clipped to the audio, and something
must be left of it. -/
def slice (sample : Sample α) (audio : Segment α) :
    Except (VoicebankError α) (Segment α × Segment α) :=
  if sample.offset < (0.0 : α) then
    .error (.timing sample.name (.negativeOffset sample.offset))
  else if sample.consonant < (0.0 : α) then
    .error (.timing sample.name (.negativeConsonant sample.consonant))
  else
    let length : α := Scalar.ofNat audio.length
    let (start, stop) := sample.vowelRegion length
    let start := Scalar.min start length
    let stop := Scalar.min stop length
    if stop ≤ start then .error (.timing sample.name (.emptyVowel start stop audio.length))
    else .ok (audio.slice (some sample.offset) (some start), audio.slice (some start) (some stop))

/-- Whether the overlap is longer than the preutterance, which makes a sample blend past its own
note. -/
def overlapExceedsPreutterance (sample : Sample α) : Bool :=
  sample.preutterance < sample.overlap

end Sample

end SingingVoice
