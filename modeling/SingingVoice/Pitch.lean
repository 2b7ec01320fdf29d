import SingingVoice.Decimal.Binary64
import SingingVoice.Voicebank.Error

/-!
# Pitches

A pitch is a frequency. Pitches are also named by note numbers, in which a semitone is one and the
concert pitch A4 of 440 Hz is 69, and by note names such as `A4`, `C#5` or `Gb6`.
-/

namespace SingingVoice

/-- A musical pitch. -/
structure Pitch (α : Type) where
  /-- The frequency in hertz. -/
  frequency : α
deriving BEq, Repr

namespace Pitch

/-- The letter, the accidental and the octave of a note name. -/
structure Name where
  /-- Semitones above the C of the octave. -/
  letter : Int
  /-- Semitones by which accidentals raise the letter. -/
  accidental : Int
  /-- The octave, from -1 to 9. -/
  octave : Int
deriving DecidableEq, Repr

namespace Name

/-- The semitones of a letter above C. -/
def letter? : Char → Option Int
  | 'C' | 'c' => some 0
  | 'D' | 'd' => some 2
  | 'E' | 'e' => some 4
  | 'F' | 'f' => some 5
  | 'G' | 'g' => some 7
  | 'A' | 'a' => some 9
  | 'B' | 'b' => some 11
  | _ => none

/-- Splits up to two accidentals of one kind off the front, and tells what they add. -/
def splitAccidental : List Char → Int × List Char
  | '#' :: '#' :: rest => (2, rest)
  | '#' :: rest => (1, rest)
  | 'b' :: 'b' :: rest => (-2, rest)
  | 'b' :: rest => (-1, rest)
  | rest => (0, rest)

/-- The octave written by a single digit or by `-1`. -/
def octave? : List Char → Option Int
  | [c] => if Decimal.isDigit c then some (c.toNat - '0'.toNat : Nat) else none
  | cs => if cs = ['-', '1'] then some (-1) else none

/-- Reads a note name. -/
def parse? : List Char → Option Name
  | [] => none
  | first :: rest => do
    let letter ← letter? first
    let (accidental, rest) := splitAccidental rest
    let octave ← octave? rest
    return { letter, accidental, octave }

/-- The note number. The octave -1 starts at zero. -/
def note (name : Name) : Int :=
  name.letter + name.accidental + (name.octave + 1) * 12

end Name

variable {α : Type} [Scalar α]

/-- The frequency of the note A4. -/
def concertPitch : α :=
  440.0

/-- The number of the note A4. -/
def concertNote : α :=
  69.0

/-- The pitch of a note number, which need not be whole. -/
def ofNote (note : α) : Pitch α :=
  ⟨Scalar.pow 2.0 ((note - concertNote) / 12.0) * concertPitch⟩

/-- The pitch of a whole note number. -/
def ofNoteNumber (note : Int) : Pitch α :=
  ofNote (Scalar.ofInt note)

/-- Reads a note name. -/
def parse (text : String) : Except (VoicebankError α) (Pitch α) :=
  match Name.parse? text.toList with
  | some name => .ok (ofNoteNumber name.note)
  | none => .error (.parse 0 text .notPitch)

/-- The note number of a pitch, in general not whole. -/
def note (pitch : Pitch α) : α :=
  concertNote + 12.0 * Scalar.log2 (pitch.frequency / concertPitch)

/-- The number of the nearest note, cut to the range of 32-bit integers. -/
def noteNumber (pitch : Pitch α) : Int :=
  let bound : Int := Word.count 31
  Scalar.toIntIn (-bound) (bound - 1) (Scalar.round pitch.note)

/-- The distance to another pitch in semitones. -/
def semitonesTo (pitch other : Pitch α) : α :=
  other.note - pitch.note

/-- A pitch in words: its frequency with two places. -/
def text (pitch : Pitch Double) : String :=
  (Binary64.ofBits pitch.frequency.bits).fixedPlaces 2 ++ "Hz"

end Pitch

end SingingVoice
