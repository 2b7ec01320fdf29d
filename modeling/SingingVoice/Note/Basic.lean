import SingingVoice.Scalar

/-!
# Notes

The timeline of a track is a list of notes and rests, each with a duration in milliseconds. A tempo
converts lengths in beats to durations.
-/

namespace SingingVoice

/-- An entry of a timeline. -/
inductive Note (α : Type) where
  /-- Silence. -/
  | rest (duration : α)
  /-- The sample with the alias `name`, sung at a note number. The timing of the sample gives way
  to the values given here. -/
  | sung (name : String) (pitch duration : α) (preutterance overlap : Option α)
deriving BEq, DecidableEq, Repr, Inhabited

namespace Note

variable {α : Type}

/-- The duration in milliseconds. -/
def duration : Note α → α
  | rest duration => duration
  | sung _ _ duration _ _ => duration

/-- Whether the entry is a rest. -/
def isRest : Note α → Bool
  | rest _ => true
  | sung .. => false

/-- The alias of a sung note. -/
def name? : Note α → Option String
  | rest _ => none
  | sung name .. => some name

/-- The note with a preutterance of its own. A rest has none. -/
def withPreutterance (note : Note α) (ms : α) : Note α :=
  match note with
  | rest duration => rest duration
  | sung name pitch duration _ overlap => sung name pitch duration (some ms) overlap

/-- The note with an overlap of its own. A rest has none. -/
def withOverlap (note : Note α) (ms : α) : Note α :=
  match note with
  | rest duration => rest duration
  | sung name pitch duration preutterance _ => sung name pitch duration preutterance (some ms)

/-- The sum of the durations of a timeline. -/
def totalDuration [Scalar α] (notes : List (Note α)) : α :=
  Scalar.sum (notes.map duration)

end Note

/-- A number of beats per minute. -/
structure Tempo (α : Type) where
  bpm : α
deriving BEq, Repr, Inhabited

namespace Tempo

variable {α : Type} [Scalar α]

/-- The tempo where none is given. -/
def standard : Tempo α :=
  ⟨120.0⟩

/-- The duration of a number of beats in milliseconds. -/
def millis (tempo : Tempo α) (beats : α) : α :=
  beats * 60000.0 / tempo.bpm

/-- A rest of a number of beats. -/
def rest (tempo : Tempo α) (beats : α) : Note α :=
  .rest (tempo.millis beats)

/-- A sung note of a number of beats. -/
def sung (tempo : Tempo α) (name : String) (pitch beats : α) : Note α :=
  .sung name pitch (tempo.millis beats) none none

end Tempo

end SingingVoice
