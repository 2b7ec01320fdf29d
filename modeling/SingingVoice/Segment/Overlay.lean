import SingingVoice.Segment.Conform
import SingingVoice.Segment.Draft
import SingingVoice.Word

/-!
# Overlays and mixes

An overlay adds a segment to another at a position, once or repeated back to back; the result is as
long as the base. A mix adds any number of segments from their starts and is as long as the longest.
-/

namespace SingingVoice

/-- How often an overlaid segment is repeated. -/
inductive Repetition where
  /-- A single time. -/
  | once
  /-- So many times, back to back. -/
  | times (count : Nat)
  /-- Back to back until the end of the base. -/
  | loop
deriving DecidableEq, Repr

namespace Repetition

/-- The number of values of a machine word. Positions of counted repetitions are kept in words. -/
def wordSize : Nat :=
  Word.count 64

/-- How many repetitions of a segment of `step` frames start before the end of a base of so many
frames, the first one at `start`. Of an empty segment there are none. -/
def reach (start step frames : Nat) : Nat :=
  (frames - start + step - 1) / step

/-- The frames at which the repetitions of a segment of `step` frames start, the first one at
`start`, in a base of so many frames. Repetitions past the end of the base are left out, but where
the positions of counted ones wrap around, all of them are listed. -/
def positions (repetition : Repetition) (start step frames : Nat) : List Nat :=
  match repetition with
  | once => [start]
  | times count =>
    if start + count * step ≤ wordSize then
      (List.range (min count (reach start step frames))).map fun i => start + i * step
    else (List.range count).map fun i => (start + i * step) % wordSize
  | loop => (List.range (reach start step frames)).map fun i => start + i * step

end Repetition

namespace Draft

variable {α : Type} [Scalar α]

/-- Adds a segment at each of the given frames. -/
def mixAll (draft : Draft α) (positions : List Nat) (segment : Segment α) : Draft α :=
  positions.foldl (fun draft position => draft.mixAt position segment) draft

end Draft

namespace Segment

variable {α : Type} [Scalar α] [Resampler α]

/-- The base with another segment added at a position in milliseconds, repeated as asked. The other
segment is first brought to the format of the base. -/
def overlayRepeat (base other : Segment α) (position : α) (repetition : Repetition) :
    Except (SegmentError α) (Segment α) := do
  let other ← other.conform base.format
  let start := base.format.framesIn position
  let positions := repetition.positions start other.frames base.frames
  return (base.draft.mixAll positions other).freeze

/-- The base with another segment added once at a position in milliseconds. -/
def overlay (base other : Segment α) (position : α) : Except (SegmentError α) (Segment α) :=
  base.overlayRepeat other position .once

/-- The sum of segments, each brought to the given format, as long as the longest of them. -/
def mix (format : Format) (tracks : List (Segment α)) :
    Except (SegmentError α) (Segment α) := do
  let tracks ← tracks.mapM (·.conform format)
  let frames := tracks.foldl (fun longest track => max longest track.frames) 0
  let silence := (silentFrames format frames).draft
  return (tracks.foldl (fun draft track => draft.mixAt 0 track) silence).freeze

end Segment

end SingingVoice
