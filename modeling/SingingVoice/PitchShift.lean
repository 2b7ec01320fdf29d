import SingingVoice.Stretch

/-!
# Pitch shifting

A segment is played faster or slower by a ratio of frequencies, which changes its pitch and its
length, and is then stretched back to the length it had.
-/

namespace SingingVoice.Segment

variable {α : Type} [Scalar α] [Resampler α]

/-- The segment shifted by a number of semitones, with the same duration. -/
def pitchShift (segment : Segment α) (steps : α) (mode : StretchMode) :
    Except (SegmentError α) (Segment α) :=
  if steps == 0.0 || segment.isEmpty then .ok segment
  else do
    let ratio : α := Scalar.pow 2.0 (steps / 12.0)
    let shifted ← segment.respeed (1.0 / ratio)
    return shifted.stretch segment.duration mode

end SingingVoice.Segment
