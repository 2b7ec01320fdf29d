import SingingVoice.Segment.Basic
import SingingVoice.Segment.Error

/-!
# Fades

A fade multiplies every frame by a factor that follows a ramp in decibels. The ramp runs over a
window of time; frames before it keep the first gain, frames after it the second. Fades only
attenuate.
-/

namespace SingingVoice

/-- A ramp of gains in decibels over the frames from `start` up to `stop`. -/
structure Ramp (α : Type) where
  /-- The gain before the window and at its start. -/
  fromGain : α
  /-- The gain after the window. -/
  toGain : α
  /-- The first frame of the window. -/
  start : Nat
  /-- The frame after the window. -/
  stop : Nat

namespace Ramp

variable {α : Type} [Scalar α]

/-- The factor that a frame is multiplied by. -/
def factor (ramp : Ramp α) (frame : Nat) : α :=
  if frame < ramp.start then Segment.amplitude ramp.fromGain
  else if ramp.stop ≤ frame then Segment.amplitude ramp.toGain
  else
    let width : α := Scalar.ofNat (max (ramp.stop - ramp.start) 1)
    let progress := Scalar.ofNat (frame - ramp.start) / width
    Segment.amplitude (ramp.fromGain + (ramp.toGain - ramp.fromGain) * progress)

end Ramp

namespace Segment

variable {α : Type} [Scalar α]

/-- The gain that counts as silence at the quiet end of a crossfade. -/
def silenceGain : α :=
  -120.0

/-- The segment faded from one gain to another between two times, which default to its ends. -/
def fade (segment : Segment α) (fromGain toGain : α) (start? stop? : Option α) :
    Except (SegmentError α) (Segment α) :=
  if (0.0 : α) < fromGain then .error (.positiveGain fromGain)
  else if (0.0 : α) < toGain then .error (.positiveGain toGain)
  else
    let start := start?.getD 0.0
    let stop := stop?.getD segment.duration
    if stop ≤ start then .error (.emptyWindow start stop)
    else if fromGain == 0.0 && toGain == 0.0 then .ok segment
    else
      let ramp : Ramp α :=
        { fromGain, toGain
          start := min (segment.format.framesIn start) segment.frames
          stop := min (segment.format.framesIn stop) segment.frames }
      .ok (segment.mapFrames fun frame x => x * ramp.factor frame)

end Segment

end SingingVoice
