import SingingVoice.Segment.Conform
import SingingVoice.Segment.Fade

/-!
# Joining segments

`Segment.append` puts one segment after another. With a crossfade, the end of the first fades out
while the beginning of the second fades in, and the two are added.
-/

namespace SingingVoice.Segment

variable {α : Type} [Scalar α]

/-- One segment directly after another of the same format. -/
def concat (first second : Segment α) : Segment α :=
  ofSamples first.format (first.samples ++ second.samples)

/-- Two segments of one format joined so that the last `count` frames of the first, fading out, are
added to the first `count` frames of the second, fading in. -/
def crossfade (first second : Segment α) (count : Nat) : Except (SegmentError α) (Segment α) := do
  let split := first.frames - count
  let fadeOut ← (first.sliceFrames split first.frames).fade 0.0 silenceGain none none
  let fadeIn ← (second.sliceFrames 0 count).fade silenceGain 0.0 none none
  let size := first.format.frameSize
  let head := first.samples.extract 0 (split * size)
  let blend := Array.zipWith (· + ·) fadeOut.samples fadeIn.samples
  let tail := second.samples.extract (count * size) second.samples.size
  return ofSamples first.format (head ++ blend ++ tail)

variable [Resampler α]

/-- One segment after another, which is first brought to the format of the one before. A positive
crossfade overlaps the two by so many milliseconds; it must not be longer than either of them,
measured in whole milliseconds. -/
def append (first second : Segment α) (ms : α) : Except (SegmentError α) (Segment α) := do
  let second ← second.conform first.format
  if ms ≤ 0.0 then return first.concat second
  else if Scalar.ofNat first.length < ms then throw (.crossfadeTooLong ms first.length)
  else if Scalar.ofNat second.length < ms then throw (.crossfadeTooLong ms second.length)
  else
    let count := min (min (first.format.framesIn ms) first.frames) second.frames
    if count = 0 then return first.concat second
    else first.crossfade second count

end SingingVoice.Segment
