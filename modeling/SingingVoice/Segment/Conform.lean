import SingingVoice.Resampling.Basic
import SingingVoice.Resampling.Interleave
import SingingVoice.Segment.Basic
import SingingVoice.Segment.Error

/-!
# Conversion between formats

`Segment.resample` changes the sample rate and keeps the duration, `Segment.respeed` changes the
duration and keeps the rate, and `Segment.conform` brings a segment to a given format. A segment
that is already in the format is left as it is.
-/

namespace SingingVoice.Segment

variable {α : Type} [Scalar α] [Resampler α]

/-- The samples converted by a ratio of rates, channel by channel. -/
def convert (segment : Segment α) (ratio : α) : Except (SegmentError α) (Array α) :=
  let channels := Interleave.split segment.samples segment.format.frameSize
  match Resampler.resampleChannels channels ratio with
  | .ok channels => .ok (Interleave.join channels)
  | .error reason => .error (.resample reason)

/-- The segment at another sample rate, with the same duration. -/
def resample (segment : Segment α) (sampleRate : Nat) : Except (SegmentError α) (Segment α) :=
  if sampleRate = segment.format.sampleRate then .ok segment
  else do
    let ratio : α := Scalar.ofNat sampleRate / Scalar.ofNat segment.format.sampleRate
    let samples ← segment.convert ratio
    return ofSamples { segment.format with sampleRate } samples

/-- The segment played at another speed: its duration is multiplied by the ratio, and the pitch of
what it holds divided by it. -/
def respeed (segment : Segment α) (ratio : α) : Except (SegmentError α) (Segment α) := do
  let samples ← segment.convert ratio
  return ofSamples segment.format samples

/-- The segment in another format: first the layout is changed, then the rate. -/
def conform (segment : Segment α) (format : Format) : Except (SegmentError α) (Segment α) :=
  (segment.setChannels format.channels).resample format.sampleRate

end SingingVoice.Segment
