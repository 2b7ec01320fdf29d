import SingingVoice.Format

/-!
# Segments

A `Segment` is a stretch of audio: samples in a format, frame after frame. Every operation returns
a new segment. A segment is well formed when its samples are whole frames (`Segment.WholeFrames`);
`Segment.ofSamples` drops a partial frame at the end, and the operations of this library keep the
property. Positions are in milliseconds or in frames, and are cut to the segment.
-/

namespace SingingVoice

/-- A stretch of audio. -/
structure Segment (α : Type) where
  /-- The samples, frame after frame. -/
  samples : Array α
  /-- The layout of the samples. -/
  format : Format
deriving BEq, Repr, Inhabited

namespace Segment

variable {α : Type} [Scalar α]

/-- The number of frames, a partial one not counted. -/
def frames (segment : Segment α) : Nat :=
  segment.samples.size / segment.format.frameSize

/-- The samples are whole frames. -/
def WholeFrames (segment : Segment α) : Prop :=
  segment.samples.size = segment.frames * segment.format.frameSize

/-- The segment of the given samples, without a partial frame at the end. -/
def ofSamples (format : Format) (samples : Array α) : Segment α :=
  ⟨samples.extract 0 (samples.size / format.frameSize * format.frameSize), format⟩

/-- A number of silent frames. -/
def silentFrames (format : Format) (frames : Nat) : Segment α :=
  ⟨Array.replicate (frames * format.frameSize) 0.0, format⟩

/-- Silence that lasts a number of milliseconds. -/
def silence (format : Format) (ms : α) : Segment α :=
  silentFrames format (format.framesIn ms)

/-- The segment without samples. -/
def empty (format : Format) : Segment α :=
  ⟨#[], format⟩

/-- Whether there are no samples. -/
def isEmpty (segment : Segment α) : Bool :=
  segment.samples.isEmpty

/-- The exact duration in milliseconds. -/
def duration (segment : Segment α) : α :=
  segment.format.millis segment.frames

/-- The duration rounded to whole milliseconds. -/
def length (segment : Segment α) : Nat :=
  Scalar.toNat (Scalar.round segment.duration)

/-- The frames from `start` up to `stop`, both cut to the segment. -/
def sliceFrames (segment : Segment α) (start stop : Nat) : Segment α :=
  let stop := min stop segment.frames
  let start := min start stop
  let size := segment.format.frameSize
  ⟨segment.samples.extract (start * size) (stop * size), segment.format⟩

/-- The frames from `start` to `stop` milliseconds; an absent bound is the segment's own. -/
def slice (segment : Segment α) (start? stop? : Option α) : Segment α :=
  segment.sliceFrames (start?.elim 0 segment.format.framesIn)
    (stop?.elim segment.frames segment.format.framesIn)

/-- Every sample passed through a function. -/
def map (f : α → α) (segment : Segment α) : Segment α :=
  { segment with samples := segment.samples.map f }

/-- Every sample passed through a function that also sees the index of its frame. -/
def mapFrames (f : Nat → α → α) (segment : Segment α) : Segment α :=
  let size := segment.format.frameSize
  { segment with samples := segment.samples.mapIdx fun i x => f (i / size) x }

/-- The amplitude factor of a gain in decibels. -/
def amplitude (gain : α) : α :=
  Scalar.pow 10.0 (gain / 20.0)

/-- The segment with a constant gain in decibels. -/
def gain (segment : Segment α) (gain : α) : Segment α :=
  let factor := amplitude gain
  segment.map (· * factor)

/-- The segment in another layout. Stereo becomes mono by averaging the two samples of a frame, and
mono becomes stereo by doubling each sample. -/
def setChannels (segment : Segment α) (channels : Channels) : Segment α :=
  let format := segment.format.withChannels channels
  match segment.format.channels, channels with
  | .stereo, .mono =>
    let averages := Array.ofFn fun i : Fin (segment.samples.size / 2) =>
      have := i.isLt
      (segment.samples[2 * i.val] + segment.samples[2 * i.val + 1]) / 2.0
    ⟨averages, format⟩
  | .mono, .stereo => ⟨segment.samples.flatMap fun x => #[x, x], format⟩
  | _, _ => segment

end Segment

end SingingVoice
