import SingingVoice.Scalar

/-!
# Formats

How the samples of a segment are laid out in time: a sample rate and a channel layout. A frame is
one sample per channel. `Format.framesIn` and `Format.millis` convert between durations in
milliseconds and counts of frames.
-/

namespace SingingVoice

/-- A channel layout. -/
inductive Channels where
  | mono
  | stereo
deriving DecidableEq, Repr, Inhabited

namespace Channels

/-- The number of samples in a frame. -/
def count : Channels → Nat
  | mono => 1
  | stereo => 2

/-- The layout with the given number of channels, if there is one. -/
def ofCount? (count : Nat) : Option Channels :=
  if count = 1 then some mono else if count = 2 then some stereo else none

theorem count_pos (channels : Channels) : 0 < channels.count := by
  cases channels <;> decide

theorem count_le (channels : Channels) : channels.count ≤ 2 := by
  cases channels <;> decide

/-- Every layout is the one with its number of channels. -/
theorem ofCount?_count (channels : Channels) : ofCount? channels.count = some channels := by
  cases channels <;> rfl

end Channels

/-- The layout of samples in time. Samples of a stereo format alternate between the channels. -/
structure Format where
  /-- Frames per second. -/
  sampleRate : Nat
  /-- The channels of a frame. -/
  channels : Channels
deriving DecidableEq, Repr, Inhabited

namespace Format

variable {α : Type} [Scalar α]

/-- The format with one channel and the given sample rate. -/
def mono (sampleRate : Nat) : Format :=
  ⟨sampleRate, .mono⟩

/-- The number of samples in a frame. -/
def frameSize (format : Format) : Nat :=
  format.channels.count

theorem frameSize_pos (format : Format) : 0 < format.frameSize :=
  format.channels.count_pos

theorem frameSize_le (format : Format) : format.frameSize ≤ 2 :=
  format.channels.count_le

/-- The format with the same sample rate and another layout. -/
def withChannels (format : Format) (channels : Channels) : Format :=
  { format with channels }

/-- The number of frames that a duration in milliseconds lasts, rounded to the nearest. Negative
durations, and those that are not finite, last no frame. -/
def framesIn (format : Format) (ms : α) : Nat :=
  let frames := Scalar.round (ms * Scalar.ofNat format.sampleRate / 1000.0)
  if Scalar.isFinite frames ∧ (0.0 : α) < frames then Scalar.toNat frames else 0

/-- The exact duration of a number of frames in milliseconds. -/
def millis (format : Format) (frames : Nat) : α :=
  Scalar.ofNat frames / Scalar.ofNat format.sampleRate * 1000.0

end Format

end SingingVoice
