import SingingVoice.Scalar

/-!
# Resampling

A resampler converts blocks of frames from one rate to another. Its output comes late, by a number
of frames that it tells, and in portions that it chooses. `resampleChannels` feeds it whole buffers
and turns what comes back into buffers of the expected length. The class `Resampler` leaves open how
the conversion is done.
-/

namespace SingingVoice

/-- A way to change the rate of samples, block by block. -/
class Resampler (α : Type) where
  /-- What is kept between blocks. -/
  State : Type
  /-- A fresh state for a ratio of output rate to input rate and a number of channels. -/
  create : α → Nat → Except String State
  /-- How many frames of output come before the signal. -/
  delay : State → Nat
  /-- Converts a full block: one buffer of samples per channel. -/
  process : State → Array (Array α) → Except String (Array (Array α) × State)
  /-- Converts a shorter block, or the silence after the end. -/
  processPartial : State → Option (Array (Array α)) → Except String (Array (Array α) × State)

namespace Resampler

variable {α : Type}

/-- The number of frames in a full block. -/
def blockSize : Nat :=
  1024

/-- Appends to each channel the samples that a block brought for it. -/
def appendBlock (output block : Array (Array α)) : Array (Array α) :=
  output.mapIdx fun channel samples => samples ++ (block[channel]?.getD #[])

/-- The number of frames in a list of channels: the length of the first. -/
def frameCount (channels : Array (Array α)) : Nat :=
  (channels[0]?.map Array.size).getD 0

/-- The frames from `start` up to `stop` of every channel. -/
def block (channels : Array (Array α)) (start stop : Nat) : Array (Array α) :=
  channels.map fun samples => samples.extract start stop

theorem frameCount_appendBlock (output out : Array (Array α)) (h : output.size ≠ 0) :
    frameCount (appendBlock output out) = frameCount output + frameCount out := by
  have hpos : 0 < output.size := Nat.pos_of_ne_zero h
  simp only [frameCount, appendBlock]
  cases hout : out[0]? <;> simp [hpos, hout]

variable [Resampler α]

/-- Feeds the channels from frame `position` on: full blocks, then a shorter one if frames are left.
Gives the output so far and the state after it. -/
def feed (channels : Array (Array α)) (position : Nat) (output : Array (Array α))
    (state : State α) : Except String (Array (Array α) × State α) :=
  if position + blockSize ≤ frameCount channels then do
    let (out, state) ← process state (block channels position (position + blockSize))
    feed channels (position + blockSize) (appendBlock output out) state
  else if position < frameCount channels then do
    let (out, state) ← processPartial state (some (block channels position (position + blockSize)))
    return (appendBlock output out, state)
  else return (output, state)
termination_by frameCount channels - position
decreasing_by simp [blockSize] at *; omega

/-- Feeds silence until the first channel has `target` frames, or until nothing more comes. -/
def flush (target : Nat) (output : Array (Array α)) (state : State α) :
    Except String (Array (Array α)) :=
  if h : frameCount output < target ∧ output.size ≠ 0 then
    match processPartial state none with
    | .error reason => .error reason
    | .ok (out, state) =>
      if hout : frameCount out = 0 then .ok output
      else
        have := frameCount_appendBlock output out h.2
        have := Nat.pos_of_ne_zero hout
        flush target (appendBlock output out) state
  else .ok output
termination_by target - frameCount output

/-- Drops the frames before the signal and brings a channel to the expected length, with zeros if it
is too short. -/
def trim [Scalar α] (delay expected : Nat) (samples : Array α) : Array α :=
  let kept := samples.extract delay (delay + expected)
  kept ++ Array.replicate (expected - kept.size) (0.0 : α)

/-- Converts the channels by the ratio of output rate to input rate. The result has the rounded
product of the number of frames and the ratio as its length; where that is zero, it is empty. Sizes
have no bound here: a conversion whose buffers cannot be allocated, so that the expected frames and
the delay together may not even fit into a word, is outside of the model. -/
def resampleChannels [Scalar α] (channels : Array (Array α)) (ratio : α) :
    Except String (Array (Array α)) :=
  let frames := frameCount channels
  let expected := Scalar.toNat (Scalar.round (Scalar.ofNat frames * ratio))
  if channels.size = 0 ∨ frames = 0 ∨ expected = 0 then .ok (channels.map fun _ => #[])
  else do
    let state ← create ratio channels.size
    let delay := delay state
    let (output, state) ← feed channels 0 (channels.map fun _ => #[]) state
    let output ← flush (expected + delay) output state
    return output.map (trim delay expected)

end Resampler

end SingingVoice
