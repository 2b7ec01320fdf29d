import SingingVoice.Segment.Overlay

/-!
# Stretching

A segment is brought to another duration either by repeating it from its start or by overlap-add:
grains of 40 ms are read from the input at a slower or faster pace than they are written at, and
every frame of the result is the average of the grains that cover it, weighted by a raised cosine.
-/

namespace SingingVoice

/-- How a segment is brought to another duration. -/
inductive StretchMode where
  /-- It is repeated until it fills the duration. -/
  | loop
  /-- Overlapping grains of it are written at a constant pace. -/
  | ola
deriving DecidableEq, Repr, Inhabited

namespace Stretch

variable {α : Type} [Scalar α]

/-- The duration of a grain in milliseconds. -/
def grainLength : α :=
  40.0

/-- The number of frames in a grain, at least two. -/
def grainFrames (format : Format) : Nat :=
  let length : α := grainLength
  max (format.framesIn length) 2

/-- The weight of frame `i` of a grain. It is taken in the middle of the frame, so it is never
zero. -/
def weight (grain i : Nat) : α :=
  let phase : α := (Scalar.ofNat i + 0.5) / Scalar.ofNat grain
  0.5 - 0.5 * Scalar.cos (2.0 * Scalar.pi * phase)

/-- The frame of the input at which a grain is read that is written from frame `position` of the
result on. -/
def readPosition (frames target grain position : Nat) : Nat :=
  let pace : α := Scalar.ofNat (frames - grain) / Scalar.ofNat (max (target - grain) 1)
  min (Scalar.toNat (Scalar.round (Scalar.ofNat position * pace))) (frames - grain)

/-- The grains that cover a frame of the result: grain `k` covers `grain` frames from `k * hop`
on. -/
def covering (grain hop frame : Nat) : List Nat :=
  let first := (frame + hop - grain) / hop
  List.range' first (frame / hop + 1 - first)

/-- One sample of the result: the average of the grains that cover its frame. -/
def olaSample (segment : Segment α) (target grain : Nat) (weights : Array α) (frame channel : Nat) :
    α :=
  let hop := grain / 2
  let size := segment.format.frameSize
  let (total, sum) := (covering grain hop frame).foldl
    (fun (total, sum) k =>
      let inside := frame - k * hop
      let source := readPosition (α := α) segment.frames target grain (k * hop) + inside
      let w := weights.getD inside 0.0
      (total + segment.samples.getD (source * size + channel) 0.0 * w, sum + w))
    ((0.0 : α), (0.0 : α))
  if (0.0 : α) < sum then total / sum else total

/-- Overlap-add to a number of frames, for a segment of at least one grain. -/
def ola (segment : Segment α) (target grain : Nat) : Segment α :=
  let weights := Array.ofFn fun i : Fin grain => weight grain i.val
  let size := segment.format.frameSize
  let samples := Array.ofFn fun i : Fin (target * size) =>
    olaSample segment target grain weights (i.val / size) (i.val % size)
  Segment.ofSamples segment.format samples

end Stretch

namespace Segment

variable {α : Type} [Scalar α]

/-- A number of milliseconds filled by repeating the segment from its start. -/
def loopFill (segment : Segment α) (ms : α) : Segment α :=
  let base := silence segment.format ms
  let positions := Repetition.loop.positions 0 segment.frames base.frames
  (base.draft.mixAll positions segment).freeze

/-- The segment stretched or compressed to a number of milliseconds. A segment too short for grains
is repeated in either mode. -/
def stretch (segment : Segment α) (ms : α) (mode : StretchMode) : Segment α :=
  let target := segment.format.framesIn ms
  let grain := Stretch.grainFrames (α := α) segment.format
  if target = 0 ∨ segment.isEmpty then silence segment.format ms
  else if target = segment.frames then segment
  else if mode = .loop ∨ segment.frames < grain then segment.loopFill ms
  else Stretch.ola segment target grain

end Segment

end SingingVoice
