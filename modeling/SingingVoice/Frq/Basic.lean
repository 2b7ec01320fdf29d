import SingingVoice.Scalar

/-!
# Frequency maps

A frequency map holds the result of a pitch analysis: one frequency and one amplitude for every hop
of samples, and a representative frequency for the whole. A frequency of zero marks a frame without
a pitch. `Frq.frameAverage` is the representative frequency of a list of frames, a mean over moving
windows of the voiced ones.
-/

namespace SingingVoice

/-- The analysis of one hop of samples. -/
structure Frame (α : Type) where
  frequency : α
  amplitude : α
deriving BEq, DecidableEq, Repr, Inhabited

namespace Frame

variable {α : Type}

/-- Both fields passed through a function. -/
def map {β : Type} (f : α → β) (frame : Frame α) : Frame β :=
  ⟨f frame.frequency, f frame.amplitude⟩

/-- Whether the frame has a pitch. -/
def isVoiced [Scalar α] (frame : Frame α) : Bool :=
  (0.0 : α) < frame.frequency

end Frame

/-- The pitch analysis of a stretch of audio. -/
structure Frq (α : Type) where
  /-- The number of samples that a frame covers. -/
  hop : Int32
  /-- The representative frequency. -/
  average : α
  /-- The frames, in order. -/
  frames : List (Frame α)
deriving BEq, DecidableEq, Repr, Inhabited

namespace Frq

variable {α : Type}

/-- All numbers passed through a function. -/
def map {β : Type} (f : α → β) (frq : Frq α) : Frq β :=
  ⟨frq.hop, f frq.average, frq.frames.map (Frame.map f)⟩

/-- The number of consecutive frames that are averaged together. -/
def averageWindow : Nat :=
  6

/-- All runs of `size` consecutive elements. -/
def windows {β : Type} (size : Nat) (values : List β) : List (List β) :=
  (List.range (values.length + 1 - size)).map fun start => (values.drop start).take size

/-- The mean of a list of values. -/
def mean [Scalar α] (values : List α) : α :=
  Scalar.sum values / Scalar.ofNat values.length

/-- The mean of the moving averages of the voiced frequencies. A window lies wholly inside the list
of voiced frames, so the ones at the edges weigh less. With fewer voiced frames than a window it is
their mean, and with none it is zero. -/
def frameAverage [Scalar α] (frames : List (Frame α)) : α :=
  let voiced := (frames.filter Frame.isVoiced).map Frame.frequency
  if voiced.isEmpty then 0.0
  else if voiced.length < averageWindow then mean voiced
  else mean ((windows averageWindow voiced).map mean)

/-- The map of the given frames, with their average. -/
def ofFrames [Scalar α] (hop : Int32) (frames : List (Frame α)) : Frq α :=
  ⟨hop, frameAverage frames, frames⟩

/-- The number of samples that the map covers. -/
def sampleCount (frq : Frq α) : Nat :=
  frq.frames.length * frq.hop.toInt.toNat

/-- The frame that covers a sample, if any does. -/
def frameAt? (frq : Frq α) (index : Nat) : Option (Frame α) :=
  if frq.hop ≤ 0 then none else frq.frames[index / frq.hop.toInt.toNat]?

end Frq

end SingingVoice
