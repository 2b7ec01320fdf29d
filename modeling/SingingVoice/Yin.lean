import SingingVoice.Frq.Basic
import SingingVoice.Segment.Basic
import SingingVoice.Voicebank.Error

/-!
# Pitch analysis

A frame of audio is compared with itself at every lag in a range. The squared difference, divided by
its mean over all shorter lags, dips where the lag is a period: the first dip below a threshold is
taken and refined by a parabola. Frames that are too quiet, and those too close to the end to be
compared at every lag, have no pitch.
-/

namespace SingingVoice

/-- The settings of a pitch analysis. -/
structure Yin (α : Type) where
  /-- The lowest frequency to look for. -/
  low : α
  /-- The highest frequency to look for. -/
  high : α
  /-- The number of samples from one frame to the next. -/
  hop : Int32
  /-- The normalised difference below which a lag is accepted. -/
  threshold : α
deriving BEq, Repr

namespace Yin

variable {α : Type} [Scalar α]

/-- The hop of an analysis whose result is kept with the audio. -/
def defaultHop : Int32 :=
  256

/-- The settings for voices. -/
def standard : Yin α :=
  ⟨55.0, 1000.0, defaultHop, 0.15⟩

/-- The amplitude below which a frame counts as silent. -/
def silence : α :=
  1e-4

/-- The sum of the squares of `count` samples from index `start` on. -/
@[specialize] def energy (samples : Array α) (start count : Nat) : α :=
  count.fold (fun i _ total =>
    let x := samples.getD (start + i) 0.0
    total + x * x) 0.0

/-- The sum of the squared differences between `window` samples from index `start` on and the same
samples `lag` later. -/
@[specialize] def difference (samples : Array α) (start window lag : Nat) : α :=
  window.fold (fun i _ total =>
    let d := samples.getD (start + i) 0.0 - samples.getD (start + lag + i) 0.0
    total + d * d) 0.0

/-- Divides the difference at each lag, counted from one, by the mean of the differences up to it.
The first argument is the lag of the head of the list, the second the sum of those before. -/
def normalizeFrom (lag : Nat) (running : α) : List α → List α
  | [] => []
  | d :: rest =>
    let running := running + d
    let value := if (0.0 : α) < running then d * Scalar.ofNat lag / running else 1.0
    value :: normalizeFrom (lag + 1) running rest

/-- The normalised differences at the lags from zero up to `window`, in a frame that starts at index
`start`. At lag zero it is one. -/
@[specialize] def normalized (samples : Array α) (start window : Nat) : Array α :=
  let differences := (List.range window).map fun i => difference samples start window (i + 1)
  (1.0 :: normalizeFrom 1 0.0 differences).toArray

/-- Goes down from a lag to the last one before the values rise again, short of `limit`. -/
def descend (values : Array α) (limit lag : Nat) : Nat :=
  if h : lag + 1 < limit ∧ values.getD (lag + 1) 0.0 < values.getD lag 0.0 then
    descend values limit (lag + 1)
  else lag
termination_by limit - lag

/-- The first dip below a threshold among the lags from `lag` up to `limit`, if there is one. -/
def firstDip? (threshold : α) (values : Array α) (limit lag : Nat) : Option Nat :=
  if lag < limit then
    if values.getD lag 0.0 < threshold then some (descend values limit lag)
    else firstDip? threshold values limit (lag + 1)
  else none
termination_by limit - lag

/-- The place of the lowest point of the parabola through a value and its two neighbours. A value
without neighbours, or on a line with them, stays where it is. -/
def refine (values : Array α) (lag : Nat) : α :=
  if lag = 0 ∨ values.size ≤ lag + 1 then Scalar.ofNat lag
  else
    let before := values.getD (lag - 1) 0.0
    let here := values.getD lag 0.0
    let after := values.getD (lag + 1) 0.0
    let bend := before - 2.0 * here + after
    if Scalar.abs bend < 2.220446049250313e-16 then Scalar.ofNat lag
    else Scalar.ofNat lag + 0.5 * (before - after) / bend

/-- The least lag to look at, at least two samples. -/
def minLag (yin : Yin α) (sampleRate : Nat) : Nat :=
  max (Scalar.toNat (Scalar.floor (Scalar.ofNat sampleRate / yin.high))) 2

/-- The lag to stop before, which is also the number of samples that are compared. -/
def maxLag (yin : Yin α) (sampleRate : Nat) : Nat :=
  Scalar.toNat (Scalar.ceil (Scalar.ofNat sampleRate / yin.low))

/-- The number of samples from one frame to the next, at least one. -/
def step (yin : Yin α) : Nat :=
  (max yin.hop.toInt 1).toNat

/-- The analysis of the frame that starts at index `start`. -/
@[specialize] def frameAt (yin : Yin α) (samples : Array α) (sampleRate start : Nat) : Frame α :=
  let lowest := yin.minLag sampleRate
  let limit := yin.maxLag sampleRate
  let amplitude := Scalar.sqrt (energy samples start limit / Scalar.ofNat limit)
  if amplitude < silence ∨ samples.size < start + 2 * limit then ⟨0.0, amplitude⟩
  else
    let values := normalized samples start limit
    match firstDip? yin.threshold values limit lowest with
    | some lag => ⟨Scalar.ofNat sampleRate / refine values lag, amplitude⟩
    | none => ⟨0.0, amplitude⟩

/-- The analysis of one channel of samples, a frame for every hop begun. -/
@[specialize] def estimate (yin : Yin α) (samples : Array α) (sampleRate : Nat) :
    List (Frame α) :=
  let count := (samples.size + yin.step - 1) / yin.step
  (List.range count).map fun i => yin.frameAt samples sampleRate (i * yin.step)

/-- The frequency map of a segment. The range of frequencies must not be empty. -/
@[specialize] def analyze (yin : Yin α) (audio : Segment α) :
    Except (VoicebankError α) (Frq α) :=
  if yin.low ≤ 0.0 ∨ yin.high ≤ yin.low then .error (.analysis (.emptyRange yin.low yin.high))
  else
    let mono := audio.setChannels .mono
    .ok (Frq.ofFrames yin.hop (yin.estimate mono.samples mono.format.sampleRate))

end Yin

end SingingVoice
