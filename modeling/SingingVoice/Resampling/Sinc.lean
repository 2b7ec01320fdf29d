import SingingVoice.Resampling.Basic

/-!
# Windowed sinc interpolation

The resampler that the library runs with. Between the samples of its input it evaluates a low-pass
filter: a sinc function under a squared Blackman-Harris window, tabulated at 128 offsets between two
samples. An output value is interpolated linearly between the two tabulated filters next to its
position. Positions advance by the inverse of the ratio and carry over from block to block.
-/

namespace SingingVoice.Sinc

variable {α : Type} [Scalar α]

/-- The number of input samples under the filter. -/
def taps : Nat :=
  128

/-- The number of tabulated filters between two input samples. -/
def phases : Nat :=
  128

/-- The squared four-term Blackman-Harris window at point `x` of `size`. -/
def window (x size : Nat) : α :=
  let turn (k : α) : α := Scalar.cos (k * Scalar.pi * Scalar.ofNat x / Scalar.ofNat size)
  let w := 0.35875 - 0.48829 * turn 2.0 + 0.14128 * turn 4.0 - 0.01168 * turn 6.0
  w * w

/-- The normalised sinc function. -/
def sinc (x : α) : α :=
  if x == 0.0 then 1.0 else Scalar.sin (x * Scalar.pi) / (x * Scalar.pi)

/-- The cutoff of the filter as a fraction of the input's band. It is lowered with the ratio when
the rate goes down, and is computed in single precision. -/
def cutoff (ratio : α) : α :=
  let full : α := Scalar.single 0.95
  if ratio < 1.0 then Scalar.single (full * Scalar.single ratio) else full

/-- The filter sampled at all phases of all taps, before normalisation. -/
def prototype (cutoff : α) : Array α :=
  let size := taps * phases
  Array.ofFn fun x : Fin size =>
    let offset : α := Scalar.ofInt ((x.val : Int) - (size / 2 : Nat))
    window x.val size * sinc (offset * cutoff / Scalar.ofNat phases)

/-- The filters, one per phase. They are scaled so that a constant signal keeps its value, and the
later points of the prototype come first. -/
def filters (cutoff : α) : Array (Array α) :=
  let points := prototype cutoff
  let total := points.foldl (· + ·) 0.0 / Scalar.ofNat phases
  Array.ofFn fun phase : Fin phases =>
    Array.ofFn fun tap : Fin taps =>
      points.getD (phases * tap.val + (phases - 1 - phase.val)) 0.0 / total

/-- What the resampler keeps between blocks. -/
structure State (α : Type) where
  /-- The ratio of output rate to input rate. -/
  ratio : α
  /-- The tabulated filters. -/
  filters : Array (Array α)
  /-- The position of the last output frame, relative to the start of the next block. -/
  position : α
  /-- Per channel, the end of the input so far, and room for a block. -/
  buffers : Array (Array α)

/-- A fresh state. -/
def create (ratio : α) (channels : Nat) : State α where
  ratio := ratio
  filters := filters (cutoff ratio)
  position := -(Scalar.ofNat taps / 2.0)
  buffers := Array.replicate channels (Array.replicate (Resampler.blockSize + 2 * taps) 0.0)

/-- The number of output frames that come before the signal, as the resampler announces it. -/
def delay (state : State α) : Nat :=
  Scalar.toNat (Scalar.ofNat taps * state.ratio / 2.0)

/-- The positions of the output frames that a block allows: steps from `position` while it lies
before `stop`. There are never more than `fuel` of them. -/
def positions (step stop : α) : Nat → α → List α
  | 0, _ => []
  | fuel + 1, position =>
    if position < stop then
      let next := position + step
      next :: positions step stop fuel next
    else []

/-- A filter applied to the input from index `start` on. -/
@[specialize] def apply (filter buffer : Array α) (start : Nat) : α :=
  go 0 0.0
where
  /-- Adds the products from tap `tap` on. -/
  @[specialize] go (tap : Nat) (total : α) : α :=
    if h : tap < filter.size then
      go (tap + 1) (total + buffer.getD (start + tap) 0.0 * filter[tap])
    else total
  termination_by filter.size - tap

/-- The output value at a position of the input, interpolated between two filters. -/
@[specialize] def valueAt (filters : Array (Array α)) (buffer : Array α) (position : α) : α :=
  let frame := Scalar.floor position
  let phase := Scalar.toNat (Scalar.floor ((position - frame) * Scalar.ofNat phases))
  let start := (Scalar.toInt frame + 2 * taps).toNat
  let low := apply (filters.getD phase #[]) buffer start
  let high :=
    if phase + 1 < phases then apply (filters.getD (phase + 1) #[]) buffer start
    else apply (filters.getD 0 #[]) buffer (start + 1)
  let fine := position * Scalar.ofNat phases
  low + (fine - Scalar.floor fine) * (high - low)

/-- Puts a block, filled up with zeros, behind the last samples of a buffer. -/
def refill (buffer block : Array α) : Array α :=
  let kept := buffer.extract (buffer.size - 2 * taps) buffer.size
  kept ++ block ++ Array.replicate (Resampler.blockSize - block.size) (0.0 : α)

/-- Converts one block. A missing channel is silent. -/
def process (state : State α) (block : Array (Array α)) : Array (Array α) × State α :=
  let buffers := state.buffers.mapIdx fun channel buffer => refill buffer (block.getD channel #[])
  let step := 1.0 / state.ratio
  let size : α := Scalar.ofNat Resampler.blockSize
  let stop := size - (Scalar.ofNat (taps + 1) + Scalar.ceil step)
  let fuel := Scalar.toNat (Scalar.ceil (size * state.ratio)) + 16
  let places := positions step stop fuel state.position
  let last := places.getLast?.getD state.position
  let output := buffers.map fun buffer => (places.map (valueAt state.filters buffer)).toArray
  (output, { state with buffers, position := last - size })

/-- Converts a block that may be shorter than a full one, or the silence after the end. In a block
no channel may be empty. -/
def processPartial (state : State α) (block? : Option (Array (Array α))) :
    Except String (Array (Array α) × State α) :=
  match block? with
  | none => .ok (process state #[])
  | some block =>
    match block.findIdx? Array.isEmpty with
    | none => .ok (process state block)
    | some channel =>
      .error ("Insufficient buffer size 0 for input channel " ++ toString channel ++
        ", expected " ++ toString Resampler.blockSize)

instance : Resampler α where
  State := State α
  create ratio channels := .ok (create ratio channels)
  delay := delay
  process state block := .ok (process state block)
  processPartial := processPartial

end SingingVoice.Sinc
