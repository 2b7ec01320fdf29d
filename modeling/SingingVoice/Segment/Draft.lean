import SingingVoice.Segment.Basic

/-!
# Drafts

A `Draft` is a buffer of samples under construction. It starts as a copy of a segment or empty,
is written to, extended and mixed into, and is frozen into a segment when it is done.
-/

namespace SingingVoice

/-- A buffer of samples under construction. -/
structure Draft (α : Type) where
  /-- The samples, frame after frame. -/
  samples : Array α
  /-- The layout of the samples. -/
  format : Format
deriving Repr, Inhabited

/-- The buffer that holds a copy of a segment. -/
def Segment.draft {α : Type} (segment : Segment α) : Draft α :=
  ⟨segment.samples, segment.format⟩

namespace Draft

variable {α : Type} [Scalar α]

/-- The number of whole frames. -/
def frames (draft : Draft α) : Nat :=
  draft.samples.size / draft.format.frameSize

/-- The segment of what has been written. -/
def freeze (draft : Draft α) : Segment α :=
  Segment.ofSamples draft.format draft.samples

/-- Replaces a sample, if there is one at the index. -/
def set (draft : Draft α) (index : Nat) (x : α) : Draft α :=
  { draft with samples := draft.samples.setIfInBounds index x }

/-- The range of sample indices that covers the time from `start` to `stop` milliseconds. -/
def window (draft : Draft α) (start stop : α) : Nat × Nat :=
  let stop := min (draft.format.framesIn stop) draft.frames
  let start := min (draft.format.framesIn start) stop
  (start * draft.format.frameSize, stop * draft.format.frameSize)

/-- Passes the samples from `start` to `stop` milliseconds through a function that also sees the
index in the window. -/
def editWindow (draft : Draft α) (start stop : α) (f : Nat → α → α) : Draft α :=
  let (first, last) := draft.window start stop
  let edit (i : Nat) (x : α) : α := if first ≤ i ∧ i < last then f (i - first) x else x
  { draft with samples := draft.samples.mapIdx edit }

/-- Writes one value over the samples from `start` to `stop` milliseconds. -/
def fill (draft : Draft α) (start stop x : α) : Draft α :=
  draft.editWindow start stop fun _ _ => x

/-- Adds one value to the samples from `start` to `stop` milliseconds. -/
def add (draft : Draft α) (start stop x : α) : Draft α :=
  draft.editWindow start stop fun _ y => y + x

/-- Appends a number of silent frames. -/
def extendFrames (draft : Draft α) (frames : Nat) : Draft α :=
  { draft with
    samples := draft.samples ++ Array.replicate (frames * draft.format.frameSize) (0.0 : α) }

/-- Appends silence that lasts a number of milliseconds. -/
def extendSilence (draft : Draft α) (ms : α) : Draft α :=
  draft.extendFrames (draft.format.framesIn ms)

/-- Adds `source` to `target` element by element, the first one at `offset`, as far as both go. -/
@[specialize] def addFrom (target : Array α) (offset : Nat) (source : Array α) : Array α :=
  go 0 target
where
  /-- Adds the elements of the source from index `i` on. -/
  @[specialize] go (i : Nat) (target : Array α) : Array α :=
    if h : i < source.size ∧ offset + i < target.size then
      go (i + 1) (target.modify (offset + i) (· + source[i]))
    else target
  termination_by source.size - i

/-- Adds a segment of the same layout, its first frame at `position`, as far as the buffer goes. -/
def mixAt (draft : Draft α) (position : Nat) (segment : Segment α) : Draft α :=
  { draft with
    samples := addFrom draft.samples (position * draft.format.frameSize) segment.samples }

end Draft

end SingingVoice
