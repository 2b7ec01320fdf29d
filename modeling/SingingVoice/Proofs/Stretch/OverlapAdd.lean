import Mathlib
import SingingVoice.Proofs.Loop
import SingingVoice.Proofs.Stretch.Grains
import SingingVoice.Word

/-!
# Adding grains up in buffers

The overlap-add as a loop over buffers: one grain after another is read from the input and added,
frame by frame, to a buffer of samples and to a buffer of weights, which are a grain longer than the
result. Every access to a buffer is checked, and so are the arithmetic of words and that the loop
moves on (`overlapAdd?`). No check fails, and the loop leaves the segment whose samples are gathered
from the grains that cover them (`overlapAdd?_eq_some`). What one frame, one grain and the whole
loop add is said by `addFrame?_eq_some`, `addGrain?_eq_some` and `addGrains?_eq_some`.
-/

namespace SingingVoice.Stretch

variable {α : Type} [Scalar α]

/-! ## The loop -/

/-- The buffers of an overlap-add: samples that have been added up, and a weight for each frame. -/
structure Sums (α : Type) where
  samples : Array α
  weights : Array α

/-- Adds a value to an element of a buffer, which must exist. -/
def addAt? (buffer : Array α) (place : Nat) (x : α) : Option (Array α) :=
  if place < buffer.size then some (buffer.modify place (· + x)) else none

/-- Adds the samples of a frame of the input, with a weight, to a frame of a buffer. -/
def addSamples? (segment : Segment α) (source frame : Nat) (w : α) (samples : Array α) :
    Option (Array α) :=
  let size := segment.format.frameSize
  (List.range size).foldlM
    (fun samples channel => do
      let x ← segment.samples[source * size + channel]?
      addAt? samples (frame * size + channel) (x * w))
    samples

/-- Adds a frame of the input, with a weight, to a frame of the buffers. -/
def addFrame? (segment : Segment α) (source frame : Nat) (w : α) (sums : Sums α) :
    Option (Sums α) := do
  let samples ← addSamples? segment source frame w sums.samples
  let weights ← addAt? sums.weights frame w
  return ⟨samples, weights⟩

/-- Adds the grain that is written from a frame of the result on. -/
def addGrain? (segment : Segment α) (target grain position : Nat) (sums : Sums α) :
    Option (Sums α) :=
  let source := readPosition (α := α) segment.frames target grain position
  (List.range grain).foldlM
    (fun sums i => addFrame? segment (source + i) (position + i) (weight grain i) sums) sums

/-- Adds the grains from the one at a frame of the result on, until the result ends. The next one
must begin later, at a position that is a word. -/
def addGrains? (segment : Segment α) (target grain position : Nat) (sums : Sums α) :
    Option (Sums α) :=
  if position < target then
    if 0 < grain / 2 ∧ position + grain / 2 < Word.count 64 then do
      let sums ← addGrain? segment target grain position sums
      addGrains? segment target grain (position + grain / 2) sums
    else none
  else some sums
termination_by target - position

/-- Overlap-add to a number of frames. No grain may be longer than the segment, and the buffers must
have so many elements that they can be counted in words. What reaches past the result is dropped,
and frames with a positive weight are divided by it. -/
def overlapAdd? (segment : Segment α) (target grain : Nat) : Option (Segment α) :=
  let size := segment.format.frameSize
  if grain ≤ segment.frames ∧ (target + grain) * size < Word.count 64 then do
    let sums ← addGrains? segment target grain 0
      ⟨Array.replicate ((target + grain) * size) 0.0, Array.replicate (target + grain) 0.0⟩
    let samples := (sums.samples.extract 0 (target * size)).mapIdx fun place x =>
      (sums.weights[place / size]?).elim x fun w => normalized (x, w)
    return Segment.ofSamples segment.format samples
  else none

/-! ## What is added -/

/-- A frame of the input, with a weight, added to what a channel has added up to. -/
def added (segment : Segment α) (source : Nat) (w : α) (channel : Nat) (sums : α × α) : α × α :=
  (sums.1 + segment.sample source channel * w, sums.2 + w)

/-- The buffers have so many frames and hold so much at every frame and channel. -/
structure Sums.Hold (sums : Sums α) (frames size : Nat) (held : Nat → Nat → α × α) : Prop where
  samples_size : sums.samples.size = frames * size
  weights_size : sums.weights.size = frames
  sample : ∀ frame < frames, ∀ channel < size,
    sums.samples[frame * size + channel]? = some (held frame channel).1
  weight : ∀ frame < frames, ∀ channel < size, sums.weights[frame]? = some (held frame channel).2

variable {segment : Segment α} {frames target grain : Nat} {held : Nat → Nat → α × α}
  {sums : Sums α}

/-- Places of samples are the same if their frames and their channels are. -/
theorem place_eq_iff {size frame channel frame' channel' : Nat} (hchannel : channel < size)
    (hchannel' : channel' < size) :
    frame * size + channel = frame' * size + channel' ↔ frame = frame' ∧ channel = channel' := by
  refine ⟨fun h => ?_, fun ⟨hframe, hchannel⟩ => by rw [hframe, hchannel]⟩
  have hframe : frame = frame' := by
    have hdiv := congrArg (· / size) h
    simpa only [Segment.frame_of_place hchannel, Segment.frame_of_place hchannel'] using hdiv
  subst hframe
  exact ⟨rfl, Nat.add_left_cancel h⟩

/-- A value can be added to every element of a buffer, and is added to no other. -/
theorem addAt?_eq_some {buffer : Array α} {place : Nat} (hplace : place < buffer.size) (x : α) :
    ∃ following, addAt? buffer place x = some following ∧ following.size = buffer.size ∧
      ∀ j, following[j]? = if place = j then buffer[j]?.map (· + x) else buffer[j]? :=
  ⟨buffer.modify place (· + x), if_pos hplace, Array.size_modify,
    fun _ => Array.getElem?_modify⟩

/-- One buffer is another to which the samples of the first channels of a frame of the input have
been added, with a weight. -/
def SamplesAdded (segment : Segment α) (source frame : Nat) (w : α) (samples : Array α)
    (channels : Nat) (following : Array α) : Prop :=
  following.size = samples.size ∧ ∀ frame', ∀ channel < segment.format.frameSize,
    following[frame' * segment.format.frameSize + channel]? =
      if frame = frame' ∧ channel < channels then
        samples[frame' * segment.format.frameSize + channel]?.map
          (· + segment.sample source channel * w)
      else samples[frame' * segment.format.frameSize + channel]?

/-- The sample of one more channel can be added. -/
theorem exists_samplesAdded_succ (hwhole : segment.WholeFrames) {source frame channel : Nat} {w : α}
    {samples state : Array α} (hsource : source < segment.frames)
    (hsize : samples.size = frames * segment.format.frameSize) (hframe : frame < frames)
    (hchannel : channel < segment.format.frameSize)
    (hadded : SamplesAdded segment source frame w samples channel state) :
    ∃ following, (do
        let x ← segment.samples[source * segment.format.frameSize + channel]?
        addAt? state (frame * segment.format.frameSize + channel) (x * w)) = some following ∧
      SamplesAdded segment source frame w samples (channel + 1) following := by
  have hplace : frame * segment.format.frameSize + channel < state.size := by
    rw [hadded.1, hsize]
    exact (frame_index_lt_iff hchannel).mpr hframe
  obtain ⟨following, hadd, hkept, hfollowing⟩ :=
    addAt?_eq_some hplace (segment.sample source channel * w)
  refine ⟨following, ?_, hkept.trans hadded.1, fun frame' channel' hchannel' => ?_⟩
  · rw [Segment.getElem?_eq_sample hwhole hsource hchannel]
    exact hadd
  -- the place of this channel is that of no channel before it
  · simp only [hfollowing, place_eq_iff hchannel hchannel', hadded.2 frame' channel' hchannel']
    grind

/-- The samples of every frame of the input can be added to every frame of a buffer. -/
theorem addSamples?_eq_some (hwhole : segment.WholeFrames) {source frame : Nat} (w : α)
    {samples : Array α} (hsource : source < segment.frames)
    (hsize : samples.size = frames * segment.format.frameSize) (hframe : frame < frames) :
    ∃ following, addSamples? segment source frame w samples = some following ∧
      SamplesAdded segment source frame w samples segment.format.frameSize following :=
  exists_foldlM_range (SamplesAdded segment source frame w samples)
    ⟨rfl, fun frame' channel _ => by simp⟩ fun _ hchannel _ hadded =>
      exists_samplesAdded_succ hwhole hsource hsize hframe hchannel hadded

/-- A frame of the input can be added to every frame of the buffers, and is added to no other. -/
theorem addFrame?_eq_some (hwhole : segment.WholeFrames)
    (hheld : sums.Hold frames segment.format.frameSize held) {source frame : Nat} (w : α)
    (hsource : source < segment.frames) (hframe : frame < frames) :
    ∃ following, addFrame? segment source frame w sums = some following ∧
      following.Hold frames segment.format.frameSize fun frame' channel =>
        if frame = frame' then added segment source w channel (held frame' channel)
        else held frame' channel := by
  obtain ⟨samples, haddSamples, hsize, hsamples⟩ :=
    addSamples?_eq_some hwhole w hsource hheld.samples_size hframe
  obtain ⟨weights, haddWeights, hsize', hweights⟩ :=
    addAt?_eq_some (by rw [hheld.weights_size]; exact hframe) w
  refine ⟨⟨samples, weights⟩, ?_, hsize.trans hheld.samples_size, hsize'.trans hheld.weights_size,
    fun frame' hframe' channel hchannel => ?_, fun frame' hframe' channel hchannel => ?_⟩
  · rw [addFrame?, haddSamples, Option.bind_eq_bind, Option.bind_some, haddWeights]
    rfl
  · simp only [hsamples frame' channel hchannel, hheld.sample frame' hframe' channel hchannel,
      hchannel, and_true]
    split <;> rfl
  · rw [hweights, hheld.weight frame' hframe' channel hchannel]
    split <;> rfl

/-- What the buffers hold after the first frames of a grain have been added. -/
def grainAdded (segment : Segment α) (target grain position count : Nat) (held : Nat → Nat → α × α)
    (frame channel : Nat) : α × α :=
  if position ≤ frame ∧ frame < position + count then
    added segment (readPosition (α := α) segment.frames target grain position + (frame - position))
      (weight grain (frame - position)) channel (held frame channel)
  else held frame channel

/-- One more frame of a grain is added to a frame that the ones before it have left as it was. -/
theorem grainAdded_succ (position count frame channel : Nat) :
    (if position + count = frame then
      added segment (readPosition (α := α) segment.frames target grain position + count)
        (weight grain count) channel
        (grainAdded segment target grain position count held frame channel)
    else grainAdded segment target grain position count held frame channel) =
      grainAdded segment target grain position (count + 1) held frame channel := by
  unfold grainAdded
  by_cases h : position + count = frame
  · subst h
    have hnot : ¬ (position ≤ position + count ∧ position + count < position + count) := by omega
    have hlt : position ≤ position + count ∧ position + count < position + (count + 1) := by omega
    rw [if_pos rfl, if_neg hnot, if_pos hlt, Nat.add_sub_cancel_left]
  · have hiff : (position ≤ frame ∧ frame < position + (count + 1)) ↔
        (position ≤ frame ∧ frame < position + count) := by omega
    simp only [h, hiff, ↓reduceIte]

/-- Every grain that ends with the buffers can be added. -/
theorem addGrain?_eq_some (hwhole : segment.WholeFrames)
    (hheld : sums.Hold frames segment.format.frameSize held) (target : Nat) {position : Nat}
    (hgrain : grain ≤ segment.frames) (hposition : position + grain ≤ frames) :
    ∃ following, addGrain? segment target grain position sums = some following ∧
      following.Hold frames segment.format.frameSize
        (grainAdded segment target grain position grain held) := by
  refine exists_foldlM_range (fun count (state : Sums α) =>
    state.Hold frames segment.format.frameSize
      (grainAdded segment target grain position count held)) ?_ ?_
  · have hnone : grainAdded segment target grain position 0 held = held := by
      funext frame channel
      exact if_neg (by omega)
    rwa [hnone]
  · intro i hi state hstate
    have hsource :
        readPosition (α := α) segment.frames target grain position + i < segment.frames :=
      readPosition_add_lt hgrain position hi
    have hframe : position + i < frames := by omega
    obtain ⟨following, hadd, hfollowing⟩ :=
      addFrame?_eq_some hwhole hstate (weight grain i) hsource hframe
    simp only [grainAdded_succ] at hfollowing
    exact ⟨following, hadd, hfollowing⟩

/-- Grains that are gathered one after another. -/
theorem gathered_append_single (grains : List Nat) (k frame channel : Nat) :
    gathered segment target grain (grains ++ [k]) frame channel =
      added segment (sourceFrame α segment.frames target grain frame k)
        (weight grain (frame - k * (grain / 2))) channel
        (gathered segment target grain grains frame channel) := by
  rw [gathered, List.foldl_append]
  rfl

/-- What the buffers hold after so many grains. -/
def grainsAdded (segment : Segment α) (target grain count frame channel : Nat) : α × α :=
  gathered segment target grain
    ((List.range count).filter fun k => k * (grain / 2) ≤ frame ∧ frame < k * (grain / 2) + grain)
    frame channel

/-- One more grain adds to the frames that it covers. -/
theorem grainAdded_grainsAdded (count : Nat) :
    grainAdded segment target grain (count * (grain / 2)) grain
        (grainsAdded segment target grain count) =
      grainsAdded segment target grain (count + 1) := by
  funext frame channel
  rw [grainAdded, grainsAdded, grainsAdded, List.range_succ, List.filter_append]
  split_ifs with h
  · rw [List.filter_singleton, decide_eq_true h, cond_true, gathered_append_single]
    rfl
  · rw [List.filter_singleton, decide_eq_false h, cond_false, List.append_nil]

/-- The loop can be run from every grain to the end of the result. -/
theorem addGrains?_eq_some (hwhole : segment.WholeFrames) (hhop : 0 < grain / 2)
    (hgrain : grain ≤ segment.frames) (hwords : target + grain < Word.count 64) {count : Nat}
    {sums : Sums α} (hheld : sums.Hold (target + grain) segment.format.frameSize
      (grainsAdded segment target grain count)) :
    ∃ count' last, addGrains? segment target grain (count * (grain / 2)) sums = some last ∧
      target ≤ count' * (grain / 2) ∧
      last.Hold (target + grain) segment.format.frameSize
        (grainsAdded segment target grain count') := by
  -- by recursion on how much of the result is left, as in the loop
  by_cases hposition : count * (grain / 2) < target
  · have hhop' : grain / 2 ≤ grain := Nat.div_le_self grain 2
    have hend : count * (grain / 2) + grain ≤ target + grain := by omega
    have hword : count * (grain / 2) + grain / 2 < Word.count 64 := by omega
    obtain ⟨following, hadd, hfollowing⟩ := addGrain?_eq_some hwhole hheld target hgrain hend
    rw [grainAdded_grainsAdded] at hfollowing
    obtain ⟨count', last, hrun, hlast⟩ :=
      addGrains?_eq_some hwhole hhop hgrain hwords hfollowing
    refine ⟨count', last, ?_, hlast⟩
    rw [addGrains?, if_pos hposition, if_pos ⟨hhop, hword⟩, hadd, ← Nat.succ_mul]
    exact hrun
  · refine ⟨count, sums, ?_, Nat.not_lt.mp hposition, hheld⟩
    rw [addGrains?, if_neg hposition]
termination_by target - count * (grain / 2)
decreasing_by rw [Nat.succ_mul]; omega

/-! ## The result -/

/-- Buffers of zeros hold what no grain has added. -/
theorem hold_zeros (segment : Segment α) (target grain frames : Nat) :
    Sums.Hold ⟨Array.replicate (frames * segment.format.frameSize) 0.0,
        Array.replicate frames 0.0⟩ frames segment.format.frameSize
      (grainsAdded segment target grain 0) where
  samples_size := Array.size_replicate
  weights_size := Array.size_replicate
  sample frame hframe channel hchannel := by
    rw [Array.getElem?_replicate, if_pos ((frame_index_lt_iff hchannel).mpr hframe)]
    rfl
  weight frame hframe _ _ := by
    rw [Array.getElem?_replicate, if_pos hframe]
    rfl

/-- What the buffers hold at the end of the loop, divided by the weights, are the stretched
samples. -/
theorem normalized_sums (hhop : 0 < grain / 2) {count : Nat} (hcount : target ≤ count * (grain / 2))
    (hheld : sums.Hold (target + grain) segment.format.frameSize
      (grainsAdded segment target grain count)) :
    (sums.samples.extract 0 (target * segment.format.frameSize)).mapIdx (fun place x =>
        (sums.weights[place / segment.format.frameSize]?).elim x fun w => normalized (x, w)) =
      Array.ofFn fun i : Fin (target * segment.format.frameSize) =>
        olaSample segment target grain (Array.ofFn fun i : Fin grain => weight grain i.val)
          (i.val / segment.format.frameSize) (i.val % segment.format.frameSize) := by
  -- only frames before the end of the result are kept, and the loop has reached all of these
  have hend : target * segment.format.frameSize ≤ sums.samples.size := by
    rw [hheld.samples_size]
    exact Nat.mul_le_mul_right _ (Nat.le_add_right target grain)
  refine Array.ext (by simp [hend]) fun place hplace _ => ?_
  have hplace : place < target * segment.format.frameSize := by simpa [hend] using hplace
  have hchannel : place % segment.format.frameSize < segment.format.frameSize :=
    Nat.mod_lt _ segment.format.frameSize_pos
  have hframe : place / segment.format.frameSize < target :=
    Nat.div_lt_of_lt_mul (by rwa [Nat.mul_comm])
  have hsample := hheld.sample _ (Nat.lt_add_right grain hframe) _ hchannel
  have hweight := hheld.weight _ (Nat.lt_add_right grain hframe) _ hchannel
  rw [Nat.div_add_mod'] at hsample
  rw [grainsAdded, filter_covering grain hhop (Nat.lt_of_lt_of_le hframe hcount)] at hsample hweight
  rw [Array.getElem_mapIdx, Array.getElem_ofFn, hweight, Option.elim_some, olaSample_eq segment hhop]
  simp only [Array.getElem_extract, Nat.zero_add, Array.getElem_eq_iff.mpr hsample]

/-- The checked loop leaves the stretched segment: it ends, moves on with every grain, and accesses
no element that the input or the buffers do not have. -/
theorem overlapAdd?_eq_some (hwhole : segment.WholeFrames) (htwo : 2 ≤ grain)
    (hgrain : grain ≤ segment.frames)
    (hwords : (target + grain) * segment.format.frameSize < Word.count 64) :
    overlapAdd? segment target grain = some (ola segment target grain) := by
  have hhop : 0 < grain / 2 := Nat.div_pos htwo Nat.two_pos
  have hsize := segment.format.frameSize_pos
  have hwords' : target + grain < Word.count 64 :=
    Nat.lt_of_le_of_lt (Nat.le_mul_of_pos_right _ hsize) hwords
  obtain ⟨count, last, hrun, hcount, hlast⟩ := addGrains?_eq_some hwhole hhop hgrain hwords'
    (hold_zeros segment target grain (target + grain))
  rw [Nat.zero_mul] at hrun
  rw [overlapAdd?, ola_eq]
  simp only [hgrain, hwords, and_self, ↓reduceIte, hrun, Option.bind_eq_bind, Option.bind_some]
  rw [normalized_sums hhop hcount hlast, Segment.ofSamples_of_size Array.size_ofFn]
  rfl

end SingingVoice.Stretch
