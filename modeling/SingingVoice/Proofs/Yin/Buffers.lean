import SingingVoice.Double
import SingingVoice.Proofs.Loop
import SingingVoice.Proofs.Yin.Normalized

/-!
# Analysis in shared buffers

The analysis as a loop over its frames that share two buffers: one holds the samples of a frame, the
other its differences, which are normalised in place. Every access to a buffer is checked
(`estimateIn?`). No check fails, and whatever a frame leaves in the buffers is overwritten before
the next one reads it (`frameIn?_eq_some`), so that the loop gives the frames of the analysis
(`estimateIn?_eq_some`). From this and from what decides a frame follows that the frames do not
depend on each other (`frames_independent`).
-/

namespace SingingVoice.Yin

variable {α : Type}

/-! ## Buffers -/

/-- The buffers of an analysis: the samples of a frame, and a value for every lag. -/
structure Buffers (α : Type) where
  samples : Array α
  values : Array α

/-- Writes an element of a buffer, which must exist. -/
def setAt? (buffer : Array α) (place : Nat) (x : α) : Option (Array α) :=
  if place < buffer.size then some (buffer.setIfInBounds place x) else none

/-- Every element of a buffer can be written, and no other changes. -/
theorem setAt?_eq_some {buffer : Array α} {place : Nat} (hplace : place < buffer.size) (x : α) :
    ∃ following, setAt? buffer place x = some following ∧ following.size = buffer.size ∧
      ∀ j, following[j]? = if place = j then some x else buffer[j]? := by
  refine ⟨_, if_pos hplace, Array.size_setIfInBounds, fun j => ?_⟩
  rw [Array.getElem?_setIfInBounds, if_pos hplace]

variable [Scalar α]

/-! ## The loop -/

/-- Reads the samples of a frame into a buffer, zeros where there are none. -/
def load (samples : Array α) (start : Nat) (buffer : Array α) : Array α :=
  buffer.mapIdx fun i _ => samples.getD (start + i) 0.0

/-- The buffers for a window before the first frame. Sizes have no bound here: an analysis whose
buffers cannot be allocated, so that twice the largest lag may not even fit into a word, is outside
of the model. -/
def Buffers.zeros (window : Nat) : Buffers α :=
  ⟨Array.replicate (2 * window) 0.0, Array.replicate (window + 1) 0.0⟩

/-- The sum of the squares of the first elements of a buffer. -/
def energyIn? (buffer : Array α) (count : Nat) : Option α :=
  (List.range count).foldlM
    (fun total i => do
      let x ← buffer[i]?
      return total + x * x)
    0.0

/-- The sum of the squared differences between the first elements of a buffer and the same number of
elements `lag` later. -/
def differenceIn? (buffer : Array α) (window lag : Nat) : Option α :=
  (List.range window).foldlM
    (fun total i => do
      let x ← buffer[i]?
      let y ← buffer[lag + i]?
      return total + (x - y) * (x - y))
    0.0

/-- Writes the differences of a buffer at all lags but zero. -/
def writeDifferences? (buffer : Array α) (window : Nat) (values : Array α) : Option (Array α) := do
  let values ← setAt? values 0 0.0
  (List.range (values.size - 1)).foldlM
    (fun values i => do
      let d ← differenceIn? buffer window (i + 1)
      setAt? values (i + 1) d)
    values

/-- Normalises differences in place, with their sum so far. -/
def normalizeIn? (values : Array α) : Option (Array α) := do
  let values ← setAt? values 0 1.0
  let (values, _) ← (List.range (values.size - 1)).foldlM
    (fun ((values, total) : Array α × α) i => do
      let d ← values[i + 1]?
      let values ← setAt? values (i + 1) (normalize d (total + d) (i + 1))
      return (values, total + d))
    (values, 0.0)
  return values

/-- Goes down from a lag as `descend` does. -/
def descendIn? (values : Array α) (limit lag : Nat) : Option Nat :=
  if lag + 1 < limit then do
    let next ← values[lag + 1]?
    let here ← values[lag]?
    if next < here then descendIn? values limit (lag + 1) else some lag
  else some lag
termination_by limit - lag

/-- Searches as `firstDip?` does. -/
def searchIn? (threshold : α) (values : Array α) (limit lag : Nat) : Option (Option Nat) :=
  if lag < limit then do
    let here ← values[lag]?
    if here < threshold then (descendIn? values limit lag).map some
    else searchIn? threshold values limit (lag + 1)
  else some none
termination_by limit - lag

/-- Refines a lag as `refine` does. -/
def refineIn? (values : Array α) (lag : Nat) : Option α :=
  if lag = 0 ∨ values.size ≤ lag + 1 then some (Scalar.ofNat lag)
  else do
    let before ← values[lag - 1]?
    let here ← values[lag]?
    let after ← values[lag + 1]?
    let bend := before - 2.0 * here + after
    if Scalar.abs bend < 2.220446049250313e-16 then return Scalar.ofNat lag
    else return Scalar.ofNat lag + 0.5 * (before - after) / bend

/-- Analyses the frame that starts at index `start`. A frame that is too quiet or too close to the
end leaves the values of the frame before it in the buffer. -/
def frameIn? (yin : Yin α) (samples : Array α) (sampleRate start : Nat) (buffers : Buffers α) :
    Option (Frame α × Buffers α) := do
  let window := yin.maxLag sampleRate
  let buffer := load samples start buffers.samples
  let energy ← energyIn? buffer window
  let amplitude := Scalar.sqrt (energy / Scalar.ofNat window)
  if amplitude < silence ∨ samples.size < start + buffer.size then
    return (⟨0.0, amplitude⟩, ⟨buffer, buffers.values⟩)
  else do
    let differences ← writeDifferences? buffer window buffers.values
    let values ← normalizeIn? differences
    match ← searchIn? yin.threshold values window (yin.minLag sampleRate) with
    | some lag =>
        let refined ← refineIn? values lag
        return (⟨Scalar.ofNat sampleRate / refined, amplitude⟩, ⟨buffer, values⟩)
    | none => return (⟨0.0, amplitude⟩, ⟨buffer, values⟩)

/-- Analyses all frames, one after another, in the same buffers. -/
def estimateIn? (yin : Yin α) (samples : Array α) (sampleRate : Nat) (buffers : Buffers α) :
    Option (List (Frame α)) := do
  let (frames, _) ← (List.range ((samples.size + yin.step - 1) / yin.step)).foldlM
    (fun ((frames, buffers) : List (Frame α) × Buffers α) i => do
      let (frame, buffers) ← yin.frameIn? samples sampleRate (i * yin.step) buffers
      return (frames ++ [frame], buffers))
    ([], buffers)
  return frames

/-! ## The samples of a frame -/

variable {samples buffer values : Array α} {start window lag : Nat}

@[simp] theorem size_load : (load samples start buffer).size = buffer.size :=
  Array.size_mapIdx

/-- Every element of a buffer is overwritten with a sample of the frame. -/
theorem getElem?_load {i : Nat} (hi : i < buffer.size) :
    (load samples start buffer)[i]? = some (samples.getD (start + i) 0.0) := by
  rw [load, Array.getElem?_mapIdx, Array.getElem?_eq_getElem hi]
  rfl

/-- The energy of a frame can be read from its samples. -/
theorem energyIn?_load {count : Nat} (hcount : count ≤ buffer.size) :
    energyIn? (load samples start buffer) count = some (energy samples start count) := by
  refine foldlM_range_eq_some fun i hi total => ?_
  rw [getElem?_load (by omega)]
  rfl

/-- So can be the difference at every lag that leaves a window inside the buffer. -/
theorem differenceIn?_load (hlag : lag + window ≤ buffer.size) :
    differenceIn? (load samples start buffer) window lag =
      some (difference samples start window lag) := by
  refine foldlM_range_eq_some fun i hi total => ?_
  rw [getElem?_load (by omega), getElem?_load (by omega), ← Nat.add_assoc]
  rfl

/-! ## The values of a frame -/

/-- The differences of a frame can be written over any values, at all lags. -/
theorem writeDifferences?_load (samples : Array α) (start : Nat)
    (hbuffer : buffer.size = 2 * window) (hvalues : values.size = window + 1) :
    ∃ differences, writeDifferences? (load samples start buffer) window values = some differences ∧
      differences.size = window + 1 ∧
      ∀ lag ≤ window, 0 < lag → differences[lag]? = some (difference samples start window lag) := by
  obtain ⟨zeroed, hzeroed, hsize, -⟩ := setAt?_eq_some (by omega : 0 < values.size) (0.0 : α)
  have hcount : zeroed.size - 1 = window := by omega
  rw [writeDifferences?, hzeroed, Option.bind_eq_bind, Option.bind_some, hcount]
  refine exists_foldlM_range (fun k (differences : Array α) => differences.size = window + 1 ∧
    ∀ lag ≤ k, 0 < lag → differences[lag]? = some (difference samples start window lag))
    ⟨by omega, fun lag hlag hpos => by omega⟩ ?_
  rintro i hi differences ⟨hsize, hwritten⟩
  obtain ⟨following, hset, hkept, hfollowing⟩ := setAt?_eq_some
    (by omega : i + 1 < differences.size) (difference samples start window (i + 1))
  refine ⟨following, ?_, by omega, fun lag hlag hpos => ?_⟩
  · rw [differenceIn?_load (by omega)]
    exact hset
  · rw [hfollowing]
    split
    next heq => rw [heq]
    next hne => exact hwritten lag (by omega) hpos

/-- The differences of a frame have been normalised up to a lag, and added up. -/
structure Normalizing (samples : Array α) (start window : Nat) (reached : Nat)
    (state : Array α × α) : Prop where
  size : state.1.size = window + 1
  total : state.2 = accumulated samples start window reached
  done : ∀ lag ≤ reached, state.1[lag]? = some (normalizedAt samples start window lag)
  rest : ∀ lag ≤ window, reached < lag →
    state.1[lag]? = some (difference samples start window lag)

/-- One more difference can be normalised. -/
theorem Normalizing.succ {state : Array α × α} {reached : Nat} (hreached : reached < window)
    (h : Normalizing samples start window reached state) :
    ∃ following, (do
        let d ← state.1[reached + 1]?
        let values ← setAt? state.1 (reached + 1) (normalize d (state.2 + d) (reached + 1))
        return (values, state.2 + d)) = some following ∧
      Normalizing samples start window (reached + 1) following := by
  have hread := h.rest (reached + 1) hreached (Nat.lt_succ_self reached)
  obtain ⟨values, hset, hkept, hvalues⟩ :=
    setAt?_eq_some (by rw [h.size]; omega : reached + 1 < state.1.size)
      (normalizedAt samples start window (reached + 1))
  refine ⟨(values, accumulated samples start window (reached + 1)), ?_, hkept.trans h.size, rfl,
    fun lag hlag => ?_, fun lag hlag hrest => ?_⟩
  · have hvalue : normalize (difference samples start window (reached + 1))
        (accumulated samples start window reached + difference samples start window (reached + 1))
        (reached + 1) = normalizedAt samples start window (reached + 1) := by
      rw [← accumulated_succ, normalizedAt, if_neg (Nat.succ_ne_zero reached)]
    rw [hread, h.total, Option.bind_eq_bind, Option.bind_some, hvalue, hset, accumulated_succ]
    rfl
  · rw [hvalues]
    split
    next heq => rw [heq]
    next hne => exact h.done lag (by omega)
  · rw [hvalues, if_neg (by omega)]
    exact h.rest lag hlag (by omega)

/-- The differences of a frame can be normalised in place. -/
theorem normalizeIn?_eq_some (hvalues : values.size = window + 1)
    (hdifferences : ∀ lag ≤ window, 0 < lag →
      values[lag]? = some (difference samples start window lag)) :
    normalizeIn? values = some (normalized samples start window) := by
  obtain ⟨one, hone, hsize, hfirst⟩ := setAt?_eq_some (by omega : 0 < values.size) (1.0 : α)
  have hcount : one.size - 1 = window := by omega
  have hstart : Normalizing samples start window 0 (one, 0.0) := by
    refine ⟨hsize.trans hvalues, rfl, fun lag hlag => ?_, fun lag hlag hpos => ?_⟩
    · obtain rfl : lag = 0 := by omega
      rw [hfirst, if_pos rfl]
      rfl
    · rw [hfirst, if_neg (by omega)]
      exact hdifferences lag hlag hpos
  obtain ⟨⟨last, total⟩, hrun, hlast⟩ := exists_foldlM_range
    (Normalizing samples start window) hstart fun i hi state hstate => hstate.succ hi
  have heq : last = normalized samples start window := by
    refine Array.ext_getElem? fun lag => ?_
    rw [getElem?_normalized]
    split
    next hlag => exact hlast.done lag hlag
    next hlag => exact Array.getElem?_eq_none (by have := hlast.size; simp only at this; omega)
  rw [normalizeIn?, hone, Option.bind_eq_bind, Option.bind_some, hcount, ← heq]
  exact congrArg (· >>= fun state => some state.1) hrun

/-! ## The search -/

/-- A value can be read at every lag that has one. -/
theorem getElem?_eq_getD (values : Array α) (hlag : lag < values.size) :
    values[lag]? = some (values.getD lag 0.0) := by
  rw [Array.getD_eq_getD_getElem?, Array.getElem?_eq_getElem hlag, Option.getD_some]

/-- Every access of a descent is to a lag short of the limit. -/
theorem descendIn?_eq_some {limit : Nat} (hlimit : limit ≤ values.size) (hlag : lag < limit) :
    descendIn? values limit lag = some (descend values limit lag) := by
  fun_induction descend values limit lag with
  | case1 lag h ih =>
      rw [descendIn?, if_pos h.1, getElem?_eq_getD values (by omega),
        getElem?_eq_getD values (by omega), Option.bind_eq_bind, Option.bind_some,
        Option.bind_some, if_pos h.2]
      exact ih h.1
  | case2 lag h =>
      rw [descendIn?]
      split
      next hnext =>
        rw [getElem?_eq_getD values (by omega), getElem?_eq_getD values (by omega),
          Option.bind_eq_bind, Option.bind_some, Option.bind_some,
          if_neg fun hbelow => h ⟨hnext, hbelow⟩]
      next => rfl

/-- So is every access of a search. -/
theorem searchIn?_eq_some {limit : Nat} (threshold : α) (hlimit : limit ≤ values.size) :
    searchIn? threshold values limit lag = some (firstDip? threshold values limit lag) := by
  fun_induction firstDip? threshold values limit lag with
  | case1 lag hlag hbelow =>
      rw [searchIn?, if_pos hlag, getElem?_eq_getD values (by omega), Option.bind_eq_bind,
        Option.bind_some, if_pos hbelow, descendIn?_eq_some hlimit hlag]
      rfl
  | case2 lag hlag hbelow ih =>
      rw [searchIn?, if_pos hlag, getElem?_eq_getD values (by omega), Option.bind_eq_bind,
        Option.bind_some, if_neg hbelow]
      exact ih
  | case3 lag hlag => rw [searchIn?, if_neg hlag]

/-- A lag with values on both sides can be refined, and any other stays where it is. -/
theorem refineIn?_eq_some (values : Array α) (lag : Nat) :
    refineIn? values lag = some (refine values lag) := by
  unfold refineIn? refine
  split
  next => rfl
  next hinside =>
    rw [getElem?_eq_getD values (by omega), getElem?_eq_getD values (by omega),
      getElem?_eq_getD values (by omega)]
    dsimp only [Option.bind_eq_bind, Option.bind_some]
    split <;> rfl

/-! ## All frames -/

/-- The buffers have the sizes that a window asks for. -/
structure Buffers.Fit (buffers : Buffers α) (window : Nat) : Prop where
  samples_size : buffers.samples.size = 2 * window
  values_size : buffers.values.size = window + 1

/-- Buffers of zeros have them. -/
theorem Buffers.fit_zeros (window : Nat) : (zeros window : Buffers α).Fit window :=
  ⟨Array.size_replicate, Array.size_replicate⟩

variable {yin : Yin α} {sampleRate : Nat} {buffers : Buffers α}

/-- Whatever the buffers hold, a frame is analysed in them, and they can be used again. -/
theorem frameIn?_eq_some (samples : Array α) (start : Nat)
    (hfit : buffers.Fit (yin.maxLag sampleRate)) :
    ∃ following, yin.frameIn? samples sampleRate start buffers =
        some (yin.frameAt samples sampleRate start, following) ∧
      following.Fit (yin.maxLag sampleRate) := by
  have hbuffer : (load samples start buffers.samples).size = 2 * yin.maxLag sampleRate :=
    size_load.trans hfit.samples_size
  have henergy : energyIn? (load samples start buffers.samples) (yin.maxLag sampleRate) =
      some (energy samples start (yin.maxLag sampleRate)) :=
    energyIn?_load (by rw [hfit.samples_size]; omega)
  obtain ⟨differences, hwrite, hsize, hdifferences⟩ :=
    writeDifferences?_load samples start hfit.samples_size hfit.values_size
  by_cases hout : amplitudeAt samples start (yin.maxLag sampleRate) < silence ∨
      samples.size < start + 2 * yin.maxLag sampleRate
  · refine ⟨⟨load samples start buffers.samples, buffers.values⟩, ?_, hbuffer, hfit.values_size⟩
    rw [frameIn?, henergy, hbuffer, frameAt_eq, if_pos hout]
    exact if_pos hout
  · refine ⟨⟨load samples start buffers.samples, normalized samples start (yin.maxLag sampleRate)⟩,
      ?_, hbuffer, size_normalized⟩
    rw [frameIn?, henergy, hbuffer, frameAt_eq, if_neg hout]
    refine (if_neg hout).trans ?_
    rw [hwrite, Option.bind_eq_bind, Option.bind_some, normalizeIn?_eq_some hsize hdifferences,
      Option.bind_some, searchIn?_eq_some _ (by rw [size_normalized]; omega), frequencyAt, dip?]
    cases firstDip? yin.threshold (normalized samples start (yin.maxLag sampleRate))
        (yin.maxLag sampleRate) (yin.minLag sampleRate) with
    | none => rfl
    | some lag =>
        dsimp only [Option.bind_eq_bind, Option.bind_some]
        rw [refineIn?_eq_some]
        rfl

/-- One more frame is analysed in buffers that fit. -/
theorem exists_frame_succ (samples : Array α) {state : List (Frame α) × Buffers α} {i : Nat}
    (hfit : state.2.Fit (yin.maxLag sampleRate))
    (hframes : state.1 =
      (List.range i).map fun i => yin.frameAt samples sampleRate (i * yin.step)) :
    ∃ following : List (Frame α) × Buffers α, (do
        let (frame, buffers) ← yin.frameIn? samples sampleRate (i * yin.step) state.2
        return (state.1 ++ [frame], buffers)) = some following ∧
      following.2.Fit (yin.maxLag sampleRate) ∧
      following.1 =
        (List.range (i + 1)).map fun i => yin.frameAt samples sampleRate (i * yin.step) := by
  obtain ⟨buffers, hframe, hkept⟩ := frameIn?_eq_some samples (i * yin.step) hfit
  refine ⟨_, by rw [hframe]; rfl, hkept, ?_⟩
  rw [List.range_succ, List.map_append, hframes]
  rfl

/-- The loop gives the frames of the analysis, whatever its buffers hold at the start. -/
theorem estimateIn?_eq_some (samples : Array α) (hfit : buffers.Fit (yin.maxLag sampleRate)) :
    yin.estimateIn? samples sampleRate buffers = some (yin.estimate samples sampleRate) := by
  have hrun : ∃ last : List (Frame α) × Buffers α,
      (List.range ((samples.size + yin.step - 1) / yin.step)).foldlM (fun state i => do
        let (frame, buffers) ← yin.frameIn? samples sampleRate (i * yin.step) state.2
        return (state.1 ++ [frame], buffers)) ([], buffers) = some last ∧
      last.2.Fit (yin.maxLag sampleRate) ∧ last.1 = yin.estimate samples sampleRate := by
    refine exists_foldlM_range (fun k (state : List (Frame α) × Buffers α) =>
      state.2.Fit (yin.maxLag sampleRate) ∧
        state.1 = (List.range k).map fun i => yin.frameAt samples sampleRate (i * yin.step))
      ⟨hfit, rfl⟩ fun i hi state hstate => ?_
    exact exists_frame_succ samples hstate.1 hstate.2
  obtain ⟨last, hlast, -, hframes⟩ := hrun
  rw [← hframes]
  exact congrArg (· >>= fun state => some state.1) hlast

/-! ## Independence -/

/-- The frames of an analysis do not depend on each other. -/
structure Independent (yin : Yin α) (samples : Array α) (sampleRate : Nat) : Prop where
  /-- There are as many as hops begin, so the number of hops is rounded up. -/
  count : (yin.estimate samples sampleRate).length = samples.size ⌈/⌉ yin.step
  /-- Without the samples of the first hops they are those after the first frames. -/
  later : ∀ k, yin.estimate (samples.drop (k * yin.step)) sampleRate =
    (yin.estimate samples sampleRate).drop k
  /-- Samples that are appended change no frame that is compared over those before them. -/
  appended : ∀ (more : Array α) (i : Nat), i < (yin.estimate samples sampleRate).length →
    i * yin.step + 2 * yin.maxLag sampleRate ≤ samples.size →
    (yin.estimate (samples ++ more) sampleRate)[i]? = (yin.estimate samples sampleRate)[i]?
  /-- One after another in the same buffers they are the same, and no access is outside of a buffer.
  -/
  inBuffers : yin.estimateIn? samples sampleRate (.zeros (yin.maxLag sampleRate)) =
    some (yin.estimate samples sampleRate)
  /-- This does not depend on what the buffers hold before the first. -/
  anyBuffers : ∀ buffers : Buffers α, buffers.Fit (yin.maxLag sampleRate) →
    yin.estimateIn? samples sampleRate buffers = some (yin.estimate samples sampleRate)
  /-- A frame that would be compared over more samples than there are has no pitch. -/
  tail : ∀ (i : Nat) (frame : Frame α), (yin.estimate samples sampleRate)[i]? = some frame →
    samples.size < i * yin.step + 2 * yin.maxLag sampleRate → frame.isVoiced = false

/-- No frame of an analysis depends on another one: not on the samples before it, nor on those after
it, nor on what the frames before it have left in the buffers that they share. -/
theorem frames_independent (yin : Yin Double) (samples : Array Double) (sampleRate : Nat) :
    Independent yin samples sampleRate where
  count := by
    rw [Nat.ceilDiv_eq_add_pred_div]
    simp [estimate]
  later := estimate_drop yin samples sampleRate
  appended more i hi hinside := getElem?_estimate_append more hi hinside
  inBuffers := estimateIn?_eq_some samples (Buffers.fit_zeros (yin.maxLag sampleRate))
  anyBuffers buffers hfit := estimateIn?_eq_some samples hfit
  tail i frame hframe hout := by
    obtain ⟨-, rfl⟩ := getElem?_estimate_eq_some_iff.mp hframe
    have hzero : ¬ (0.0 : Double) < 0.0 := by decide
    rw [frameAt_eq, if_pos (.inr hout)]
    exact decide_eq_false hzero

end SingingVoice.Yin
