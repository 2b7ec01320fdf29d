import SingingVoice.Yin

/-!
# Frames of an analysis

An analysis has one frame for every hop begun (`getElem?_estimate`), and a frame has its amplitude
and, if it is loud enough and inside the samples, the frequency of its dip (`frameAt_eq`). A frame
is decided by the samples that it is compared over, so it does not matter how many samples come
before it (`frameAt_drop`) nor what follows them (`frameAt_append`).
-/

namespace SingingVoice.Yin

variable {α : Type}

/-- A frame starts after the one before. -/
theorem step_pos (yin : Yin α) : 0 < yin.step := by
  unfold step
  omega

/-- What is left after samples are dropped. -/
theorem getElem?_drop (samples : Array α) (offset i : Nat) :
    (samples.drop offset)[i]? = samples[offset + i]? := by
  rw [Array.drop_eq_extract, Array.getElem?_extract]
  split
  next => rfl
  next hi => exact (Array.getElem?_eq_none (by omega)).symm

variable [Scalar α] {yin : Yin α} {samples : Array α} {sampleRate start : Nat}

/-! ## One frame -/

/-- The root of the mean square of `count` samples from index `start` on. -/
def amplitudeAt (samples : Array α) (start count : Nat) : α :=
  Scalar.sqrt (energy samples start count / Scalar.ofNat count)

/-- The lag that the search stops at in the frame that starts at index `start`. -/
def dip? (yin : Yin α) (samples : Array α) (sampleRate start : Nat) : Option Nat :=
  firstDip? yin.threshold (normalized samples start (yin.maxLag sampleRate)) (yin.maxLag sampleRate)
    (yin.minLag sampleRate)

/-- The frequency of the lag that the search stops at, zero if it stops at none. -/
def frequencyAt (yin : Yin α) (samples : Array α) (sampleRate start : Nat) : α :=
  (yin.dip? samples sampleRate start).elim 0.0 fun lag =>
    Scalar.ofNat sampleRate / refine (normalized samples start (yin.maxLag sampleRate)) lag

/-- A frame has the frequency of its dip if it is loud enough and inside the samples. -/
theorem frameAt_eq (yin : Yin α) (samples : Array α) (sampleRate start : Nat) :
    yin.frameAt samples sampleRate start =
      ⟨if amplitudeAt samples start (yin.maxLag sampleRate) < silence ∨
          samples.size < start + 2 * yin.maxLag sampleRate then 0.0
        else yin.frequencyAt samples sampleRate start,
      amplitudeAt samples start (yin.maxLag sampleRate)⟩ := by
  unfold frameAt frequencyAt dip? amplitudeAt
  dsimp only
  split
  next => rfl
  next => split <;> rename_i h <;> rw [h] <;> rfl

/-- Every frame has its amplitude. -/
@[simp] theorem amplitude_frameAt :
    (yin.frameAt samples sampleRate start).amplitude =
      amplitudeAt samples start (yin.maxLag sampleRate) := by
  rw [frameAt_eq]

/-! ## All frames -/

/-- There is a frame for every hop that begins within the samples. -/
theorem getElem?_estimate (yin : Yin α) (samples : Array α) (sampleRate i : Nat) :
    (yin.estimate samples sampleRate)[i]? =
      if i * yin.step < samples.size then some (yin.frameAt samples sampleRate (i * yin.step))
      else none := by
  have hcount : i < (samples.size + yin.step - 1) / yin.step ↔ i * yin.step < samples.size := by
    have hpos := yin.step_pos
    rw [Nat.lt_iff_add_one_le, Nat.le_div_iff_mul_le hpos, Nat.add_mul]
    omega
  unfold estimate
  dsimp only
  rw [List.getElem?_map]
  by_cases hi : i * yin.step < samples.size
  · rw [List.getElem?_range (hcount.mpr hi), if_pos hi]
    rfl
  · have hlength : (List.range ((samples.size + yin.step - 1) / yin.step)).length ≤ i := by
      rw [List.length_range]
      exact Nat.not_lt.mp (mt hcount.mp hi)
    rw [List.getElem?_eq_none hlength, if_neg hi]
    rfl

/-- A frame of an analysis begins within the samples. -/
theorem getElem?_estimate_eq_some_iff {i : Nat} {frame : Frame α} :
    (yin.estimate samples sampleRate)[i]? = some frame ↔
      i * yin.step < samples.size ∧ yin.frameAt samples sampleRate (i * yin.step) = frame := by
  rw [getElem?_estimate]
  split <;> simp [*]

/-! ## What decides a frame -/

variable {other : Array α} {start' count : Nat}

/-- So many samples from one index on are those of another array from another index on. -/
def SameSamples (samples : Array α) (start : Nat) (other : Array α) (start' count : Nat) : Prop :=
  ∀ i < count, other.getD (start' + i) 0.0 = samples.getD (start + i) 0.0

/-- The same samples have the same energy. -/
theorem SameSamples.energy_eq (h : SameSamples samples start other start' count) :
    energy other start' count = energy samples start count := by
  unfold energy
  congr 1
  funext i hi total
  rw [h i hi]

/-- The same samples have the same difference at every lag up to half of them. -/
theorem SameSamples.difference_eq {window lag : Nat}
    (h : SameSamples samples start other start' (2 * window)) (hlag : lag ≤ window) :
    difference other start' window lag = difference samples start window lag := by
  unfold difference
  congr 1
  funext i hi total
  rw [h i (by omega), Nat.add_assoc, Nat.add_assoc, h (lag + i) (by omega)]

/-- The same samples have the same normalised differences. -/
theorem SameSamples.normalized_eq {window : Nat}
    (h : SameSamples samples start other start' (2 * window)) :
    normalized other start' window = normalized samples start window := by
  have hdifferences : ((List.range window).map fun i => difference other start' window (i + 1)) =
      (List.range window).map fun i => difference samples start window (i + 1) :=
    List.map_congr_left fun i hi => h.difference_eq (List.mem_range.mp hi)
  unfold normalized
  rw [hdifferences]

/-- Frames with the same samples, both inside of all samples or both not, are the same. -/
theorem SameSamples.frameAt_eq
    (h : SameSamples samples start other start' (2 * yin.maxLag sampleRate))
    (hinside : other.size < start' + 2 * yin.maxLag sampleRate ↔
      samples.size < start + 2 * yin.maxLag sampleRate) :
    yin.frameAt other sampleRate start' = yin.frameAt samples sampleRate start := by
  have hwindow : SameSamples samples start other start' (yin.maxLag sampleRate) :=
    fun i hi => h i (by omega)
  rw [Yin.frameAt_eq, Yin.frameAt_eq, frequencyAt, frequencyAt, dip?, dip?, amplitudeAt,
    amplitudeAt, h.normalized_eq, hwindow.energy_eq]
  simp only [hinside]

/-- A frame is the same if samples before it are dropped. -/
theorem frameAt_drop {offset : Nat} (hoffset : offset ≤ samples.size) :
    yin.frameAt (samples.drop offset) sampleRate start =
      yin.frameAt samples sampleRate (offset + start) := by
  refine SameSamples.frameAt_eq (fun i _ => ?_) ?_
  · rw [Array.getD_eq_getD_getElem?, Array.getD_eq_getD_getElem?, Nat.add_assoc, getElem?_drop]
  · rw [Array.drop_eq_extract, Array.size_extract]
    omega

/-- A frame is the same if samples are appended after those that it is compared over. -/
theorem frameAt_append (more : Array α)
    (hinside : start + 2 * yin.maxLag sampleRate ≤ samples.size) :
    yin.frameAt (samples ++ more) sampleRate start = yin.frameAt samples sampleRate start := by
  refine SameSamples.frameAt_eq (fun i hi => ?_) ?_
  · rw [Array.getD_eq_getD_getElem?, Array.getD_eq_getD_getElem?,
      Array.getElem?_append_left (by omega)]
  · rw [Array.size_append]
    omega

/-- Without the samples of the first frames the other frames are the same. -/
theorem estimate_drop (yin : Yin α) (samples : Array α) (sampleRate k : Nat) :
    yin.estimate (samples.drop (k * yin.step)) sampleRate =
      (yin.estimate samples sampleRate).drop k := by
  refine List.ext_getElem? fun i => ?_
  have hindex : k * yin.step + i * yin.step = (k + i) * yin.step := (Nat.add_mul k i yin.step).symm
  have hbegins : i * yin.step < (samples.drop (k * yin.step)).size ↔
      (k + i) * yin.step < samples.size := by
    rw [← hindex, Array.drop_eq_extract, Array.size_extract]
    omega
  rw [List.getElem?_drop, getElem?_estimate, getElem?_estimate]
  simp only [hbegins]
  split
  next hi => rw [frameAt_drop (by omega), hindex]
  next => rfl

/-- Appended samples change no frame that is compared over samples before them. -/
theorem getElem?_estimate_append (more : Array α) {i : Nat}
    (hi : i < (yin.estimate samples sampleRate).length)
    (hinside : i * yin.step + 2 * yin.maxLag sampleRate ≤ samples.size) :
    (yin.estimate (samples ++ more) sampleRate)[i]? = (yin.estimate samples sampleRate)[i]? := by
  obtain ⟨hbegins, -⟩ := getElem?_estimate_eq_some_iff.mp (List.getElem?_eq_getElem hi)
  rw [getElem?_estimate, getElem?_estimate, if_pos hbegins, frameAt_append more hinside,
    if_pos (by rw [Array.size_append]; omega)]

end SingingVoice.Yin
