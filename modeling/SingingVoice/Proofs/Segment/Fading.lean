import Mathlib
import SingingVoice.Proofs.Exact.Duration
import SingingVoice.Proofs.Segment.Regions
import SingingVoice.Segment.Fade

/-!
# Fades in exact arithmetic

A fade over a whole segment that does not amplify never fails if the segment has frames, and
multiplies every frame by its gain on the way from one end to the other (`fade_eq_faded`). The two
fades of a crossfade are such fades: the last frames of a segment fade out, and the first frames of
a segment fade in.
-/

namespace SingingVoice.Segment

section Samples

variable {α : Type} [Scalar α] {frame channel : Nat}

/-- Every sample of a segment is passed through the function with its frame. -/
theorem sample_mapFrames {segment : Segment α} (hwhole : segment.WholeFrames) (f : Nat → α → α)
    (hframe : frame < segment.frames) (hchannel : channel < segment.format.frameSize) :
    (segment.mapFrames f).sample frame channel = f frame (segment.sample frame channel) := by
  show (segment.mapFrames f).samples.getD (frame * segment.format.frameSize + channel) 0.0 = _
  simp only [mapFrames, Array.getD_eq_getD_getElem?, Array.getElem?_mapIdx,
    getElem?_eq_sample hwhole hframe hchannel, frame_of_place hchannel, Option.map_some,
    Option.getD_some]

end Samples

/-- A segment with frames lasts some time. -/
theorem duration_pos {segment : Segment ℝ} (hrate : 0 < segment.format.sampleRate)
    (hframes : 0 < segment.frames) : 0 < segment.duration := by
  have hrate' : (0 : ℝ) < segment.format.sampleRate := by exact_mod_cast hrate
  have hframes' : (0 : ℝ) < segment.frames := by exact_mod_cast hframes
  rw [duration, Format.millis_eq_time, Format.time]
  positivity

/-- A segment that is faded over all its frames from one gain to another. -/
noncomputable def faded (segment : Segment ℝ) (fromGain toGain : ℝ) : Segment ℝ :=
  segment.mapFrames fun frame x => x * (Ramp.mk fromGain toGain 0 segment.frames).factor frame

section Fades

variable {segment : Segment ℝ} {fromGain toGain : ℝ}

/-- A faded segment has as many samples as before. -/
theorem size_faded (segment : Segment ℝ) (fromGain toGain : ℝ) :
    (segment.faded fromGain toGain).samples.size = segment.samples.size :=
  Array.size_mapIdx

/-- A ramp over all frames of a segment has the gain of each frame on the way. -/
theorem factor_of_lt {frame count : Nat} (hframe : frame < count) :
    (Ramp.mk fromGain toGain 0 count).factor frame =
      amplitude (fromGain + (toGain - fromGain) * (frame / count)) := by
  have hcount : max count 1 = count := by omega
  simp only [Ramp.factor, Nat.not_lt_zero, ↓reduceIte, Nat.not_le.mpr hframe, Nat.sub_zero, hcount,
    Exact.ofNat_eq]

/-- The samples of a faded segment. -/
theorem sample_faded (hwhole : segment.WholeFrames) (fromGain toGain : ℝ) {frame channel : Nat}
    (hframe : frame < segment.frames) (hchannel : channel < segment.format.frameSize) :
    (segment.faded fromGain toGain).sample frame channel =
      segment.sample frame channel *
        amplitude (fromGain + (toGain - fromGain) * (frame / segment.frames)) := by
  rw [faded, sample_mapFrames hwhole _ hframe hchannel, factor_of_lt hframe]

/-- In exact arithmetic a fade that does not amplify and begins or ends below full gain never fails
on a segment with frames, and gives every frame its gain. -/
theorem fade_eq_faded (hrate : 0 < segment.format.sampleRate) (hframes : 0 < segment.frames)
    (hfrom : fromGain ≤ 0) (hto : toGain ≤ 0) (hquiet : fromGain < 0 ∨ toGain < 0) :
    segment.fade fromGain toGain none none = .ok (segment.faded fromGain toGain) := by
  have hduration := duration_pos hrate hframes
  have hfull : ¬ ((fromGain == (0.0 : ℝ)) && (toGain == (0.0 : ℝ))) = true := by
    show ¬ (decide (fromGain = 0.0) && decide (toGain = 0.0)) = true
    rw [Exact.zero_eq, Bool.and_eq_true, decide_eq_true_eq, decide_eq_true_eq]
    rintro ⟨hfrom, hto⟩
    rcases hquiet with h | h <;> linarith
  have hstart : min (segment.format.framesIn (0.0 : ℝ)) segment.frames = 0 := by
    rw [Exact.zero_eq, Format.framesIn_of_nonpos le_rfl, Nat.zero_min]
  have hstop : min (segment.format.framesIn segment.duration) segment.frames = segment.frames := by
    rw [duration, Format.framesIn_millis hrate, Nat.min_self]
  -- neither gain amplifies, the window is not empty, and it is the whole segment
  unfold fade
  dsimp only [Option.getD_none]
  rw [if_neg (not_lt.mpr (Exact.zero_eq ▸ hfrom)), if_neg (not_lt.mpr (Exact.zero_eq ▸ hto)),
    if_neg (not_le.mpr (Exact.zero_eq ▸ hduration)), if_neg hfull, hstart, hstop]
  rfl

end Fades

/-! ## Ends that fade -/

/-- The quiet end of a crossfade. -/
theorem silenceGain_eq : (silenceGain : ℝ) = -120 := by
  norm_num [silenceGain]

/-- The last frames of a segment, so many of them, fading out. -/
noncomputable def fadingOut (segment : Segment ℝ) (count : Nat) : Segment ℝ :=
  (segment.sliceFrames (segment.frames - count) segment.frames).faded 0 silenceGain

/-- The first frames of a segment, so many of them, fading in. -/
noncomputable def fadingIn (segment : Segment ℝ) (count : Nat) : Segment ℝ :=
  (segment.sliceFrames 0 count).faded silenceGain 0

section Ends

variable {segment : Segment ℝ} {count frame channel : Nat}

/-- So many frames fade out. -/
theorem size_fadingOut (hcount : count ≤ segment.frames) :
    (segment.fadingOut count).samples.size = count * segment.format.frameSize := by
  rw [fadingOut, size_faded, size_sliceFrames]
  congr 1
  omega

/-- So many frames fade in. -/
theorem size_fadingIn (hcount : count ≤ segment.frames) :
    (segment.fadingIn count).samples.size = count * segment.format.frameSize := by
  rw [fadingIn, size_faded, size_sliceFrames]
  congr 1
  omega

/-- Each of the last frames has its gain on the way down. -/
theorem sample_fadingOut (hcount : count ≤ segment.frames) (hframe : frame < count)
    (hchannel : channel < segment.format.frameSize) :
    (segment.fadingOut count).sample frame channel =
      segment.sample (segment.frames - count + frame) channel *
        amplitude (-120 * (frame / count) : ℝ) := by
  have hregion := region_sliceFrames (Nat.sub_le segment.frames count) (Nat.le_refl _)
  have hframes : segment.frames - (segment.frames - count) = count := by omega
  rw [fadingOut, sample_faded hregion.whole _ _ (by rw [hregion.frames]; omega) hchannel,
    hregion.samples frame (by omega) channel hchannel, hregion.frames, hframes, silenceGain_eq]
  congr 2
  ring

/-- Each of the first frames has its gain on the way up. -/
theorem sample_fadingIn (hcount : count ≤ segment.frames) (hframe : frame < count)
    (hchannel : channel < segment.format.frameSize) :
    (segment.fadingIn count).sample frame channel =
      segment.sample frame channel * amplitude (-120 * (1 - frame / count) : ℝ) := by
  have hregion := region_sliceFrames (Nat.zero_le count) hcount
  rw [fadingIn, sample_faded hregion.whole _ _ (by rw [hregion.frames]; omega) hchannel,
    hregion.samples frame (by omega) channel hchannel, hregion.frames, Nat.zero_add, Nat.sub_zero,
    silenceGain_eq]
  congr 2
  ring

/-- The fade over the last frames of a segment never fails. -/
theorem fade_last_frames (hrate : 0 < segment.format.sampleRate) (hcount : 0 < count)
    (hle : count ≤ segment.frames) :
    (segment.sliceFrames (segment.frames - count) segment.frames).fade 0 silenceGain none none =
      .ok (segment.fadingOut count) := by
  refine fade_eq_faded hrate ?_ le_rfl ?_ (.inr ?_)
  · rw [frames_sliceFrames]
    omega
  · norm_num [silenceGain_eq]
  · norm_num [silenceGain_eq]

/-- The fade over the first frames of a segment never fails. -/
theorem fade_first_frames (hrate : 0 < segment.format.sampleRate) (hcount : 0 < count)
    (hle : count ≤ segment.frames) :
    (segment.sliceFrames 0 count).fade silenceGain 0 none none = .ok (segment.fadingIn count) := by
  refine fade_eq_faded hrate ?_ ?_ le_rfl (.inl ?_)
  · rw [frames_sliceFrames]
    omega
  · norm_num [silenceGain_eq]
  · norm_num [silenceGain_eq]

end Ends

end SingingVoice.Segment
