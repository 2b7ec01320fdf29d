import Mathlib
import SingingVoice.Proofs.Resampling.Channels
import SingingVoice.Proofs.Segment.Parts
import SingingVoice.Segment.Overlay

/-!
# Sizes after operations

How many frames the operations on segments leave, and in which format. `ofSamples` stands at the end
of most of them and would leave out a partial frame; the sizes say that there is none.
-/

namespace SingingVoice.Segment

variable {α : Type}

/-- Frames that are counted end before the samples do. -/
theorem end_of_frames_le {samples : Array α} {size count : Nat}
    (h : count ≤ samples.size / size) : count * size ≤ samples.size :=
  Nat.le_trans (Nat.mul_le_mul_right size h) (Nat.div_mul_le_self samples.size size)

/-- The first frames of a segment are so many samples for each. -/
theorem size_first_frames {segment : Segment α} {count : Nat} (hcount : count ≤ segment.frames) :
    (segment.samples.extract 0 (count * segment.format.frameSize)).size =
      count * segment.format.frameSize := by
  rw [Array.size_extract, Nat.sub_zero, Nat.min_eq_left (end_of_frames_le hcount)]

/-- The frames of a segment after the first ones are so many samples for each. -/
theorem size_last_frames {segment : Segment α} (hwhole : segment.WholeFrames) (count : Nat) :
    (segment.samples.extract (count * segment.format.frameSize) segment.samples.size).size =
      (segment.frames - count) * segment.format.frameSize := by
  rw [Array.size_extract, Nat.min_self, Nat.sub_mul]
  exact congrArg (· - _) hwhole

variable [Scalar α]

/-- A gain keeps the number of samples. -/
@[simp] theorem size_gain (segment : Segment α) (gain : α) :
    (segment.gain gain).samples.size = segment.samples.size :=
  Array.size_map

/-- A gain keeps the number of frames. -/
@[simp] theorem frames_gain (segment : Segment α) (gain : α) :
    (segment.gain gain).frames = segment.frames := by
  rw [frames, frames, size_gain]
  rfl

/-- A gain keeps the frames whole. -/
theorem whole_frames_gain {segment : Segment α} (hwhole : segment.WholeFrames) (gain : α) :
    (segment.gain gain).WholeFrames := by
  have hsize : (segment.gain gain).samples.size =
      segment.frames * (segment.gain gain).format.frameSize := (size_gain segment gain).trans hwhole
  exact whole_frames_of_size hsize

/-- A fade keeps the format and the number of samples. -/
theorem size_fade {segment result : Segment α} {fromGain toGain : α} {start? stop? : Option α}
    (h : segment.fade fromGain toGain start? stop? = .ok result) :
    result.format = segment.format ∧ result.samples.size = segment.samples.size := by
  unfold fade at h
  split at h
  · cases h
  · split at h
    · cases h
    · dsimp only at h
      split at h
      · cases h
      · split at h
        · cases h
          exact ⟨rfl, rfl⟩
        · cases h
          exact ⟨rfl, Array.size_mapIdx⟩

/-- A fade keeps the frames whole. -/
theorem whole_frames_fade {segment result : Segment α} {fromGain toGain : α}
    {start? stop? : Option α} (hwhole : segment.WholeFrames)
    (h : segment.fade fromGain toGain start? stop? = .ok result) : result.WholeFrames := by
  obtain ⟨hformat, hsize⟩ := size_fade h
  have hframes : result.samples.size = segment.frames * result.format.frameSize := by
    rw [hsize, hformat]
    exact hwhole
  exact whole_frames_of_size hframes

/-- There is one sample per channel of the new layout for each frame. -/
theorem size_setChannels {segment : Segment α} (hwhole : segment.WholeFrames)
    (channels : Channels) :
    (segment.setChannels channels).samples.size =
      segment.frames * (segment.setChannels channels).format.frameSize := by
  obtain ⟨samples, rate, layout⟩ := segment
  cases layout with
  | mono =>
      have hframes : (⟨samples, rate, .mono⟩ : Segment α).frames = samples.size :=
        Nat.div_one samples.size
      cases channels with
      | mono => exact hwhole
      | stereo =>
          show (samples.flatMap fun x => #[x, x]).size = _ * 2
          rw [hframes, Array.size_flatMap]
          show (samples.map fun _ => 2).sum = samples.size * 2
          rw [Array.map_const', Array.sum_replicate_nat]
  | stereo =>
      cases channels with
      | mono => exact Array.size_ofFn.trans (Nat.mul_one _).symm
      | stereo => exact hwhole

/-- Whole frames are whole frames in another layout. -/
theorem whole_frames_setChannels {segment : Segment α} (hwhole : segment.WholeFrames)
    (channels : Channels) : (segment.setChannels channels).WholeFrames :=
  whole_frames_of_size (size_setChannels hwhole channels)

/-- A change of the layout keeps the number of frames. -/
theorem frames_setChannels {segment : Segment α} (hwhole : segment.WholeFrames)
    (channels : Channels) : (segment.setChannels channels).frames = segment.frames :=
  frames_of_size (size_setChannels hwhole channels)

/-- Segments of one format overlap in a crossfade by the frames that it is made of. Nothing else is
lost. -/
theorem frames_crossfade {first second result : Segment α} {count : Nat}
    (hwhole : second.WholeFrames) (hformat : second.format = first.format)
    (hfirst : count ≤ first.frames) (hsecond : count ≤ second.frames)
    (h : first.crossfade second count = .ok result) :
    result.format = first.format ∧ result.WholeFrames ∧
      result.frames + count = first.frames + second.frames := by
  obtain ⟨fadeOut, hout, h⟩ := Except.bind_eq_ok.mp h
  obtain ⟨fadeIn, hin, h⟩ := Except.bind_eq_ok.mp h
  cases h
  refine ⟨rfl, whole_frames_ofSamples _ _, ?_⟩
  -- both fades are as long as the crossfade, so adding them sample by sample drops nothing
  have hblend : (Array.zipWith (· + ·) fadeOut.samples fadeIn.samples).size =
      count * first.format.frameSize := by
    rw [Array.size_zipWith, (size_fade hout).2, (size_fade hin).2, size_sliceFrames,
      size_sliceFrames, hformat, Nat.mul_min_mul_right]
    congr 1
    omega
  have hhead := size_first_frames (Nat.sub_le first.frames count)
  have htail := size_last_frames hwhole count
  rw [hformat] at htail
  rw [frames_ofSamples, Array.size_append, Array.size_append, hhead, hblend, htail, ← Nat.add_mul,
    ← Nat.add_mul, Nat.mul_div_cancel _ first.format.frameSize_pos]
  omega

/-- The frames by which two segments overlap that are crossfaded over a number of milliseconds. -/
def blend (first second : Segment α) (ms : α) : Nat :=
  min (min (first.format.framesIn ms) first.frames) second.frames

theorem blend_le_first (first second : Segment α) (ms : α) :
    first.blend second ms ≤ first.frames :=
  Nat.le_trans (Nat.min_le_left _ _) (Nat.min_le_right _ _)

theorem blend_le_second (first second : Segment α) (ms : α) :
    first.blend second ms ≤ second.frames :=
  Nat.min_le_right _ _

variable [Resampler α]

/-- The samples of a conversion are whole frames. -/
theorem size_convert {segment : Segment α} {ratio : α} {samples : Array α}
    (h : segment.convert ratio = .ok samples) :
    samples.size = Resampler.outputFrames segment.frames ratio * segment.format.frameSize := by
  unfold convert at h
  dsimp only at h
  cases hchannels : Resampler.resampleChannels
      (Interleave.split segment.samples segment.format.frameSize) ratio with
  | error reason =>
      rw [hchannels] at h
      cases h
  | ok channels =>
      rw [hchannels] at h
      cases h
      obtain ⟨hcount, hlong⟩ := Resampler.size_resampleChannels hchannels
      have hframes : Resampler.frameCount
          (Interleave.split segment.samples segment.format.frameSize) = segment.frames :=
        Resampler.frameCount_split segment.format.frameSize_pos segment.samples
      rw [Interleave.size_join hlong, hcount, Interleave.size_split, hframes]

/-- A segment at another rate has all samples of the conversion. -/
theorem resample_cases {segment result : Segment α} {rate : Nat}
    (h : segment.resample rate = .ok result) :
    result = segment ∨ ∃ ratio samples, segment.convert ratio = .ok samples ∧
      result = ⟨samples, { segment.format with sampleRate := rate }⟩ := by
  unfold resample at h
  split at h
  · cases h
    exact .inl rfl
  · obtain ⟨samples, hsamples, h⟩ := Except.bind_eq_ok.mp h
    cases h
    exact .inr ⟨_, samples, hsamples, ofSamples_of_size (size_convert hsamples)⟩

/-- A segment at another speed has all samples of the conversion. -/
theorem samples_respeed {segment result : Segment α} {ratio : α}
    (h : segment.respeed ratio = .ok result) :
    ∃ samples, segment.convert ratio = .ok samples ∧ result = ⟨samples, segment.format⟩ := by
  obtain ⟨samples, hsamples, h⟩ := Except.bind_eq_ok.mp h
  cases h
  exact ⟨samples, hsamples, ofSamples_of_size (size_convert hsamples)⟩

/-- Whole frames are whole frames at another rate. -/
theorem whole_frames_resample {segment result : Segment α} {rate : Nat}
    (hwhole : segment.WholeFrames) (h : segment.resample rate = .ok result) :
    result.WholeFrames := by
  rcases resample_cases h with rfl | ⟨ratio, samples, hsamples, rfl⟩
  · exact hwhole
  · have hsize := size_convert hsamples
    exact whole_frames_of_size hsize

/-- A segment is made of whole frames at another speed. -/
theorem whole_frames_respeed {segment result : Segment α} {ratio : α}
    (h : segment.respeed ratio = .ok result) : result.WholeFrames := by
  obtain ⟨samples, hsamples, rfl⟩ := samples_respeed h
  have hsize := size_convert hsamples
  exact whole_frames_of_size hsize

/-- Whole frames are whole frames in another format. -/
theorem whole_frames_conform {segment result : Segment α} {format : Format}
    (hwhole : segment.WholeFrames) (h : segment.conform format = .ok result) :
    result.WholeFrames :=
  whole_frames_resample (whole_frames_setChannels hwhole format.channels) h

/-! ## Appending -/

/-- A segment is brought to the format of the one that it is appended to. Without a crossfade it is
put after it; with one that is not longer than either of them they are crossfaded by their blend, if
that has a frame. -/
theorem append_cases {first second result : Segment α} {ms : α}
    (h : first.append second ms = .ok result) :
    ∃ conformed, second.conform first.format = .ok conformed ∧
      ((ms ≤ 0.0 ∧ result = first.concat conformed) ∨
        (¬ Scalar.ofNat first.length < ms ∧ ¬ Scalar.ofNat conformed.length < ms ∧
          ((first.blend conformed ms = 0 ∧ result = first.concat conformed) ∨
            (0 < first.blend conformed ms ∧
              first.crossfade conformed (first.blend conformed ms) = .ok result)))) := by
  obtain ⟨conformed, hconform, h⟩ := Except.bind_eq_ok.mp h
  refine ⟨conformed, hconform, ?_⟩
  dsimp only at h
  split at h
  · rename_i hms
    cases h
    exact .inl ⟨hms, rfl⟩
  · split at h
    · cases h
    · rename_i hfirst
      split at h
      · cases h
      · rename_i hsecond
        refine .inr ⟨hfirst, hsecond, ?_⟩
        split at h
        · rename_i hzero
          cases h
          exact .inl ⟨hzero, rfl⟩
        · rename_i hblend
          exact .inr ⟨Nat.pos_of_ne_zero hblend, h⟩

/-- A segment appended to another, in the format of the other, is added after it but for the frames
that the two overlap by. -/
theorem frames_append {first second result : Segment α} {ms : α} (hfirst : first.WholeFrames)
    (hsecond : second.WholeFrames) (h : first.append second ms = .ok result) :
    result.format = first.format ∧ result.WholeFrames ∧ ∃ conformed overlap,
      second.conform first.format = .ok conformed ∧
      overlap ≤ first.frames ∧ overlap ≤ conformed.frames ∧
      result.frames + overlap = first.frames + conformed.frames := by
  obtain ⟨conformed, hconform, hcases⟩ := append_cases h
  have hformat := format_conform hconform
  have hwhole := whole_frames_conform hsecond hconform
  have hconcat : (first.concat conformed).frames + 0 = first.frames + conformed.frames :=
    frames_concat hfirst hformat
  rcases hcases with ⟨-, rfl⟩ | ⟨-, -, ⟨-, rfl⟩ | ⟨-, hcrossfade⟩⟩
  · exact ⟨rfl, whole_frames_ofSamples _ _, conformed, 0, hconform, Nat.zero_le _, Nat.zero_le _,
      hconcat⟩
  · exact ⟨rfl, whole_frames_ofSamples _ _, conformed, 0, hconform, Nat.zero_le _, Nat.zero_le _,
      hconcat⟩
  · have hle := blend_le_first first conformed ms
    have hle' := blend_le_second first conformed ms
    obtain ⟨hkept, hresult, hframes⟩ := frames_crossfade hwhole hformat hle hle' hcrossfade
    exact ⟨hkept, hresult, conformed, _, hconform, hle, hle', hframes⟩

end SingingVoice.Segment
