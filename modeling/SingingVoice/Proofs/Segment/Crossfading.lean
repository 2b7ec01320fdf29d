import Mathlib
import SingingVoice.Proofs.Segment.Seams
import SingingVoice.Resampling.Sinc

/-!
# Crossfades

In exact arithmetic two segments of one format are appended with every crossfade that is not longer
than either of them in whole milliseconds, and with no other positive one
(`append_fails_or_blends`). The result is made of three parts: the beginning of the first segment,
the frames in which the first fades out while the second fades in, and the rest of the second
(`crossfade_eq`).
-/

namespace SingingVoice.Segment

/-! ## Samples of parts -/

section Samples

variable {α : Type} [Scalar α] {first second : Segment α} {frame channel : Nat}

/-- A join begins with the samples of the first segment. -/
theorem sample_concat_of_lt (hfirst : first.WholeFrames) (hsecond : second.WholeFrames)
    (hformat : second.format = first.format) (hframe : frame < first.frames)
    (hchannel : channel < first.format.frameSize) :
    (first.concat second).sample frame channel = first.sample frame channel := by
  have hplace : frame * first.format.frameSize + channel < first.samples.size := by
    rw [hfirst]
    exact (frame_index_lt_iff hchannel).mpr hframe
  rw [concat_eq hfirst hsecond hformat]
  simp only [sample, Array.getD_eq_getD_getElem?, Array.getElem?_append_left hplace]

/-- After the first segment a join has the samples of the second. -/
theorem sample_concat_add (hfirst : first.WholeFrames) (hsecond : second.WholeFrames)
    (hformat : second.format = first.format) (frame channel : Nat) :
    (first.concat second).sample (first.frames + frame) channel = second.sample frame channel := by
  have hplace : (first.frames + frame) * first.format.frameSize + channel =
      first.samples.size + (frame * second.format.frameSize + channel) := by
    rw [hfirst, hformat, Nat.add_mul, Nat.add_assoc]
  rw [concat_eq hfirst hsecond hformat]
  simp only [sample, Array.getD_eq_getD_getElem?, hplace, Array.getElem?_append_right,
    Nat.le_add_right, Nat.add_sub_cancel_left]

/-- Two segments of one format and length added, sample to sample. -/
def added (first second : Segment α) : Segment α :=
  ⟨Array.zipWith (· + ·) first.samples second.samples, first.format⟩

/-- The sum of two segments with the same number of samples has that number of samples. -/
theorem size_added (hsize : second.samples.size = first.samples.size) :
    (first.added second).samples.size = first.samples.size := by
  rw [added, Array.size_zipWith, hsize, Nat.min_self]

/-- The samples of a sum. -/
theorem sample_added (hfirst : first.WholeFrames) (hsecond : second.WholeFrames)
    (hformat : second.format = first.format) (hframes : second.frames = first.frames)
    (hframe : frame < first.frames) (hchannel : channel < first.format.frameSize) :
    (first.added second).sample frame channel =
      first.sample frame channel + second.sample frame channel := by
  have hleft := getElem?_eq_sample hfirst hframe hchannel
  have hright := getElem?_eq_sample hsecond (by omega : frame < second.frames)
    (by rw [hformat]; exact hchannel)
  rw [hformat] at hright
  show (first.added second).samples.getD (frame * first.format.frameSize + channel) 0.0 = _
  simp only [added, Array.getD_eq_getD_getElem?, Array.getElem?_zipWith, hleft, hright,
    Option.getD_some]

end Samples

/-! ## Exact crossfades -/

/-- The frames in which two segments overlap that are crossfaded over a number of frames. -/
noncomputable def overlapping (first second : Segment ℝ) (count : Nat) : Segment ℝ :=
  (first.fadingOut count).added (second.fadingIn count)

section Crossfades

variable {segment first second : Segment ℝ} {count frame channel : Nat}

/-- Segments of one format overlap in so many frames. -/
theorem size_overlapping (hformat : second.format = first.format) (hle : count ≤ first.frames)
    (hle' : count ≤ second.frames) :
    (first.overlapping second count).samples.size = count * first.format.frameSize := by
  have hout := size_fadingOut hle
  have hin := size_fadingIn hle'
  rw [hformat] at hin
  rw [overlapping, size_added (hin.trans hout.symm), hout]

/-- Where two segments overlap, the one that fades out is added to the one that fades in. -/
theorem sample_overlapping (hformat : second.format = first.format) (hle : count ≤ first.frames)
    (hle' : count ≤ second.frames) (hframe : frame < count)
    (hchannel : channel < first.format.frameSize) :
    (first.overlapping second count).sample frame channel =
      first.sample (first.frames - count + frame) channel * amplitude (-120 * (frame / count) : ℝ) +
        second.sample frame channel * amplitude (-120 * (1 - frame / count) : ℝ) := by
  have hout : (first.fadingOut count).frames = count := frames_of_size (size_fadingOut hle)
  have hin : (second.fadingIn count).frames = count := frames_of_size (size_fadingIn hle')
  have hkept : (second.fadingIn count).format = (first.fadingOut count).format := hformat
  rw [overlapping, sample_added (whole_frames_of_size (size_fadingOut hle))
      (whole_frames_of_size (size_fadingIn hle')) hkept (hin.trans hout.symm)
      (hout.symm ▸ hframe) hchannel,
    sample_fadingOut hle hframe hchannel, sample_fadingIn hle' hframe (hformat.symm ▸ hchannel)]

/-- In exact arithmetic two segments of one format are crossfaded over any number of their frames.
The result is the beginning of the first, the frames in which they overlap and the rest of the
second. -/
theorem crossfade_eq (hsecond : second.WholeFrames) (hformat : second.format = first.format)
    (hrate : 0 < first.format.sampleRate) (hcount : 0 < count) (hle : count ≤ first.frames)
    (hle' : count ≤ second.frames) :
    first.crossfade second count =
      .ok (((first.sliceFrames 0 (first.frames - count)).concat
        (first.overlapping second count)).concat (second.sliceFrames count second.frames)) := by
  have hout := fade_last_frames hrate hcount hle
  have hin := fade_first_frames (hformat ▸ hrate) hcount hle'
  have hkept : (first.overlapping second count).format =
      (first.sliceFrames 0 (first.frames - count)).format := rfl
  have hparts := concat_eq (whole_frames_sliceFrames first 0 (first.frames - count))
    (whole_frames_of_size (size_overlapping hformat hle hle')) hkept
  unfold crossfade
  dsimp only
  rw [Exact.zero_eq, hout, hin, Except.ok_bind, Except.ok_bind, hparts,
    sliceFrames_zero (Nat.sub_le _ _), sliceFrames_of_le hle' (Nat.le_refl _), ← hsecond, hformat]
  rfl

/-- What two segments crossfaded over a number of frames are: the first up to where they overlap,
the frames in which they overlap, and the second from there on. -/
structure Crossfaded (first second : Segment ℝ) (count : Nat) (result : Segment ℝ) : Prop extends
    Joins first second count result where
  head : ∀ frame < first.frames - count, ∀ channel < first.format.frameSize,
    result.sample frame channel = first.sample frame channel
  blend : ∀ frame < count, ∀ channel < first.format.frameSize,
    result.sample (first.frames - count + frame) channel =
      first.sample (first.frames - count + frame) channel * amplitude (-120 * (frame / count) : ℝ) +
        second.sample frame channel * amplitude (-120 * (1 - frame / count) : ℝ)
  tail : ∀ frame, count ≤ frame → frame < second.frames → ∀ channel < first.format.frameSize,
    result.sample (first.frames - count + frame) channel = second.sample frame channel

/-- Segments that are put one after another are crossfaded over no frames. -/
theorem crossfaded_concat (hfirst : first.WholeFrames) (hsecond : second.WholeFrames)
    (hformat : second.format = first.format) :
    Crossfaded first second 0 (first.concat second) where
  toJoins := joins_concat hfirst hformat
  head _ hframe _ hchannel := sample_concat_of_lt hfirst hsecond hformat hframe hchannel
  blend _ hframe := absurd hframe (Nat.not_lt_zero _)
  tail frame _ _ channel _ := sample_concat_add hfirst hsecond hformat frame channel

/-- What a crossfade over any number of frames gives in exact arithmetic. -/
theorem crossfaded_of_crossfade {result : Segment ℝ} (hsecond : second.WholeFrames)
    (hformat : second.format = first.format) (hrate : 0 < first.format.sampleRate)
    (hcount : 0 < count) (hle : count ≤ first.frames) (hle' : count ≤ second.frames)
    (h : first.crossfade second count = .ok result) : Crossfaded first second count result := by
  have hjoins := joins_crossfade hsecond hformat hle hle' h
  rw [crossfade_eq hsecond hformat hrate hcount hle hle'] at h
  cases h
  have hsize := size_overlapping hformat hle hle'
  have hbefore := region_sliceFrames (Nat.zero_le _) (Nat.sub_le first.frames count)
  have hblend : (first.overlapping second count).WholeFrames := whole_frames_of_size hsize
  have hafter := region_sliceFrames hle' (Nat.le_refl second.frames)
  -- the first two parts together have the frames of the first segment
  have hkept : (first.overlapping second count).format =
      (first.sliceFrames 0 (first.frames - count)).format := rfl
  have hjoined : ((first.sliceFrames 0 (first.frames - count)).concat
      (first.overlapping second count)).WholeFrames := whole_frames_ofSamples _ _
  have hframes : ((first.sliceFrames 0 (first.frames - count)).concat
      (first.overlapping second count)).frames = first.frames := by
    rw [frames_concat hbefore.whole hkept, hbefore.frames, frames_of_size hsize]
    omega
  refine ⟨hjoins, ?_, ?_, ?_⟩
  · intro frame hframe channel hchannel
    rw [sample_concat_of_lt hjoined hafter.whole hformat (by omega) hchannel,
      sample_concat_of_lt hbefore.whole hblend hkept (by rw [hbefore.frames]; omega) hchannel,
      hbefore.samples frame (by omega) channel hchannel, Nat.zero_add]
  · intro frame hframe channel hchannel
    have hplace := sample_concat_add hbefore.whole hblend hkept frame channel
    rw [hbefore.frames, Nat.sub_zero] at hplace
    rw [sample_concat_of_lt hjoined hafter.whole hformat (by omega) hchannel, hplace,
      sample_overlapping hformat hle hle' hframe hchannel]
  · intro frame hfirst hlast channel hchannel
    have hplace := sample_concat_add hjoined hafter.whole hformat (frame - count) channel
    rw [hframes, hafter.samples _ (by omega) _ (hformat.symm ▸ hchannel)] at hplace
    rw [show first.frames - count + frame = first.frames + (frame - count) by omega, hplace,
      Nat.add_sub_cancel' hfirst]

end Crossfades

/-! ## Appending -/

/-- Every twenty decibels less are a tenth of the amplitude. -/
theorem amplitude_of_tens (count : Nat) : amplitude (-(20 * count) : ℝ) = 1 / 10 ^ count := by
  have hgain : (-(20 * count) / 20.0 : ℝ) = -(count : ℝ) := by
    norm_num
    ring
  show (10.0 : ℝ) ^ (-(20 * count) / 20.0 : ℝ) = _
  rw [hgain, Real.rpow_neg (by norm_num), Real.rpow_natCast, one_div]
  norm_num

section Appending

variable [Resampler ℝ] {first second result : Segment ℝ} {ms : ℝ}

/-- In exact arithmetic a positive crossfade that is longer than one of the segments, in whole
milliseconds, is refused, with the length of the first of them that is too short. -/
theorem append_too_long (hformat : second.format = first.format) (hms : 0 < ms) :
    ((first.length : ℝ) < ms →
      first.append second ms = .error (.crossfadeTooLong ms first.length)) ∧
    (ms ≤ first.length → (second.length : ℝ) < ms →
      first.append second ms = .error (.crossfadeTooLong ms second.length)) := by
  unfold append
  rw [conform_self hformat, Except.ok_bind, Exact.zero_eq, if_neg (not_le.mpr hms), Exact.ofNat_eq,
    Exact.ofNat_eq]
  constructor
  · intro hlong
    exact if_pos hlong
  · intro hfirst hlong
    rw [if_neg (not_lt.mpr hfirst)]
    exact if_pos hlong

/-- In exact arithmetic the only error of an append to a segment of the same format is that the
crossfade is too long for the first segment or, if not for that, for the second. -/
theorem append_error {error : SegmentError ℝ} (hformat : second.format = first.format)
    (hrate : 0 < first.format.sampleRate) (h : first.append second ms = .error error) :
    0 < ms ∧
      (((first.length : ℝ) < ms ∧ error = .crossfadeTooLong ms first.length) ∨
        (ms ≤ first.length ∧ (second.length : ℝ) < ms ∧
          error = .crossfadeTooLong ms second.length)) := by
  rcases le_or_gt ms 0 with hms | hms
  · rw [append_of_format hformat (Exact.zero_eq ▸ hms)] at h
    cases h
  · obtain ⟨hfails, hfails'⟩ := append_too_long hformat hms
    rcases lt_or_ge (first.length : ℝ) ms with hlong | hle
    · exact ⟨hms, .inl ⟨hlong, Except.error.inj (h.symm.trans (hfails hlong))⟩⟩
    · rcases lt_or_ge (second.length : ℝ) ms with hlong | hle'
      · exact ⟨hms, .inr ⟨hle, hlong, Except.error.inj (h.symm.trans (hfails' hle hlong))⟩⟩
      · obtain ⟨result, hresult⟩ := exists_append hformat hrate hle hle'
        rw [h] at hresult
        cases hresult

/-- In exact arithmetic what a segment of the same format is appended to is crossfaded with it over
their blend. -/
theorem crossfaded_of_append (hfirst : first.WholeFrames) (hsecond : second.WholeFrames)
    (hformat : second.format = first.format) (hrate : 0 < first.format.sampleRate)
    (h : first.append second ms = .ok result) :
    Crossfaded first second (first.blend second ms) result := by
  obtain ⟨conformed, hconform, hcases⟩ := append_cases h
  obtain rfl : second = conformed := Except.ok.inj ((conform_self hformat).symm.trans hconform)
  have hconcat := crossfaded_concat hfirst hsecond hformat
  rcases hcases with ⟨hms, rfl⟩ | ⟨-, -, ⟨hzero, rfl⟩ | ⟨hblend, hcrossfade⟩⟩
  · rw [Exact.zero_eq] at hms
    exact blend_of_nonpos hms ▸ hconcat
  · exact hzero ▸ hconcat
  · exact crossfaded_of_crossfade hsecond hformat hrate hblend (blend_le_first _ _ _)
      (blend_le_second _ _ _) hcrossfade

/-- In exact arithmetic appending a segment of the same format fails exactly if the crossfade is
positive and longer than one of the two, in whole milliseconds, and the only error is that it is too
long. If it succeeds, the two are crossfaded over their blend, that is the frames of the crossfade
but no more than either has; without a positive crossfade all samples follow one another. -/
theorem append_fails_or_blends (hfirst : first.WholeFrames) (hsecond : second.WholeFrames)
    (hformat : second.format = first.format) (hrate : 0 < first.format.sampleRate) (ms : ℝ) :
    ((∃ error, first.append second ms = .error error) ↔
      0 < ms ∧ ((first.length : ℝ) < ms ∨ (second.length : ℝ) < ms)) ∧
    (∀ error, first.append second ms = .error error →
      ((first.length : ℝ) < ms ∧ error = .crossfadeTooLong ms first.length) ∨
      (ms ≤ first.length ∧ (second.length : ℝ) < ms ∧
        error = .crossfadeTooLong ms second.length)) ∧
    (∀ result, first.append second ms = .ok result →
      Crossfaded first second
        (min (min (first.format.framesIn ms) first.frames) second.frames) result) ∧
    (ms ≤ 0 →
      first.append second ms = .ok ⟨first.samples ++ second.samples, first.format⟩) := by
  refine ⟨⟨?_, ?_⟩, fun error h => (append_error hformat hrate h).2,
    fun result => crossfaded_of_append hfirst hsecond hformat hrate, ?_⟩
  · rintro ⟨error, h⟩
    obtain ⟨hms, ⟨hlong, -⟩ | ⟨-, hlong, -⟩⟩ := append_error hformat hrate h
    · exact ⟨hms, .inl hlong⟩
    · exact ⟨hms, .inr hlong⟩
  · rintro ⟨hms, hlong⟩
    obtain ⟨hfails, hfails'⟩ := append_too_long hformat hms
    rcases lt_or_ge (first.length : ℝ) ms with hlong' | hle
    · exact ⟨_, hfails hlong'⟩
    · exact ⟨_, hfails' hle (hlong.resolve_left (not_lt.mpr hle))⟩
  · intro hms
    rw [append_of_format hformat (Exact.zero_eq ▸ hms), concat_eq hfirst hsecond hformat]

end Appending

/-- Three frames with two after them, crossfaded over two milliseconds of a frame each. In the first
the second segment is as quiet as it can be, and in the second both are at half the way in decibels.
A crossfade of three milliseconds is too long for the second segment. -/
theorem append_two_frames :
    let first : Segment ℝ := ⟨#[1, 1, 1], .mono 1000⟩
    let second : Segment ℝ := ⟨#[3, 3], .mono 1000⟩
    first.WholeFrames ∧ second.WholeFrames ∧ second.format = first.format ∧
      0 < first.format.sampleRate ∧
      (∃ result, first.append second 2 = .ok result ∧ result.frames = 3 ∧
        result.sample 0 0 = 1 ∧ result.sample 1 0 = 1 + 3 / 10 ^ 6 ∧
        result.sample 2 0 = 1 / 10 ^ 3 + 3 / 10 ^ 3) ∧
      first.append second 3 = .error (.crossfadeTooLong 3 2) := by
  intro first second
  have hsize : first.samples.size = 3 * first.format.frameSize := rfl
  have hsize' : second.samples.size = 2 * second.format.frameSize := rfl
  have hfirst : first.WholeFrames := whole_frames_of_size hsize
  have hsecond : second.WholeFrames := whole_frames_of_size hsize'
  have hframes : first.frames = 3 := frames_of_size hsize
  have hframes' : second.frames = 2 := frames_of_size hsize'
  have hlength : first.length = 3 := (length_of_thousand rfl).trans hframes
  have hlength' : second.length = 2 := (length_of_thousand rfl).trans hframes'
  have hrate : 0 < first.format.sampleRate := by decide
  refine ⟨hfirst, hsecond, rfl, hrate, ?_, ?_⟩
  · obtain ⟨hfails, -, hblends, -⟩ := append_fails_or_blends hfirst hsecond rfl hrate 2
    cases happend : first.append second 2 with
    | error error =>
        have hlong := (hfails.mp ⟨error, happend⟩).2
        rw [hlength, hlength'] at hlong
        norm_num at hlong
    | ok result =>
        have hcount : first.format.framesIn (2 : ℝ) = 2 := Format.framesIn_of_thousand 2
        have h : Crossfaded first second 2 result := by
          have h := hblends result happend
          rw [hcount, hframes, hframes'] at h
          exact h
        have hblend := h.blend
        rw [hframes] at hblend
        refine ⟨result, rfl, by have := h.frames; omega, h.head 0 (by decide) 0 (by decide), ?_, ?_⟩
        · have hout : (-120 * ((0 : ℕ) / (2 : ℕ)) : ℝ) = -(20 * (0 : ℕ)) := by norm_num
          have hin : (-120 * (1 - (0 : ℕ) / (2 : ℕ)) : ℝ) = -(20 * (6 : ℕ)) := by norm_num
          have hsample : result.sample 1 0 = 1 * _ + 3 * _ := hblend 0 (by decide) 0 (by decide)
          rw [hout, hin, amplitude_of_tens, amplitude_of_tens] at hsample
          norm_num at hsample ⊢
          exact hsample
        · have hhalf : (-120 * ((1 : ℕ) / (2 : ℕ)) : ℝ) = -(20 * (3 : ℕ)) := by norm_num
          have hhalf' : (-120 * (1 - (1 : ℕ) / (2 : ℕ)) : ℝ) = -(20 * (3 : ℕ)) := by norm_num
          have hsample : result.sample 2 0 = 1 * _ + 3 * _ := hblend 1 (by decide) 0 (by decide)
          rw [hhalf, hhalf', amplitude_of_tens] at hsample
          norm_num at hsample ⊢
          exact hsample
  · obtain ⟨hfails, herrors, -, -⟩ := append_fails_or_blends hfirst hsecond rfl hrate 3
    obtain ⟨error, herror⟩ := hfails.mpr ⟨by norm_num, .inr (by rw [hlength']; norm_num)⟩
    rcases herrors error herror with ⟨hlong, -⟩ | ⟨-, -, rfl⟩
    · rw [hlength] at hlong
      norm_num at hlong
    · rw [herror, hlength']

end SingingVoice.Segment
