import Mathlib
import SingingVoice.Proofs.Exact.Duration
import SingingVoice.Proofs.Result
import SingingVoice.Proofs.Segment.Fading
import SingingVoice.Proofs.Segment.Milliseconds
import SingingVoice.Proofs.Segment.Sizes

/-!
# Joined segments

What is left of two segments when one is appended to the other. They overlap by a number of frames:
the result has the frames of both but for the overlap, and begins as the first segment does up to
there (`Joins`). In exact arithmetic the overlap is `Segment.blend`, whatever the crossfade is
(`joins_of_append`), and a crossfade that is no longer than the two segments does not fail
(`exists_append`).
-/

namespace SingingVoice.Segment

variable {α : Type}

/-! ## Beginnings -/

/-- Frames that come first in samples are the beginning of their segment. -/
theorem sliceFrames_ofSamples {format : Format} {head tail : Array α} {count : Nat}
    (hhead : head.size = count * format.frameSize) :
    (ofSamples format (head ++ tail)).sliceFrames 0 count = ⟨head, format⟩ := by
  have hframes : count ≤ (ofSamples format (head ++ tail)).frames := by
    rw [frames_ofSamples, Array.size_append, hhead, Nat.le_div_iff_mul_le format.frameSize_pos]
    exact Nat.le_add_right _ _
  have hstored : head.size ≤ (head ++ tail).size / format.frameSize * format.frameSize := by
    rw [hhead, ← frames_ofSamples]
    exact Nat.mul_le_mul_right _ hframes
  rw [sliceFrames, Nat.min_eq_left hframes, Nat.zero_min]
  show (⟨_, format⟩ : Segment α) = _
  congr 1
  show ((head ++ tail).extract 0 _).extract (0 * format.frameSize) (count * format.frameSize) = _
  rw [← hhead, Nat.zero_mul, Array.extract_extract, Nat.add_zero, Nat.zero_add,
    Nat.min_eq_left hstored, Array.extract_append_left, Array.extract_size]

/-- The beginning of a segment in its samples. -/
theorem sliceFrames_zero {segment : Segment α} {count : Nat} (hcount : count ≤ segment.frames) :
    segment.sliceFrames 0 count =
      ⟨segment.samples.extract 0 (count * segment.format.frameSize), segment.format⟩ := by
  rw [sliceFrames_of_le (Nat.zero_le _) hcount, Nat.zero_mul]

/-- All frames of a segment are the segment. -/
theorem sliceFrames_frames {segment : Segment α} (hwhole : segment.WholeFrames) :
    segment.sliceFrames 0 segment.frames = segment := by
  rw [sliceFrames_zero (Nat.le_refl _), ← hwhole, Array.extract_size]

/-- A beginning ends with the segment. -/
theorem sliceFrames_min_frames (segment : Segment α) (stop : Nat) :
    segment.sliceFrames 0 (min stop segment.frames) = segment.sliceFrames 0 stop := by
  unfold sliceFrames
  rw [Nat.min_assoc, Nat.min_self]

/-- A slice of a slice is one slice: its bounds count from the start of the first and it ends with
it. -/
theorem sliceFrames_sliceFrames (segment : Segment α) (first last first' last' : Nat) :
    (segment.sliceFrames first last).sliceFrames first' last' =
      segment.sliceFrames (first + first') (min (first + last') last) := by
  have hframes := segment.frames_sliceFrames first last
  unfold sliceFrames at hframes ⊢
  dsimp only at hframes ⊢
  rw [hframes, Array.extract_extract, ← Nat.add_mul, ← Nat.add_mul, Nat.mul_min_mul_right]
  congr 3
  · omega
  · omega

/-- A segment with another directly after it begins with all its frames. -/
theorem sliceFrames_concat {first : Segment α} (hwhole : first.WholeFrames) (second : Segment α) :
    (first.concat second).sliceFrames 0 first.frames = first :=
  sliceFrames_ofSamples hwhole

/-! ## Joins -/

/-- What is known of a segment that two others were joined to, one after the other, so that they
overlap by a number of frames. -/
structure Joins (first second : Segment α) (overlap : Nat) (result : Segment α) : Prop where
  format : result.format = first.format
  whole : result.WholeFrames
  frames : result.frames + overlap = first.frames + second.frames
  start : result.sliceFrames 0 (first.frames - overlap) =
    first.sliceFrames 0 (first.frames - overlap)

/-- Segments that are put one after another do not overlap. -/
theorem joins_concat {first second : Segment α} (hwhole : first.WholeFrames)
    (hformat : second.format = first.format) : Joins first second 0 (first.concat second) where
  format := rfl
  whole := whole_frames_ofSamples _ _
  frames := frames_concat hwhole hformat
  start := by
    rw [Nat.sub_zero, sliceFrames_frames hwhole]
    exact sliceFrames_concat hwhole second

variable [Scalar α]

/-- Crossfaded segments overlap by the frames of the crossfade. -/
theorem joins_crossfade {first second result : Segment α} {count : Nat}
    (hwhole : second.WholeFrames) (hformat : second.format = first.format)
    (hfirst : count ≤ first.frames) (hsecond : count ≤ second.frames)
    (h : first.crossfade second count = .ok result) : Joins first second count result := by
  obtain ⟨hresult, hresultWhole, hframes⟩ := frames_crossfade hwhole hformat hfirst hsecond h
  refine ⟨hresult, hresultWhole, hframes, ?_⟩
  obtain ⟨fadeOut, -, h⟩ := Except.bind_eq_ok.mp h
  obtain ⟨fadeIn, -, h⟩ := Except.bind_eq_ok.mp h
  cases h
  rw [sliceFrames_zero (Nat.sub_le _ _), Array.append_assoc]
  exact sliceFrames_ofSamples (size_first_frames (Nat.sub_le _ _))

variable [Resampler α]

/-- Whatever is appended to a segment, its format is kept. -/
theorem format_append {first second result : Segment α} {ms : α}
    (h : first.append second ms = .ok result) : result.format = first.format := by
  obtain ⟨conformed, -, hcases⟩ := append_cases h
  rcases hcases with ⟨-, rfl⟩ | ⟨-, -, ⟨-, rfl⟩ | ⟨-, hcrossfade⟩⟩
  · rfl
  · rfl
  · obtain ⟨fadeOut, -, h⟩ := Except.bind_eq_ok.mp hcrossfade
    obtain ⟨fadeIn, -, h⟩ := Except.bind_eq_ok.mp h
    cases h
    rfl

/-- Without a crossfade segments of one format do not overlap, and with one they overlap by their
blend if it is not longer than either of them. -/
theorem joins_cases {first second result : Segment α} {ms : α} (hfirst : first.WholeFrames)
    (hsecond : second.WholeFrames) (hformat : second.format = first.format)
    (h : first.append second ms = .ok result) :
    (ms ≤ 0.0 ∧ Joins first second 0 result) ∨
      (¬ Scalar.ofNat first.length < ms ∧ ¬ Scalar.ofNat second.length < ms ∧
        Joins first second (first.blend second ms) result) := by
  obtain ⟨conformed, hconform, hcases⟩ := append_cases h
  obtain rfl : second = conformed := Except.ok.inj ((conform_self hformat).symm.trans hconform)
  have hconcat := joins_concat hfirst hformat
  rcases hcases with ⟨hms, rfl⟩ | ⟨hlong, hlong', ⟨hzero, rfl⟩ | ⟨-, hcrossfade⟩⟩
  · exact .inl ⟨hms, hconcat⟩
  · exact .inr ⟨hlong, hlong', hzero ▸ hconcat⟩
  · exact .inr ⟨hlong, hlong',
      joins_crossfade hsecond hformat (blend_le_first _ _ _) (blend_le_second _ _ _) hcrossfade⟩

/-! ## Exact joins -/

/-- In exact arithmetic two segments do not overlap without a positive crossfade. -/
theorem blend_of_nonpos {first second : Segment ℝ} {ms : ℝ} (hms : ms ≤ 0) :
    first.blend second ms = 0 := by
  rw [blend, Format.framesIn_of_nonpos hms, Nat.zero_min, Nat.zero_min]

variable [Resampler ℝ]

/-- In exact arithmetic the join of two segments overlaps by their blend. A crossfade is at most
half a millisecond longer than either of them. -/
theorem joins_of_append {first second result : Segment ℝ} {ms : ℝ} (hfirst : first.WholeFrames)
    (hsecond : second.WholeFrames) (hformat : second.format = first.format)
    (h : first.append second ms = .ok result) :
    Joins first second (first.blend second ms) result ∧
      (0 < ms → ms ≤ first.duration + 1 / 2 ∧ ms ≤ second.duration + 1 / 2) := by
  rcases joins_cases hfirst hsecond hformat h with ⟨hms, hjoins⟩ | ⟨hlong, hlong', hjoins⟩
  · rw [Exact.zero_eq] at hms
    rw [blend_of_nonpos hms]
    exact ⟨hjoins, fun hpos => absurd hpos (not_lt.mpr hms)⟩
  · refine ⟨hjoins, fun _ => ⟨?_, ?_⟩⟩
    · exact (not_lt.mp hlong).trans first.length_le
    · exact (not_lt.mp hlong').trans second.length_le

/-- In exact arithmetic segments of one format are joined by any crossfade that is no longer than
they are. -/
theorem exists_append {first second : Segment ℝ} {ms : ℝ}
    (hformat : second.format = first.format) (hrate : 0 < first.format.sampleRate)
    (hfirst : ms ≤ first.length) (hsecond : ms ≤ second.length) :
    ∃ result, first.append second ms = .ok result := by
  have hcrossfade : 0 < first.blend second ms →
      ∃ result, first.crossfade second (first.blend second ms) = .ok result := by
    intro hpos
    have hout := fade_last_frames hrate hpos (blend_le_first first second ms)
    have hin := fade_first_frames (hformat ▸ hrate) hpos (blend_le_second first second ms)
    rw [← Exact.zero_eq] at hout hin
    exact ⟨_, Except.bind_eq_ok.mpr ⟨_, hout, Except.bind_eq_ok.mpr ⟨_, hin, rfl⟩⟩⟩
  unfold append
  rw [conform_self hformat, Except.ok_bind]
  split
  · exact ⟨_, rfl⟩
  · rw [Exact.ofNat_eq, Exact.ofNat_eq, if_neg (not_lt.mpr hfirst), if_neg (not_lt.mpr hsecond)]
    dsimp only
    split
    · exact ⟨_, rfl⟩
    · rename_i hpos
      exact hcrossfade (Nat.pos_of_ne_zero hpos)

end SingingVoice.Segment
