import Mathlib
import SingingVoice.PitchShift
import SingingVoice.Proofs.Exact.Duration
import SingingVoice.Proofs.Resampling.Conversion
import SingingVoice.Proofs.Stretch.Durations

/-!
# Durations of shifted segments

A change of speed gains or loses frames, and a shift in pitch makes up for it: the duration that the
segment had is counted back into exactly its frames, and what the change of speed leaves is
stretched to fill them, however long it is (`pitchShift_keeps_frames`).
-/

namespace SingingVoice.Segment

open Resampler

/-! ## Changes of speed -/

section Speed

variable {α : Type} [Scalar α]

/-- A change of speed keeps the format, and gains or loses frames by its ratio. -/
theorem frames_respeed [Resampler α] {segment shifted : Segment α} {ratio : α}
    (h : segment.respeed ratio = .ok shifted) :
    shifted.format = segment.format ∧ shifted.frames = outputFrames segment.frames ratio := by
  obtain ⟨samples, hsamples, rfl⟩ := samples_respeed h
  have hsize := size_convert hsamples
  exact ⟨rfl, frames_of_size hsize⟩

omit [Scalar α] in
/-- The channels of a segment are equally long. -/
theorem aligned_split (segment : Segment α) :
    Aligned (Interleave.split segment.samples segment.format.frameSize) segment.format.frameSize
      segment.frames where
  size := Interleave.size_split _ _
  frames samples hsamples := by
    obtain ⟨channel, rfl⟩ := Array.mem_ofFn.mp hsamples
    exact Array.size_ofFn

/-- With windowed sinc interpolation every segment can be brought to every speed. -/
theorem exists_respeed (segment : Segment α) (ratio : α) :
    ∃ shifted, segment.respeed ratio = .ok shifted := by
  obtain ⟨output, houtput⟩ := Sinc.exists_resampleChannels segment.aligned_split ratio
  refine ⟨ofSamples segment.format (Interleave.join output), ?_⟩
  rw [respeed, convert, houtput]
  rfl

/-- How much longer a segment gets when its pitch is raised by so many semitones. -/
def shiftRatio (steps : α) : α :=
  1.0 / Scalar.pow 2.0 (steps / 12.0)

end Speed

/-! ## Shifts in exact arithmetic -/

/-- A semitone is a twelfth of an octave, and with every octave a segment gets half as long. -/
theorem shiftRatio_eq (steps : ℝ) : shiftRatio steps = 1 / (2 : ℝ) ^ (steps / 12) := by
  show (1.0 : ℝ) / Real.rpow 2.0 (steps / 12.0) = 1 / Real.rpow 2 (steps / 12)
  norm_num

/-- A segment gets shorter by whole powers of two with whole octaves. -/
theorem shiftRatio_octaves (octaves : ℕ) : shiftRatio (12 * octaves : ℝ) = 1 / 2 ^ octaves := by
  rw [shiftRatio_eq, mul_div_cancel_left₀ _ (by norm_num), Real.rpow_natCast]

/-- The duration of a segment is filled by as many frames as it has, whatever segment of the format
is stretched to it. -/
theorem frames_stretch_duration {segment shifted : Segment ℝ}
    (hrate : 0 < segment.format.sampleRate) (hwhole : shifted.WholeFrames)
    (hformat : shifted.format = segment.format) (mode : StretchMode) :
    (shifted.stretch segment.duration mode).format = segment.format ∧
      (shifted.stretch segment.duration mode).WholeFrames ∧
      (shifted.stretch segment.duration mode).frames = segment.frames := by
  obtain ⟨hkept, hwhole', hframes⟩ := frames_stretch hwhole segment.duration mode
  refine ⟨hkept.trans hformat, hwhole', ?_⟩
  rw [hframes, hformat, duration, Format.framesIn_millis hrate]

section Shifts

variable [Resampler ℝ] {segment : Segment ℝ} {steps : ℝ}

/-- A shift by no semitone changes nothing, and neither does one of an empty segment. -/
theorem pitchShift_of_nothing (mode : StretchMode)
    (hnothing : steps = 0 ∨ segment.isEmpty = true) :
    segment.pitchShift steps mode = .ok segment := by
  unfold pitchShift
  rw [Exact.zero_eq, Exact.beq_eq]
  rcases hnothing with rfl | hempty
  · simp
  · simp [hempty]

/-- A shift is a change of speed, and a stretch to the duration from before it. -/
theorem pitchShift_eq (mode : StretchMode) (hsteps : steps ≠ 0) (hsome : segment.isEmpty = false) :
    segment.pitchShift steps mode =
      (segment.respeed (shiftRatio steps)).map (·.stretch segment.duration mode) := by
  unfold pitchShift
  rw [Exact.zero_eq, Exact.beq_eq, decide_eq_false hsteps, hsome, Bool.or_self,
    if_neg Bool.false_ne_true]
  show segment.respeed (shiftRatio steps) >>= _ = _
  cases segment.respeed (shiftRatio steps) <;> rfl

/-- A shift in pitch loses no frame and gains none. It changes nothing if there is nothing to shift.
Otherwise it fails as its change of speed does, and only then: however many frames this leaves,
there are as many as before in the end. -/
theorem pitchShift_keeps_frames (hrate : 0 < segment.format.sampleRate) (steps : ℝ)
    (mode : StretchMode) :
    (steps = 0 ∨ segment.isEmpty = true → segment.pitchShift steps mode = .ok segment) ∧
    (steps ≠ 0 → segment.isEmpty = false → ∀ reason,
      segment.respeed (shiftRatio steps) = .error reason →
      segment.pitchShift steps mode = .error reason) ∧
    ∀ shifted, segment.respeed (shiftRatio steps) = .ok shifted →
      shifted.frames = outputFrames segment.frames (shiftRatio steps) ∧
      ∃ result, segment.pitchShift steps mode = .ok result ∧ result.format = segment.format ∧
        result.frames = segment.frames ∧ (segment.WholeFrames → result.WholeFrames) := by
  refine ⟨pitchShift_of_nothing mode, ?_, ?_⟩
  · intro hsteps hsome reason hfailed
    rw [pitchShift_eq mode hsteps hsome, hfailed]
    rfl
  · intro shifted hshifted
    obtain ⟨hformat, hframes⟩ := frames_respeed hshifted
    refine ⟨hframes, ?_⟩
    by_cases hnothing : steps = 0 ∨ segment.isEmpty = true
    · exact ⟨segment, pitchShift_of_nothing mode hnothing, rfl, rfl, id⟩
    · obtain ⟨hsteps, hsome⟩ : steps ≠ 0 ∧ segment.isEmpty = false := by simpa using hnothing
      obtain ⟨hkept, hwhole, hlength⟩ :=
        frames_stretch_duration hrate (whole_frames_respeed hshifted) hformat mode
      refine ⟨_, ?_, hkept, hlength, fun _ => hwhole⟩
      rw [pitchShift_eq mode hsteps hsome, hshifted]
      rfl

end Shifts

/-- Three frames are two when they are played an octave higher, and none when they are played ten
octaves higher. Both shifts make them three again. -/
theorem three_frames_shifted :
    let segment : Segment ℝ := ⟨#[1, 2, 3], .mono 1000⟩
    0 < segment.format.sampleRate ∧ segment.frames = 3 ∧
    (∃ shifted result, segment.respeed (shiftRatio 12) = .ok shifted ∧ shifted.frames = 2 ∧
      segment.pitchShift 12 .ola = .ok result ∧ result.frames = 3) ∧
    ∃ shifted result, segment.respeed (shiftRatio 120) = .ok shifted ∧ shifted.frames = 0 ∧
      segment.pitchShift 120 .ola = .ok result ∧ result.frames = 3 := by
  intro segment
  have hrate : 0 < segment.format.sampleRate := by decide
  have hframes : segment.frames = 3 := frames_of_size rfl
  have hone : outputFrames segment.frames (shiftRatio (12 : ℝ)) = 2 := by
    rw [hframes, show (12 : ℝ) = 12 * (1 : ℕ) by norm_num, shiftRatio_octaves,
      outputFrames_eq_floor (by norm_num), Nat.floor_eq_iff (by norm_num)]
    norm_num
  have hten : outputFrames segment.frames (shiftRatio (120 : ℝ)) = 0 := by
    rw [hframes, show (120 : ℝ) = 12 * (10 : ℕ) by norm_num, shiftRatio_octaves,
      outputFrames_eq_floor (by norm_num), Nat.floor_eq_zero]
    norm_num
  -- both changes of speed succeed, so both shifts do
  have hshift (steps : ℝ) : ∃ shifted result, segment.respeed (shiftRatio steps) = .ok shifted ∧
      shifted.frames = outputFrames segment.frames (shiftRatio steps) ∧
      segment.pitchShift steps .ola = .ok result ∧ result.frames = 3 := by
    obtain ⟨shifted, hshifted⟩ := segment.exists_respeed (shiftRatio steps)
    obtain ⟨-, -, hkeeps⟩ := pitchShift_keeps_frames hrate steps .ola
    obtain ⟨hlength, result, hresult, -, hthree, -⟩ := hkeeps shifted hshifted
    exact ⟨shifted, result, hshifted, hlength, hresult, hthree.trans hframes⟩
  exact ⟨hrate, hframes, hone ▸ hshift 12, hten ▸ hshift 120⟩

end SingingVoice.Segment
