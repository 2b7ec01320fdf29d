import Mathlib
import SingingVoice.Proofs.Exact.Duration
import SingingVoice.Proofs.Segment.Parts

/-!
# Lengths in whole milliseconds

A duration in milliseconds becomes a number of frames, and the frames have a duration that
`Segment.length` rounds to whole milliseconds. In exact arithmetic the first rounding is off by half
a frame at most and the second by half a millisecond. From a thousand frames per second on half a
frame is no longer than half a millisecond, and the two roundings cancel on whole milliseconds
(`length_silence`). The main theorem is `milliseconds_kept`.
-/

namespace SingingVoice.Segment

/-! ## Durations and lengths -/

/-- No segment lasts less than no time. -/
theorem duration_nonneg (segment : Segment ℝ) : 0 ≤ segment.duration :=
  segment.format.millis_nonneg segment.frames

/-- The length of a segment is counted from half a millisecond above its duration. -/
theorem length_eq_floor (segment : Segment ℝ) : segment.length = ⌊segment.duration + 1 / 2⌋₊ := by
  rw [length, Exact.round_of_nonneg segment.duration_nonneg, Exact.toNat_eq, ← Int.floor_toNat,
    Int.floor_intCast, Int.floor_toNat]

/-- The length of a segment is half a millisecond from its duration at most. -/
theorem abs_length_sub_duration_le (segment : Segment ℝ) :
    |(segment.length : ℝ) - segment.duration| ≤ 1 / 2 := by
  rw [length_eq_floor]
  exact Exact.abs_floor_half_sub_le segment.duration_nonneg

/-- In exact arithmetic a segment is no longer in whole milliseconds than its duration and a
half. -/
theorem length_le (segment : Segment ℝ) : (segment.length : ℝ) ≤ segment.duration + 1 / 2 := by
  have hupper := (abs_le.mp segment.abs_length_sub_duration_le).2
  linarith

/-- At a thousand frames per second segments last a millisecond for every frame. -/
theorem duration_of_thousand {segment : Segment ℝ} (hformat : segment.format = .mono 1000) :
    segment.duration = segment.frames := by
  rw [duration, hformat]
  exact Format.millis_of_thousand _

/-- A segment has the length of whole milliseconds that its duration is close to. -/
theorem length_eq_of_close {segment : Segment ℝ} {ms : ℕ} (hlow : ms - 1 / 2 ≤ segment.duration)
    (hhigh : segment.duration < ms + 1 / 2) : segment.length = ms := by
  have hnonneg := segment.duration_nonneg
  rw [length_eq_floor, Nat.floor_eq_iff (by linarith)]
  constructor <;> linarith

/-- At a thousand frames per second the length of segments is their number of frames. -/
theorem length_of_thousand {segment : Segment ℝ} (hformat : segment.format = .mono 1000) :
    segment.length = segment.frames := by
  have hduration := duration_of_thousand hformat
  exact length_eq_of_close (by linarith) (by linarith)

/-! ## Silence -/

variable {format : Format}

/-- Silence lasts as long as its frames. -/
theorem duration_silence (format : Format) (ms : ℝ) :
    (silence format ms).duration = format.millis (format.framesIn ms) := by
  rw [silence, duration, frames_silentFrames]
  rfl

/-- Silence after a segment adds the duration of its frames. -/
theorem duration_extendSilence (segment : Segment ℝ) (ms : ℝ) :
    (segment.draft.extendSilence ms).freeze.duration =
      segment.duration + segment.format.millis (segment.format.framesIn ms) := by
  have hframes : (segment.draft.extendSilence ms).freeze.frames =
      segment.frames + segment.format.framesIn ms := by
    rw [Draft.freeze, frames_ofSamples, Draft.extendSilence, Draft.size_extendFrames,
      Draft.format_extendFrames]
    exact Nat.add_mul_div_right _ _ segment.format.frameSize_pos
  show segment.format.millis _ = segment.format.millis segment.frames + _
  rw [hframes, Format.millis_eq_time, Format.millis_eq_time, Format.millis_eq_time, Nat.cast_add,
    Format.time_add]

/-- From a thousand frames per second on, silence of whole milliseconds is so many of them long. -/
theorem length_silence (hrate : 1000 ≤ format.sampleRate) (ms : ℕ) :
    (silence format (ms : ℝ)).length = ms := by
  rcases hrate.eq_or_lt with hslow | hfast
  -- a frame is a millisecond, and nothing is rounded
  · have hmillis := Format.millis_of_rate hslow.symm ms
    have hduration : (silence format (ms : ℝ)).duration = ms := by
      rw [duration_silence, ← hmillis, Format.framesIn_millis (by omega)]
    exact length_eq_of_close (by linarith) (by linarith)
  -- half a frame is less than half a millisecond
  · have hnear := Format.abs_millis_framesIn_sub_le (by omega : 0 < format.sampleRate)
      (Nat.cast_nonneg (α := ℝ) ms)
    have hhalf : (500 : ℝ) / format.sampleRate < 1 / 2 := by
      have hcast : (1000 : ℝ) < format.sampleRate := by exact_mod_cast hfast
      rw [div_lt_iff₀ (by linarith)]
      linarith
    rw [← duration_silence, abs_le] at hnear
    exact length_eq_of_close (by linarith) (by linarith)

/-- In exact arithmetic frames are counted back from their duration, silence of a duration lasts as
long up to half a frame, and so does silence that is put after a segment. From a thousand frames per
second on, silence of whole milliseconds is so many milliseconds long, and any silence is a
millisecond from its duration at most. -/
theorem milliseconds_kept (hrate : 0 < format.sampleRate) :
    (∀ frames, format.framesIn (format.millis frames : ℝ) = frames) ∧
    (∀ ms : ℝ, 0 ≤ ms → |(silence format ms).duration - ms| ≤ 500 / format.sampleRate) ∧
    (∀ segment : Segment ℝ, segment.format = format → ∀ ms : ℝ, 0 ≤ ms →
      |(segment.draft.extendSilence ms).freeze.duration - segment.duration - ms| ≤
        500 / format.sampleRate) ∧
    (1000 ≤ format.sampleRate →
      (∀ ms : ℕ, (silence format (ms : ℝ)).length = ms) ∧
      ∀ ms : ℝ, 0 ≤ ms → |((silence format ms).length : ℝ) - ms| ≤ 1) := by
  have hsilence (ms : ℝ) (hms : 0 ≤ ms) :
      |(silence format ms).duration - ms| ≤ 500 / format.sampleRate := by
    rw [duration_silence]
    exact Format.abs_millis_framesIn_sub_le hrate hms
  refine ⟨Format.framesIn_millis hrate, hsilence, ?_, fun hfast => ⟨length_silence hfast, ?_⟩⟩
  · rintro segment rfl ms hms
    rw [duration_extendSilence, add_sub_cancel_left]
    exact Format.abs_millis_framesIn_sub_le hrate hms
  · intro ms hms
    have hhalf : (500 : ℝ) / format.sampleRate ≤ 1 / 2 := by
      have hcast : (1000 : ℝ) ≤ format.sampleRate := by exact_mod_cast hfast
      rw [div_le_iff₀ (by linarith)]
      linarith
    calc |((silence format ms).length : ℝ) - ms|
        ≤ |((silence format ms).length : ℝ) - (silence format ms).duration| +
            |(silence format ms).duration - ms| := abs_sub_le _ _ _
      _ ≤ 1 / 2 + 1 / 2 :=
          add_le_add (abs_length_sub_duration_le _) ((hsilence ms hms).trans hhalf)
      _ = 1 := by norm_num

/-- Half a second at 1001 frames per second is half a frame less than 501 frames, which are as many
as it gets. It is 500 ms long, and so it is after a frame of sound up to half a frame. At 999 frames
per second it is 501 ms long. -/
theorem half_second_kept :
    let format : Format := ⟨1001, .stereo⟩
    let segment : Segment ℝ := ⟨#[1, -1], format⟩
    0 < format.sampleRate ∧ format.framesIn (500 : ℝ) = 501 ∧
    format.framesIn (format.millis 501 : ℝ) = 501 ∧
    (silence format (500 : ℝ)).length = 500 ∧
    |(segment.draft.extendSilence 500).freeze.duration - segment.duration - 500| ≤
      500 / format.sampleRate ∧
    (silence (.mono 999) (500 : ℝ)).length = 501 := by
  intro format segment
  have hrate : 0 < format.sampleRate := by decide
  obtain ⟨hback, -, hextended, hfast⟩ := milliseconds_kept hrate
  have hlength := (hfast (by decide)).1 500
  refine ⟨hrate, ?_, hback 501, ?_, hextended segment rfl 500 (by norm_num), ?_⟩
  · rw [Format.framesIn_eq_floor, Nat.floor_eq_iff (by positivity)]
    norm_num [format]
  · exact_mod_cast hlength
  · have hframes : (Format.mono 999).framesIn (500 : ℝ) = 500 := by
      rw [Format.framesIn_eq_floor, Nat.floor_eq_iff (by positivity)]
      norm_num [Format.mono]
    have hduration : (silence (.mono 999) (500 : ℝ)).duration = 500 / 999 * 1000 := by
      rw [duration_silence, hframes, Format.millis_eq_time, Format.time]
      norm_num [Format.mono]
    refine length_eq_of_close ?_ ?_ <;> rw [hduration] <;> norm_num

end SingingVoice.Segment
