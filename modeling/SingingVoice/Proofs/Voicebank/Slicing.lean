import Mathlib
import SingingVoice.Proofs.Segment.Regions
import SingingVoice.Stretch

/-!
# Cutting samples

In exact arithmetic audio is cut into consonant and vowel exactly if neither offset nor consonant is
negative and something is left of the vowel in the length of the audio; otherwise there is an error
of timing. The two are one region of the audio, without a gap between them
(`slice_cuts_one_region`).

What is left of the vowel is measured in milliseconds, and the length of the audio in whole ones,
but the cut is made between frames. So a vowel that is shorter than a frame, or that starts where
the audio has ended before its rounded length, may be accepted and have no frame at all
(`vowel_kept_iff`). Such a vowel is stretched to silence. One that lasts a frame within the audio
has frames (`frames_vowel_pos`).
-/

namespace SingingVoice

namespace Segment

variable {α : Type} [Scalar α]

/-- What has no frames is stretched to silence. -/
theorem stretch_of_no_frames {segment : Segment α} (hwhole : segment.WholeFrames)
    (hframes : segment.frames = 0) (ms : α) (mode : StretchMode) :
    segment.stretch ms mode = .silence segment.format ms :=
  if_pos (.inr ((isEmpty_iff_frames hwhole).mpr hframes))

end Segment

namespace Sample

/-! ## Clipped vowels -/

section Clipped

variable {α : Type} [Scalar α] {sample : Sample α} {audio consonant vowel : Segment α}

/-- The start and the stop of the vowel, both clipped to a length in whole milliseconds. -/
def clippedVowel (sample : Sample α) (length : Nat) : α × α :=
  (Scalar.min (sample.vowelRegion (Scalar.ofNat length)).1 (Scalar.ofNat length),
    Scalar.min (sample.vowelRegion (Scalar.ofNat length)).2 (Scalar.ofNat length))

/-- The only errors of a cut are those of timing. -/
theorem timing_of_slice_error {error : VoicebankError α} (h : sample.slice audio = .error error) :
    ∃ cause, error = .timing sample.name cause := by
  unfold slice at h
  split at h
  · cases h
    exact ⟨_, rfl⟩
  · split at h
    · cases h
      exact ⟨_, rfl⟩
    · dsimp only at h
      split at h
      · cases h
        exact ⟨_, rfl⟩
      · cases h

/-- Audio is not cut if nothing is left of the vowel in its length. -/
theorem exists_timing_of_clipped
    (h : (sample.clippedVowel audio.length).2 ≤ (sample.clippedVowel audio.length).1) :
    ∃ cause, sample.slice audio = .error (.timing sample.name cause) := by
  cases hslice : sample.slice audio with
  | ok parts =>
      obtain ⟨-, -, hvowel, -⟩ := slice_eq_ok hslice
      exact absurd h hvowel
  | error error =>
      obtain ⟨cause, rfl⟩ := timing_of_slice_error hslice
      exact ⟨cause, rfl⟩

/-- A vowel that is cut out has a frame exactly if it stops in a later frame than it starts in, and
starts before the end of the audio. -/
theorem frames_vowel_pos_iff (h : sample.slice audio = .ok (consonant, vowel)) :
    0 < vowel.frames ↔
      audio.format.framesIn (sample.clippedVowel audio.length).1 <
          audio.format.framesIn (sample.clippedVowel audio.length).2 ∧
        audio.format.framesIn (sample.clippedVowel audio.length).1 < audio.frames := by
  obtain ⟨-, -, -, -, rfl⟩ := slice_eq_ok h
  show 0 < (audio.sliceFrames (audio.format.framesIn (sample.clippedVowel audio.length).1)
    (audio.format.framesIn (sample.clippedVowel audio.length).2)).frames ↔ _
  rw [Segment.frames_sliceFrames]
  omega

end Clipped

/-! ## Exact cuts -/

/-- The time at which the vowel starts. -/
noncomputable def vowelStart (sample : Sample ℝ) : ℝ :=
  sample.offset + sample.consonant

/-- The time at which the vowel stops in audio of a length: a negative cutoff counts from the start
of the vowel, others from the end of the audio. -/
noncomputable def vowelStop (sample : Sample ℝ) (length : ℝ) : ℝ :=
  if sample.cutoff < 0 then min length (sample.vowelStart + |sample.cutoff|)
  else min length (length - sample.cutoff)

/-- The clipped vowel in exact arithmetic. -/
theorem clippedVowel_eq (sample : Sample ℝ) (length : Nat) :
    sample.clippedVowel length = (min sample.vowelStart length, sample.vowelStop length) := by
  have hstop : Scalar.min (sample.vowelRegion (length : ℝ)).2 length = sample.vowelStop length := by
    rw [Exact.min_eq, vowelStop, min_comm (length : ℝ), min_comm (length : ℝ), vowelRegion]
    dsimp only
    rw [Exact.zero_eq]
    split <;> rfl
  unfold clippedVowel
  rw [Exact.ofNat_eq, hstop, Exact.min_eq]
  rfl

/-- A vowel does not stop after the audio. -/
theorem vowelStop_le (sample : Sample ℝ) (length : ℝ) : sample.vowelStop length ≤ length := by
  unfold vowelStop
  split <;> exact min_le_left _ _

/-- Something is left of the vowel in audio of a length, and no part lasts less than no time. -/
structure Fits (sample : Sample ℝ) (length : Nat) : Prop where
  offset : 0 ≤ sample.offset
  consonant : 0 ≤ sample.consonant
  vowel : min sample.vowelStart length < sample.vowelStop length

variable {sample : Sample ℝ} {audio consonant vowel : Segment ℝ} {length : Nat}

/-- A vowel of which something is left starts within the length. -/
theorem Fits.start_lt (h : sample.Fits length) : sample.vowelStart < sample.vowelStop length := by
  have hvowel := h.vowel
  have hstop := sample.vowelStop_le length
  rcases le_total sample.vowelStart length with hstart | hlength
  · rwa [min_eq_left hstart] at hvowel
  · rw [min_eq_right hlength] at hvowel
    exact absurd hstop (not_le.mpr hvowel)

/-- The vowel starts no earlier than the consonant. -/
theorem Fits.offset_le (h : sample.Fits length) : sample.offset ≤ sample.vowelStart :=
  le_add_of_nonneg_right h.consonant

/-- The start of a vowel of which something is left need not be clipped. -/
theorem Fits.clippedVowel_eq (h : sample.Fits length) :
    sample.clippedVowel length = (sample.vowelStart, sample.vowelStop length) := by
  rw [Sample.clippedVowel_eq, min_eq_left (h.start_lt.le.trans (sample.vowelStop_le _))]

/-- Audio is cut only if something is left of the vowel, and then at the times of the sample. -/
theorem fits_of_slice (h : sample.slice audio = .ok (consonant, vowel)) :
    sample.Fits audio.length ∧
      consonant = audio.slice (some sample.offset) (some sample.vowelStart) ∧
      vowel = audio.slice (some sample.vowelStart) (some (sample.vowelStop audio.length)) := by
  obtain ⟨hoffset, hconsonant, hvowel, hparts⟩ := slice_eq_ok h
  change ¬ (sample.clippedVowel audio.length).2 ≤ (sample.clippedVowel audio.length).1 at hvowel
  change consonant = audio.slice _ (some (sample.clippedVowel audio.length).1) ∧
    vowel = audio.slice (some (sample.clippedVowel audio.length).1)
      (some (sample.clippedVowel audio.length).2) at hparts
  rw [Exact.zero_eq, not_lt] at hoffset hconsonant
  rw [Sample.clippedVowel_eq, not_le] at hvowel
  have hfits : sample.Fits audio.length := ⟨hoffset, hconsonant, hvowel⟩
  rw [hfits.clippedVowel_eq] at hparts
  exact ⟨hfits, hparts⟩

/-- Audio is cut if something is left of the vowel. -/
theorem Fits.exists_slice (h : sample.Fits audio.length) :
    ∃ consonant vowel, sample.slice audio = .ok (consonant, vowel) := by
  have hvowel : ¬ (sample.clippedVowel audio.length).2 ≤ (sample.clippedVowel audio.length).1 := by
    rw [Sample.clippedVowel_eq]
    exact not_le.mpr h.vowel
  unfold slice
  rw [Exact.zero_eq, if_neg (not_lt.mpr h.offset), if_neg (not_lt.mpr h.consonant)]
  exact ⟨_, _, if_neg hvowel⟩

/-- In exact arithmetic audio is cut exactly if offset and consonant are not negative and something
is left of the vowel in the length of the audio; all other samples have an error of timing. The
consonant is the region from the offset on and up to the start of the vowel, and the vowel the
region from there on and up to its stop, each cut to the frames of the audio. Together they are the
slice from the offset to the stop of the vowel. -/
theorem slice_cuts_one_region (sample : Sample ℝ) (audio : Segment ℝ) :
    ((∃ consonant vowel, sample.slice audio = .ok (consonant, vowel)) ↔
      0 ≤ sample.offset ∧ 0 ≤ sample.consonant ∧
        min sample.vowelStart audio.length < sample.vowelStop audio.length) ∧
    (∀ error, sample.slice audio = .error error → ∃ cause, error = .timing sample.name cause) ∧
    ∀ consonant vowel, sample.slice audio = .ok (consonant, vowel) →
      audio.Region (min (audio.format.framesIn sample.offset) audio.frames)
        (min (audio.format.framesIn sample.vowelStart) audio.frames) consonant ∧
      audio.Region (min (audio.format.framesIn sample.vowelStart) audio.frames)
        (min (audio.format.framesIn (sample.vowelStop audio.length)) audio.frames) vowel ∧
      consonant.concat vowel =
        audio.slice (some sample.offset) (some (sample.vowelStop audio.length)) := by
  refine ⟨⟨?_, ?_⟩, fun error => timing_of_slice_error, ?_⟩
  · rintro ⟨consonant, vowel, h⟩
    obtain ⟨hfits, -⟩ := fits_of_slice h
    exact ⟨hfits.offset, hfits.consonant, hfits.vowel⟩
  · rintro ⟨hoffset, hconsonant, hvowel⟩
    exact Fits.exists_slice ⟨hoffset, hconsonant, hvowel⟩
  · intro consonant vowel h
    obtain ⟨hfits, rfl, rfl⟩ := fits_of_slice h
    exact ⟨audio.region_slice hfits.offset_le, audio.region_slice hfits.start_lt.le,
      audio.concat_slice hfits.offset_le hfits.start_lt.le⟩

/-- Three frames of half a millisecond each. Their length in whole milliseconds is two. -/
noncomputable def briefAudio : Segment ℝ :=
  ⟨#[1, 0, -1], .mono 2000⟩

/-- A sample without a cutoff, whose offset and consonant last so many of these frames. -/
noncomputable def openSample (offset consonant : Nat) : Sample ℝ :=
  ⟨"a.wav", "a", briefAudio.format.millis offset, briefAudio.format.millis consonant, 0, 0, 0⟩

/-- The three frames last one and a half milliseconds. -/
theorem duration_briefAudio : briefAudio.duration = 3 / 2 := by
  have hframes : briefAudio.frames = 3 := rfl
  rw [Segment.duration, hframes, Format.millis_eq_time]
  norm_num [Format.time, briefAudio, Format.mono]

/-- Half a millisecond is rounded up. -/
theorem length_briefAudio : briefAudio.length = 2 := by
  have hfloor : ⌊(3 / 2 : ℝ) + 1 / 2⌋ = 2 := by norm_num
  rw [Segment.length, duration_briefAudio, Exact.round_of_nonneg (by norm_num), hfloor]
  norm_num

/-- At two thousand frames per second a frame lasts half a millisecond. -/
theorem millis_briefAudio (count : Nat) : briefAudio.format.millis count = (count : ℝ) / 2 := by
  rw [Format.millis_eq_time, Format.time]
  norm_num [briefAudio, Format.mono]
  ring

/-- So many half milliseconds have so many frames. -/
theorem framesIn_briefAudio (count : Nat) :
    briefAudio.format.framesIn ((count : ℝ) / 2) = count := by
  rw [← millis_briefAudio]
  exact Format.framesIn_millis (by decide) count

section Open

variable {offset consonant : Nat}

/-- The vowel starts after offset and consonant. -/
theorem vowelStart_openSample :
    (openSample offset consonant).vowelStart = ((offset + consonant : ℕ) : ℝ) / 2 := by
  show briefAudio.format.millis offset + briefAudio.format.millis consonant = _
  rw [millis_briefAudio, millis_briefAudio, Nat.cast_add, add_div]

/-- The vowel stops with the rounded length of the audio. -/
theorem vowelStop_openSample :
    (openSample offset consonant).vowelStop briefAudio.length = ((4 : ℕ) : ℝ) / 2 := by
  rw [vowelStop, if_neg (by exact lt_irrefl (0 : ℝ)), length_briefAudio]
  norm_num [openSample]

/-- A vowel without a cutoff fits if it starts before the rounded length of the audio. -/
theorem fits_openSample (hstart : offset + consonant < 4) :
    (openSample offset consonant).Fits briefAudio.length where
  offset := briefAudio.format.millis_nonneg offset
  consonant := briefAudio.format.millis_nonneg consonant
  vowel := by
    rw [vowelStop_openSample, vowelStart_openSample]
    refine min_lt_of_left_lt (div_lt_div_of_pos_right ?_ (by norm_num))
    exact_mod_cast hstart

end Open

/-- After half a millisecond that is not used and another of consonant, the last of the three frames
is the vowel. -/
theorem last_frame_is_vowel :
    (openSample 1 1).Fits briefAudio.length ∧
    ∃ consonant vowel, (openSample 1 1).slice briefAudio = .ok (consonant, vowel) ∧
      briefAudio.Region 1 2 consonant ∧ briefAudio.Region 2 3 vowel ∧
      consonant.concat vowel = briefAudio.slice (some (1 / 2)) (some 2) := by
  have hfits : (openSample 1 1).Fits briefAudio.length := fits_openSample (by norm_num)
  obtain ⟨hiff, -, hparts⟩ := slice_cuts_one_region (openSample 1 1) briefAudio
  obtain ⟨consonant, vowel, hslice⟩ := hiff.mpr ⟨hfits.offset, hfits.consonant, hfits.vowel⟩
  obtain ⟨hconsonant, hvowel, hconcat⟩ := hparts consonant vowel hslice
  have hoffset : (openSample 1 1).offset = ((1 : ℕ) : ℝ) / 2 := millis_briefAudio 1
  have hframes : briefAudio.frames = 3 := rfl
  have hstop : ((4 : ℕ) : ℝ) / 2 = 2 := by norm_num
  rw [hoffset, vowelStart_openSample, framesIn_briefAudio, framesIn_briefAudio, hframes] at hconsonant
  rw [vowelStart_openSample, vowelStop_openSample, framesIn_briefAudio, framesIn_briefAudio,
    hframes] at hvowel
  rw [hoffset, vowelStop_openSample, hstop, Nat.cast_one] at hconcat
  exact ⟨hfits, consonant, vowel, hslice, hconsonant, hvowel, hconcat⟩

/-! ## Vowels without a frame -/

/-- A sample of which something is left fits only audio that lasts some time. -/
theorem Fits.length_pos (h : sample.Fits length) : 0 < length := by
  have hstart : 0 ≤ min sample.vowelStart length :=
    le_min (h.offset.trans h.offset_le) (Nat.cast_nonneg _)
  have hpos : (0 : ℝ) < length := (hstart.trans_lt h.vowel).trans_le (sample.vowelStop_le _)
  exact_mod_cast hpos

/-- In exact arithmetic only audio with a sample rate is cut. Without one it would last no time. -/
theorem Fits.rate_pos (h : sample.Fits audio.length) : 0 < audio.format.sampleRate := by
  have hlength := h.length_pos
  by_contra hrate
  have hduration : audio.duration = ((0 : ℤ) : ℝ) := by
    rw [Segment.duration, Format.millis_eq_time, Format.time, Nat.eq_zero_of_not_pos hrate]
    norm_num
  rw [Segment.length, hduration, Exact.round_intCast] at hlength
  simp at hlength

/-- In exact arithmetic a vowel that is cut out has a frame exactly if it stops in a later frame
than it starts in, and starts more than half a frame before the audio ends. -/
theorem frames_vowel_pos_iff_exact (h : sample.slice audio = .ok (consonant, vowel)) :
    0 < vowel.frames ↔
      audio.format.framesIn sample.vowelStart <
          audio.format.framesIn (sample.vowelStop audio.length) ∧
        sample.vowelStart + audio.format.millis 1 / 2 < audio.duration := by
  obtain ⟨hfits, -⟩ := fits_of_slice h
  have hend := Format.framesIn_lt_iff hfits.rate_pos (hfits.offset.trans hfits.offset_le)
    audio.frames
  rw [frames_vowel_pos_iff h, hfits.clippedVowel_eq, hend]
  rfl

/-- In exact arithmetic a vowel has a frame if it lasts a frame before it stops and before the audio
ends. -/
theorem frames_vowel_pos (h : sample.slice audio = .ok (consonant, vowel))
    (hstop : sample.vowelStart + audio.format.millis 1 ≤ sample.vowelStop audio.length)
    (hend : sample.vowelStart + audio.format.millis 1 ≤ audio.duration) : 0 < vowel.frames := by
  obtain ⟨hfits, -⟩ := fits_of_slice h
  have hrate : (0 : ℝ) < audio.format.sampleRate := by exact_mod_cast hfits.rate_pos
  have hframe : (0 : ℝ) < audio.format.millis 1 := by
    rw [Format.millis_eq_time, Format.time]
    positivity
  have hlater := audio.format.framesIn_mono hstop
  rw [Format.framesIn_add_millis hfits.rate_pos (hfits.offset.trans hfits.offset_le)] at hlater
  refine (frames_vowel_pos_iff_exact h).mpr ⟨hlater, ?_⟩
  linarith

/-- Audio is not cut if nothing is left of the vowel in its length, in whole milliseconds. But what
is left may have no frame: it has one exactly if it stops in a later frame than it starts in, and
starts before the last frame has ended. A vowel without a frame is stretched to silence. When this
is so in exact arithmetic, `frames_vowel_pos_iff_exact` says. -/
theorem vowel_kept_iff {α : Type} [Scalar α] (sample : Sample α) (audio : Segment α) :
    ((sample.clippedVowel audio.length).2 ≤ (sample.clippedVowel audio.length).1 →
      ∃ cause, sample.slice audio = .error (.timing sample.name cause)) ∧
    ∀ consonant vowel, sample.slice audio = .ok (consonant, vowel) →
      (0 < vowel.frames ↔
        audio.format.framesIn (sample.clippedVowel audio.length).1 <
            audio.format.framesIn (sample.clippedVowel audio.length).2 ∧
          audio.format.framesIn (sample.clippedVowel audio.length).1 < audio.frames) ∧
      (vowel.frames = 0 → ∀ ms mode, vowel.stretch ms mode = .silence audio.format ms) := by
  refine ⟨exists_timing_of_clipped, ?_⟩
  intro consonant vowel h
  refine ⟨frames_vowel_pos_iff h, ?_⟩
  intro hframes ms mode
  obtain ⟨-, hformat, hwhole⟩ := parts_of_slice h
  rw [← hformat]
  exact Segment.stretch_of_no_frames hwhole hframes ms mode

/-- A vowel that starts with the end of the audio, which lasts half a millisecond less than its
rounded length, has no frame. -/
theorem no_frames_of_late {consonant vowel : Segment ℝ}
    (h : (openSample 0 3).slice briefAudio = .ok (consonant, vowel)) : vowel.frames = 0 := by
  refine Nat.eq_zero_of_not_pos ((frames_vowel_pos_iff_exact h).not.mpr ?_)
  rw [vowelStart_openSample, millis_briefAudio, duration_briefAudio]
  norm_num

/-- The vowel that is the last of three frames has a frame. One that starts with the end of the
audio has none, and is stretched to silence. -/
theorem vowel_kept_and_lost :
    (∃ consonant vowel, (openSample 1 1).slice briefAudio = .ok (consonant, vowel) ∧
      0 < vowel.frames) ∧
    ∃ consonant vowel, (openSample 0 3).slice briefAudio = .ok (consonant, vowel) ∧
      vowel.frames = 0 ∧ vowel.stretch 500 .ola = .silence (.mono 2000) 500 := by
  constructor
  · have hfits := fits_openSample (by norm_num : 1 + 1 < 4)
    obtain ⟨consonant, vowel, hslice⟩ := hfits.exists_slice
    obtain ⟨-, hkept⟩ := vowel_kept_iff (openSample 1 1) briefAudio
    obtain ⟨hpos, -⟩ := hkept consonant vowel hslice
    have hframes : briefAudio.frames = 3 := rfl
    refine ⟨consonant, vowel, hslice, hpos.mpr ?_⟩
    rw [hfits.clippedVowel_eq, vowelStart_openSample, vowelStop_openSample, framesIn_briefAudio,
      framesIn_briefAudio, hframes]
    decide
  · obtain ⟨consonant, vowel, hslice⟩ := (fits_openSample (by norm_num : 0 + 3 < 4)).exists_slice
    obtain ⟨-, hkept⟩ := vowel_kept_iff (openSample 0 3) briefAudio
    obtain ⟨-, hsilent⟩ := hkept consonant vowel hslice
    have hnone := no_frames_of_late hslice
    exact ⟨consonant, vowel, hslice, hnone, hsilent hnone 500 .ola⟩

/-- A vowel that starts with the end of the audio is accepted, since the length of the audio is
rounded up, and has no frame. -/
theorem empty_vowel_accepted :
    0 < briefAudio.format.sampleRate ∧
    briefAudio.duration = 3 / 2 ∧ (openSample 0 3).vowelStart = 3 / 2 ∧
    ∃ consonant vowel, (openSample 0 3).slice briefAudio = .ok (consonant, vowel) ∧
      vowel.frames = 0 := by
  obtain ⟨consonant, vowel, hslice⟩ := (fits_openSample (by norm_num : 0 + 3 < 4)).exists_slice
  refine ⟨by decide, duration_briefAudio, ?_, consonant, vowel, hslice, no_frames_of_late hslice⟩
  rw [vowelStart_openSample]
  norm_num

end Sample

end SingingVoice
