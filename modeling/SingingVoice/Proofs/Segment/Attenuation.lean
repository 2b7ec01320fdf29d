import Mathlib
import SingingVoice.Proofs.Segment.Fading

/-!
# Fades attenuate

In exact arithmetic a fade multiplies every frame by one factor, and the factors lead from one end
amplitude to the other without ever turning back (`fade_attenuates`). This does not depend on how
decibels are turned into amplitudes, as long as no gain is silent, more gain is not less amplitude
and no gain at all is one: the amplitude is that of a gain between the two of the fade, and how far
it is between them is the progress of the ramp (`Ramp.factorBy_eq`).
-/

namespace SingingVoice

/-- The arithmetic of the real numbers with some power function, and so with some map from gains to
amplitudes. -/
noncomputable abbrev Exact.withPow (pow : ℝ → ℝ → ℝ) : Scalar ℝ :=
  { (inferInstance : Scalar ℝ) with pow }

/-- The amplitude factor of a gain in decibels, for some power function. -/
noncomputable def Segment.amplitudeBy (pow : ℝ → ℝ → ℝ) (gain : ℝ) : ℝ :=
  @amplitude ℝ (Exact.withPow pow) gain

/-- Amplitudes are positive, do not decrease with the gain, and are one at zero decibels. -/
structure Levels (pow : ℝ → ℝ → ℝ) : Prop where
  pos : ∀ gain, 0 < Segment.amplitudeBy pow gain
  mono : Monotone (Segment.amplitudeBy pow)
  full : Segment.amplitudeBy pow 0 = 1

/-- The amplitudes of the library are such amplitudes. -/
theorem levels_rpow : Levels Real.rpow := by
  have hamplitude : ∀ gain, Segment.amplitudeBy Real.rpow gain = (10 : ℝ) ^ (gain / 20) := by
    intro gain
    show (10.0 : ℝ) ^ (gain / 20.0) = _
    norm_num
  refine ⟨fun gain => ?_, fun gain gain' hle => ?_, ?_⟩
  · rw [hamplitude]
    exact Real.rpow_pos_of_pos (by norm_num) _
  · rw [hamplitude, hamplitude]
    exact Real.rpow_le_rpow_of_exponent_le (by norm_num) (by linarith)
  · rw [hamplitude, zero_div, Real.rpow_zero]

/-! ## Ramps -/

namespace Ramp

variable {pow : ℝ → ℝ → ℝ} {ramp : Ramp ℝ} {frame : Nat}

/-- The factor that a frame is multiplied by, for some power function. -/
noncomputable def factorBy (pow : ℝ → ℝ → ℝ) (ramp : Ramp ℝ) (frame : Nat) : ℝ :=
  @factor ℝ (Exact.withPow pow) ramp frame

/-- How far a ramp has come at a frame: nowhere before its window, and all the way after it. -/
noncomputable def progress (ramp : Ramp ℝ) (frame : Nat) : ℝ :=
  if frame < ramp.start then 0
  else if ramp.stop ≤ frame then 1
  else (frame - ramp.start : ℕ) / (max (ramp.stop - ramp.start) 1 : ℕ)

/-- The factor of a frame is the amplitude of the gain that the ramp has come to. -/
theorem factorBy_eq (pow : ℝ → ℝ → ℝ) (ramp : Ramp ℝ) (frame : Nat) :
    ramp.factorBy pow frame = Segment.amplitudeBy pow
      (ramp.fromGain + (ramp.toGain - ramp.fromGain) * ramp.progress frame) := by
  unfold factorBy factor progress
  split
  · rw [mul_zero, add_zero]
    rfl
  · split
    · rw [mul_one, add_sub_cancel]
      rfl
    · rfl

/-- A ramp has come somewhere from nowhere to all the way. -/
theorem progress_between (ramp : Ramp ℝ) (frame : Nat) :
    0 ≤ ramp.progress frame ∧ ramp.progress frame ≤ 1 := by
  unfold progress
  split_ifs with hbefore hafter
  · exact ⟨le_rfl, zero_le_one⟩
  · exact ⟨zero_le_one, le_rfl⟩
  · refine ⟨by positivity, div_le_one_of_le₀ ?_ (Nat.cast_nonneg _)⟩
    have hle : frame - ramp.start ≤ max (ramp.stop - ramp.start) 1 := by omega
    exact_mod_cast hle

/-- A ramp never turns back. -/
theorem progress_mono (ramp : Ramp ℝ) : Monotone ramp.progress := by
  intro frame frame' hle
  by_cases hbefore : frame < ramp.start
  · have hzero : ramp.progress frame = 0 := if_pos hbefore
    rw [hzero]
    exact (ramp.progress_between frame').1
  · by_cases hafter : ramp.stop ≤ frame'
    · have hone : ramp.progress frame' = 1 := by
        rw [progress, if_neg (by omega), if_pos hafter]
      rw [hone]
      exact (ramp.progress_between frame).2
    -- both frames lie in the window
    · rw [progress, progress, if_neg hbefore, if_neg (by omega), if_neg (by omega), if_neg hafter]
      have hcast : ((frame - ramp.start : ℕ) : ℝ) ≤ (frame' - ramp.start : ℕ) := by
        exact_mod_cast Nat.sub_le_sub_right hle _
      gcongr

/-- Before its window a ramp has not begun. -/
theorem progress_before (hframe : frame < ramp.start) : ramp.progress frame = 0 :=
  if_pos hframe

/-- After its window a ramp has ended. -/
theorem progress_after (hwindow : ramp.start ≤ ramp.stop) (hframe : ramp.stop ≤ frame) :
    ramp.progress frame = 1 := by
  rw [progress, if_neg (by omega), if_pos hframe]

/-- A ramp that rises gives factors that do not decrease. -/
theorem factorBy_mono (hpow : Levels pow) (ramp : Ramp ℝ) (hrise : ramp.fromGain ≤ ramp.toGain) :
    Monotone (ramp.factorBy pow) := by
  intro frame frame' hle
  rw [factorBy_eq, factorBy_eq]
  refine hpow.mono (add_le_add_right ?_ _)
  exact mul_le_mul_of_nonneg_left (ramp.progress_mono hle) (sub_nonneg.mpr hrise)

/-- A ramp that falls gives factors that do not increase. -/
theorem factorBy_anti (hpow : Levels pow) (ramp : Ramp ℝ) (hfall : ramp.toGain ≤ ramp.fromGain) :
    Antitone (ramp.factorBy pow) := by
  intro frame frame' hle
  rw [factorBy_eq, factorBy_eq]
  refine hpow.mono (add_le_add_right ?_ _)
  exact mul_le_mul_of_nonpos_left (ramp.progress_mono hle) (sub_nonpos.mpr hfall)

/-- The gain that a ramp has come to lies between its two gains. -/
theorem gain_between (ramp : Ramp ℝ) (frame : Nat) :
    ramp.fromGain + (ramp.toGain - ramp.fromGain) * ramp.progress frame ∈
      Set.uIcc ramp.fromGain ramp.toGain := by
  obtain ⟨hlow, hhigh⟩ := ramp.progress_between frame
  rw [← segment_eq_uIcc]
  refine ⟨1 - ramp.progress frame, ramp.progress frame, sub_nonneg.mpr hhigh, hlow,
    sub_add_cancel _ _, ?_⟩
  rw [smul_eq_mul, smul_eq_mul]
  ring

/-- The factors lie between the two end amplitudes. -/
theorem factorBy_between (hpow : Levels pow) (ramp : Ramp ℝ) (frame : Nat) :
    ramp.factorBy pow frame ∈
      Set.uIcc (Segment.amplitudeBy pow ramp.fromGain) (Segment.amplitudeBy pow ramp.toGain) := by
  rw [factorBy_eq]
  exact hpow.mono.mapsTo_uIcc (ramp.gain_between frame)

end Ramp

/-! ## Fades -/

namespace Segment

variable {pow : ℝ → ℝ → ℝ} {segment : Segment ℝ} {fromGain toGain start stop : ℝ}

/-- The fade of a segment, for some power function. -/
noncomputable def fadeBy (pow : ℝ → ℝ → ℝ) (segment : Segment ℝ) (fromGain toGain : ℝ)
    (start? stop? : Option ℝ) : Except (SegmentError ℝ) (Segment ℝ) :=
  @fade ℝ (Exact.withPow pow) segment fromGain toGain start? stop?

/-- The fade of the library is one of them. -/
theorem fadeBy_rpow (segment : Segment ℝ) (fromGain toGain : ℝ) (start? stop? : Option ℝ) :
    segment.fadeBy Real.rpow fromGain toGain start? stop? =
      segment.fade fromGain toGain start? stop? := rfl

/-- The ramp between two times, both cut to the segment. -/
noncomputable def rampBetween (segment : Segment ℝ) (fromGain toGain start stop : ℝ) : Ramp ℝ where
  fromGain := fromGain
  toGain := toGain
  start := min (segment.format.framesIn start) segment.frames
  stop := min (segment.format.framesIn stop) segment.frames

/-- The segment with every frame multiplied by a factor of its own. -/
noncomputable def scaled (segment : Segment ℝ) (factor : Nat → ℝ) : Segment ℝ :=
  segment.mapFrames fun frame x => x * factor frame

/-- Factors of one change nothing. -/
theorem scaled_of_one {factor : Nat → ℝ} (hfactor : ∀ frame, factor frame = 1) :
    segment.scaled factor = segment := by
  have hsamples : (segment.scaled factor).samples = segment.samples := by
    refine Array.ext_getElem? fun place => ?_
    simp [scaled, mapFrames, hfactor]
  exact congrArg (Segment.mk · segment.format) hsamples

/-- A ramp from full gain to full gain changes nothing. -/
theorem scaled_full (hpow : Levels pow) (start stop : ℝ) :
    segment.scaled ((segment.rampBetween 0 0 start stop).factorBy pow) = segment := by
  refine scaled_of_one fun frame => ?_
  rw [Ramp.factorBy_eq, ← hpow.full]
  congr 1
  simp [rampBetween]

/-- What a fade does: gains that amplify are refused, the first one first, then windows that are
empty. Otherwise every frame is multiplied by the factor of the ramp, also if it is the same
everywhere. -/
theorem fadeBy_eq (hpow : Levels pow) (segment : Segment ℝ) (fromGain toGain : ℝ)
    (start? stop? : Option ℝ) :
    segment.fadeBy pow fromGain toGain start? stop? =
      if 0 < fromGain then .error (.positiveGain fromGain)
      else if 0 < toGain then .error (.positiveGain toGain)
      else if stop?.getD segment.duration ≤ start?.getD 0 then
        .error (.emptyWindow (start?.getD 0) (stop?.getD segment.duration))
      else .ok (segment.scaled ((segment.rampBetween fromGain toGain (start?.getD 0)
        (stop?.getD segment.duration)).factorBy pow)) := by
  generalize hstart : start?.getD 0 = start
  generalize hstop : stop?.getD segment.duration = stop
  -- the fade of the library, in the order of the real numbers
  have hfade : segment.fadeBy pow fromGain toGain start? stop? =
      if (0.0 : ℝ) < fromGain then .error (.positiveGain fromGain)
      else if (0.0 : ℝ) < toGain then .error (.positiveGain toGain)
      else if stop?.getD segment.duration ≤ start?.getD 0.0 then
        .error (.emptyWindow (start?.getD 0.0) (stop?.getD segment.duration))
      else if decide (fromGain = 0.0) && decide (toGain = 0.0) then .ok segment
      else .ok (segment.scaled ((segment.rampBetween fromGain toGain (start?.getD 0.0)
        (stop?.getD segment.duration)).factorBy pow)) := rfl
  rw [hfade, Exact.zero_eq, hstart, hstop]
  refine if_congr Iff.rfl rfl (if_congr Iff.rfl rfl (if_congr Iff.rfl rfl ?_))
  split_ifs with hfull
  · rw [Bool.and_eq_true, decide_eq_true_eq, decide_eq_true_eq] at hfull
    rw [hfull.1, hfull.2, scaled_full hpow]
  · rfl

/-- Frames before the start of a window are those before the start of its ramp. -/
theorem factorBy_before {frame : Nat} (pow : ℝ → ℝ → ℝ) (hframe : frame < segment.frames)
    (hbefore : frame < segment.format.framesIn start) :
    (segment.rampBetween fromGain toGain start stop).factorBy pow frame =
      amplitudeBy pow fromGain := by
  have hlt : frame < (segment.rampBetween fromGain toGain start stop).start :=
    lt_min hbefore hframe
  rw [Ramp.factorBy_eq, Ramp.progress_before hlt, mul_zero, add_zero]
  rfl

/-- Frames from the end of a window on are those after its ramp. -/
theorem factorBy_after {frame : Nat} (pow : ℝ → ℝ → ℝ) (hwindow : start ≤ stop)
    (hafter : segment.format.framesIn stop ≤ frame) :
    (segment.rampBetween fromGain toGain start stop).factorBy pow frame =
      amplitudeBy pow toGain := by
  have hle : (segment.rampBetween fromGain toGain start stop).stop ≤ frame :=
    (min_le_left _ _).trans hafter
  have hends : (segment.rampBetween fromGain toGain start stop).start ≤
      (segment.rampBetween fromGain toGain start stop).stop :=
    min_le_min_right _ (segment.format.framesIn_mono hwindow)
  rw [Ramp.factorBy_eq, Ramp.progress_after hends hle, mul_one, add_sub_cancel]
  rfl

/-- What the factors of a fade between two times are, and what is left of a segment that they are
applied to. -/
structure Attenuates (pow : ℝ → ℝ → ℝ) (segment : Segment ℝ) (fromGain toGain start stop : ℝ)
    (factor : Nat → ℝ) (result : Segment ℝ) : Prop where
  format : result.format = segment.format
  whole : result.WholeFrames
  frames : result.frames = segment.frames
  /-- A frame is multiplied by one factor on all channels. -/
  samples : ∀ frame < segment.frames, ∀ channel < segment.format.frameSize,
    result.sample frame channel = segment.sample frame channel * factor frame
  pos : ∀ frame, 0 < factor frame
  le_one : ∀ frame, factor frame ≤ 1
  between : ∀ frame, factor frame ∈ Set.uIcc (amplitudeBy pow fromGain) (amplitudeBy pow toGain)
  rising : fromGain ≤ toGain → Monotone factor
  falling : toGain ≤ fromGain → Antitone factor
  /-- Before the window the first amplitude is kept. -/
  before : ∀ frame < segment.frames, frame < segment.format.framesIn start →
    factor frame = amplitudeBy pow fromGain
  /-- In time, this holds of frames that end when the window starts. -/
  early : ∀ frame < segment.frames, segment.format.millis (frame + 1) ≤ start →
    factor frame = amplitudeBy pow fromGain
  /-- After the window the second amplitude is kept. -/
  after : ∀ frame, segment.format.framesIn stop ≤ frame → factor frame = amplitudeBy pow toGain
  /-- In time, this holds of frames that start when the window has ended. -/
  late : ∀ frame, stop ≤ segment.format.millis frame → factor frame = amplitudeBy pow toGain
  /-- No sample grows. -/
  quieter : ∀ frame < segment.frames, ∀ channel < segment.format.frameSize,
    |result.sample frame channel| ≤ |segment.sample frame channel|

/-- The factors of a ramp between two times attenuate. -/
theorem attenuates_scaled (hpow : Levels pow) (hwhole : segment.WholeFrames)
    (hrate : 0 < segment.format.sampleRate) (hfrom : fromGain ≤ 0) (hto : toGain ≤ 0)
    (hwindow : start ≤ stop) :
    let factor := (segment.rampBetween fromGain toGain start stop).factorBy pow
    Attenuates pow segment fromGain toGain start stop factor (segment.scaled factor) := by
  intro factor
  let ramp := segment.rampBetween fromGain toGain start stop
  have hbetween : ∀ frame,
      factor frame ∈ Set.uIcc (amplitudeBy pow fromGain) (amplitudeBy pow toGain) :=
    Ramp.factorBy_between hpow ramp
  have hpos : ∀ frame, 0 < factor frame := fun frame =>
    (lt_min (hpow.pos fromGain) (hpow.pos toGain)).trans_le (hbetween frame).1
  have hle : ∀ frame, factor frame ≤ 1 := fun frame =>
    (hbetween frame).2.trans (max_le (hpow.full ▸ hpow.mono hfrom) (hpow.full ▸ hpow.mono hto))
  have hsize : (segment.scaled factor).samples.size =
      segment.frames * (segment.scaled factor).format.frameSize := Array.size_mapIdx.trans hwhole
  have hsamples : ∀ frame < segment.frames, ∀ channel < segment.format.frameSize,
      (segment.scaled factor).sample frame channel =
        segment.sample frame channel * factor frame :=
    fun frame hframe channel hchannel => sample_mapFrames hwhole _ hframe hchannel
  refine
    { format := rfl
      whole := whole_frames_of_size hsize
      frames := frames_of_size hsize
      samples := hsamples
      pos := hpos
      le_one := hle
      between := hbetween
      rising := Ramp.factorBy_mono hpow ramp
      falling := Ramp.factorBy_anti hpow ramp
      before := fun frame => factorBy_before pow
      early := fun frame hframe hstart => factorBy_before pow hframe ?_
      after := fun frame => factorBy_after pow hwindow
      late := fun frame hstop => factorBy_after pow hwindow ?_
      quieter := fun frame hframe channel hchannel => ?_ }
  · have hle := segment.format.framesIn_mono hstart
    rw [Format.framesIn_millis hrate] at hle
    exact hle
  · have hle := segment.format.framesIn_mono hstop
    rw [Format.framesIn_millis hrate] at hle
    exact hle
  · rw [hsamples frame hframe channel hchannel, abs_mul, abs_of_pos (hpos frame)]
    exact mul_le_of_le_one_right (abs_nonneg _) (hle frame)

/-- In exact arithmetic a fade with any gains and any window fails exactly if a gain is positive,
the first one first, or otherwise if the window is empty. If it does not fail, every frame is
multiplied by the factor of a ramp. The factors lie between the amplitudes of the two gains, are one
at most, and lead from the one to the other without turning back; they are the first before the
window and the second after it, wherever the window lies. So no sample grows. A fade from full gain
to full gain leaves the segment as it is, as its ramp does. -/
theorem fade_attenuates (hpow : Levels pow) (hwhole : segment.WholeFrames)
    (hrate : 0 < segment.format.sampleRate) (fromGain toGain : ℝ) (start? stop? : Option ℝ) :
    let start := start?.getD 0
    let stop := stop?.getD segment.duration
    let fade := segment.fadeBy pow fromGain toGain start? stop?
    let factor := (segment.rampBetween fromGain toGain start stop).factorBy pow
    ((∃ error, fade = .error error) ↔ 0 < fromGain ∨ 0 < toGain ∨ stop ≤ start) ∧
    (0 < fromGain → fade = .error (.positiveGain fromGain)) ∧
    (fromGain ≤ 0 → 0 < toGain → fade = .error (.positiveGain toGain)) ∧
    (fromGain ≤ 0 → toGain ≤ 0 → stop ≤ start → fade = .error (.emptyWindow start stop)) ∧
    (fromGain ≤ 0 → toGain ≤ 0 → start < stop →
      fade = .ok (segment.scaled factor) ∧
      Attenuates pow segment fromGain toGain start stop factor (segment.scaled factor) ∧
      (fromGain = 0 → toGain = 0 → segment.scaled factor = segment)) := by
  intro start stop fade factor
  have hfade := fadeBy_eq hpow segment fromGain toGain start? stop?
  have hfirst : 0 < fromGain → fade = .error (.positiveGain fromGain) :=
    fun hloud => hfade.trans (if_pos hloud)
  have hsecond : fromGain ≤ 0 → 0 < toGain → fade = .error (.positiveGain toGain) :=
    fun hfrom hloud => hfade.trans ((if_neg (not_lt.mpr hfrom)).trans (if_pos hloud))
  have hrest : fromGain ≤ 0 → toGain ≤ 0 → fade =
      if stop ≤ start then .error (.emptyWindow start stop) else .ok (segment.scaled factor) :=
    fun hfrom hto => hfade.trans ((if_neg (not_lt.mpr hfrom)).trans (if_neg (not_lt.mpr hto)))
  have hempty : fromGain ≤ 0 → toGain ≤ 0 → stop ≤ start →
      fade = .error (.emptyWindow start stop) :=
    fun hfrom hto hle => (hrest hfrom hto).trans (if_pos hle)
  have hfaded : fromGain ≤ 0 → toGain ≤ 0 → start < stop → fade = .ok (segment.scaled factor) :=
    fun hfrom hto hlt => (hrest hfrom hto).trans (if_neg (not_le.mpr hlt))
  refine ⟨⟨?_, ?_⟩, hfirst, hsecond, hempty, fun hfrom hto hlt => ⟨hfaded hfrom hto hlt,
    attenuates_scaled hpow hwhole hrate hfrom hto hlt.le, ?_⟩⟩
  · rintro ⟨error, herror⟩
    by_contra hnone
    simp only [not_or, not_lt, not_le] at hnone
    obtain ⟨hfrom, hto, hlt⟩ := hnone
    rw [hfaded hfrom hto hlt] at herror
    cases herror
  · intro hrefused
    rcases lt_or_ge 0 fromGain with hloud | hfrom
    · exact ⟨_, hfirst hloud⟩
    · rcases lt_or_ge 0 toGain with hloud | hto
      · exact ⟨_, hsecond hfrom hloud⟩
      · have hle := (hrefused.resolve_left hfrom.not_gt).resolve_left hto.not_gt
        exact ⟨_, hempty hfrom hto hle⟩
  · intro hfull hfull'
    subst hfull hfull'
    exact scaled_full hpow start stop

/-- Four frames that are faded by forty decibels over the two in the middle. The window starts with
full gain, and after it a hundredth is left. -/
theorem middle_faded :
    let segment : Segment ℝ := ⟨#[1, 1, 1, 1], .mono 1000⟩
    Levels Real.rpow ∧ segment.WholeFrames ∧ 0 < segment.format.sampleRate ∧
      segment.fade 0 3 none none = .error (.positiveGain 3) ∧
      segment.fade 0 (-40) (some 3) (some 3) = .error (.emptyWindow 3 3) ∧
      ∃ result, segment.fade 0 (-40) (some 1) (some 3) = .ok result ∧ result.frames = 4 ∧
        result.sample 0 0 = 1 ∧ result.sample 3 0 = 1 / 100 ∧
        1 / 100 ≤ result.sample 2 0 ∧ result.sample 2 0 ≤ result.sample 1 0 := by
  intro segment
  simp only [← fadeBy_rpow]
  have hwhole : segment.WholeFrames := whole_frames_of_size (rfl : _ = 4 * 1)
  have hframes : segment.frames = 4 := frames_of_size rfl
  have hrate : 0 < segment.format.sampleRate := by decide
  obtain ⟨-, -, hsecond, -, -⟩ := fade_attenuates levels_rpow hwhole hrate 0 3 none none
  obtain ⟨-, -, -, hempty, -⟩ := fade_attenuates levels_rpow hwhole hrate 0 (-40) (some 3) (some 3)
  obtain ⟨-, -, -, -, hfaded⟩ := fade_attenuates levels_rpow hwhole hrate 0 (-40) (some 1) (some 3)
  refine ⟨levels_rpow, hwhole, hrate, hsecond le_rfl (by norm_num),
    hempty le_rfl (by norm_num) le_rfl, ?_⟩
  obtain ⟨hresult, h, -⟩ := hfaded le_rfl (by norm_num) (by norm_num)
  have hquiet : amplitudeBy Real.rpow (-40) = 1 / 100 := by
    have hgain : (-40 : ℝ) / 20.0 = -(2 : ℕ) := by norm_num
    show (10.0 : ℝ) ^ ((-40 : ℝ) / 20.0) = _
    rw [hgain, Real.rpow_neg (by norm_num), Real.rpow_natCast]
    norm_num
  have hstart : segment.format.framesIn (1 : ℝ) = 1 := by
    exact_mod_cast Format.framesIn_of_thousand 1
  have hstop : segment.format.framesIn (3 : ℝ) = 3 := Format.framesIn_of_thousand 3
  have hsample : ∀ frame < 4, _ = segment.sample frame 0 * _ := fun frame hframe =>
    h.samples frame (hframe.trans_eq hframes.symm) 0 (by decide)
  have hone : ∀ frame < 4, segment.sample frame 0 = 1 := by
    intro frame hframe
    interval_cases frame <;> rfl
  have hbefore := h.before 0 (by omega) (hstart.symm ▸ Nat.one_pos)
  have hafter := h.after 3 hstop.le
  have hbetween := (h.between 2).1
  have hfalling := h.falling (by norm_num) (by decide : 1 ≤ 2)
  rw [levels_rpow.full] at hbefore hbetween
  rw [hquiet] at hafter hbetween
  refine ⟨_, hresult, h.frames.trans hframes, ?_, ?_, ?_, ?_⟩
  · rw [hsample 0 (by decide), hone 0 (by decide), hbefore, one_mul]
  · rw [hsample 3 (by decide), hone 3 (by decide), hafter, one_mul]
  · rw [hsample 2 (by decide), hone 2 (by decide), one_mul]
    exact (min_eq_right (by norm_num : (1 / 100 : ℝ) ≤ 1)) ▸ hbetween
  · rw [hsample 2 (by decide), hsample 1 (by decide), hone 2 (by decide), hone 1 (by decide),
      one_mul, one_mul]
    exact hfalling

end Segment

end SingingVoice
