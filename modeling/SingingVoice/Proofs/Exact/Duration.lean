import Mathlib
import SingingVoice.Format
import SingingVoice.Proofs.Exact.Rounding

/-!
# Exact durations

In exact arithmetic a number of frames lasts exactly as long as `Format.millis` says, and
`Format.framesIn` finds it back. `Format.time` extends durations to negative numbers of frames, so
that they can be subtracted freely.
-/

namespace SingingVoice

namespace Format

/-- The duration of a number of frames, which may be negative, in milliseconds. -/
noncomputable def time (format : Format) (frames : ℤ) : ℝ :=
  frames / format.sampleRate * 1000

variable {format : Format}

/-- The duration of a count of frames. -/
theorem millis_eq_time (frames : Nat) : (format.millis frames : ℝ) = format.time frames := by
  unfold millis time
  norm_num

/-- No number of frames lasts less than no time. -/
theorem millis_nonneg (frames : Nat) : 0 ≤ (format.millis frames : ℝ) := by
  rw [millis_eq_time, time]
  positivity

/-- Durations of frames add up. -/
theorem time_add (first second : ℤ) :
    format.time (first + second) = format.time first + format.time second := by
  unfold time
  push_cast
  ring

/-- Durations of frames are subtracted like the frames. -/
theorem time_sub (first second : ℤ) :
    format.time (first - second) = format.time first - format.time second := by
  unfold time
  push_cast
  ring

/-- At a positive rate longer durations have more frames. -/
theorem time_le_iff (hrate : 0 < format.sampleRate) {first second : ℤ} :
    format.time first ≤ format.time second ↔ first ≤ second := by
  have hpos : (0 : ℝ) < format.sampleRate := by exact_mod_cast hrate
  unfold time
  rw [mul_le_mul_iff_of_pos_right (by norm_num), div_le_div_iff_of_pos_right hpos]
  exact Int.cast_le

/-- The frames of a duration are counted from half a frame above it. -/
theorem framesIn_eq_floor (format : Format) (ms : ℝ) :
    format.framesIn ms = ⌊ms * format.sampleRate / 1000 + 1 / 2⌋₊ := by
  have hliteral : ms * Scalar.ofNat format.sampleRate / 1000.0 =
      ms * format.sampleRate / 1000 := by
    rw [Exact.ofNat_eq]
    norm_num
  unfold framesIn
  dsimp only
  rw [hliteral, Exact.zero_eq]
  generalize ms * (format.sampleRate : ℝ) / 1000 = exact
  rcases le_or_gt 0 exact with hnonneg | hneg
  · rw [Exact.round_of_nonneg hnonneg, Exact.toNat_eq, Exact.isFinite_eq, ← Int.floor_toNat,
      Int.floor_intCast, Int.floor_toNat]
    split_ifs with hpos
    · rfl
    · have hfloor : ¬ (0 : ℝ) < (⌊exact + 1 / 2⌋ : ℝ) := fun h => hpos ⟨rfl, h⟩
      have hle : ⌊exact + 1 / 2⌋ ≤ 0 := by exact_mod_cast not_lt.mp hfloor
      rw [← Int.floor_toNat, Int.toNat_of_nonpos hle]
  · have hround : Scalar.round exact ≤ 0 := by
      have hceil : ⌈exact - 1 / 2⌉ ≤ 0 := Int.ceil_le.mpr (by push_cast; linarith)
      rw [Exact.round_of_neg hneg]
      exact_mod_cast hceil
    rw [if_neg fun h => absurd h.2 (not_lt.mpr hround), eq_comm, Nat.floor_eq_zero]
    linarith

/-- Longer durations have no fewer frames. -/
theorem framesIn_mono (format : Format) : Monotone (format.framesIn : ℝ → Nat) := by
  intro first second hle
  rw [framesIn_eq_floor, framesIn_eq_floor]
  exact Nat.floor_mono (by gcongr)

/-- A duration that is not positive has no frames. -/
theorem framesIn_of_nonpos {ms : ℝ} (h : ms ≤ 0) : format.framesIn ms = 0 := by
  have hle : ms * format.sampleRate / 1000 ≤ 0 :=
    div_nonpos_of_nonpos_of_nonneg (mul_nonpos_of_nonpos_of_nonneg h (Nat.cast_nonneg _))
      (by norm_num)
  rw [framesIn_eq_floor, Nat.floor_eq_zero]
  linarith

/-- A duration of whole frames, none if it is negative. -/
theorem framesIn_time (hrate : 0 < format.sampleRate) (frames : ℤ) :
    format.framesIn (format.time frames) = frames.toNat := by
  have hpos : (0 : ℝ) < format.sampleRate := by exact_mod_cast hrate
  have hframes : format.time frames * format.sampleRate / 1000 = (frames : ℝ) := by
    unfold time
    field_simp
  have hfloor : ⌊(frames : ℝ) + 1 / 2⌋ = frames := by
    rw [Int.floor_eq_iff]
    constructor <;> linarith
  rw [framesIn_eq_floor, hframes, ← Int.floor_toNat, hfloor]

/-- The duration of a count of frames has these frames. -/
theorem framesIn_millis (hrate : 0 < format.sampleRate) (frames : Nat) :
    format.framesIn (format.millis frames : ℝ) = frames := by
  rw [millis_eq_time, framesIn_time hrate]
  exact Int.toNat_natCast frames

/-- The frames of a duration last as long as it does, up to half a frame. -/
theorem abs_millis_framesIn_sub_le (hrate : 0 < format.sampleRate) {ms : ℝ} (h : 0 ≤ ms) :
    |format.millis (format.framesIn ms) - ms| ≤ 500 / format.sampleRate := by
  have hpos : (0 : ℝ) < format.sampleRate := by exact_mod_cast hrate
  have hframe : (0 : ℝ) < 1000 / format.sampleRate := by positivity
  have hexact : 0 ≤ ms * format.sampleRate / 1000 := by positivity
  have hscaled : format.millis (format.framesIn ms) - ms =
      (⌊ms * format.sampleRate / 1000 + 1 / 2⌋₊ - ms * format.sampleRate / 1000) *
        (1000 / format.sampleRate) := by
    rw [framesIn_eq_floor, millis_eq_time, time, Int.cast_natCast]
    field_simp
  have hnear := Exact.abs_floor_half_sub_le hexact
  calc |format.millis (format.framesIn ms) - ms|
      = |(⌊ms * format.sampleRate / 1000 + 1 / 2⌋₊ : ℝ) - ms * format.sampleRate / 1000| *
          (1000 / format.sampleRate) := by rw [hscaled, abs_mul, abs_of_pos hframe]
    _ ≤ 1 / 2 * (1000 / format.sampleRate) := mul_le_mul_of_nonneg_right hnear hframe.le
    _ = 500 / format.sampleRate := by ring

/-- Whole frames are added to those of a duration. -/
theorem framesIn_add_millis (hrate : 0 < format.sampleRate) {ms : ℝ} (h : 0 ≤ ms) (frames : Nat) :
    format.framesIn (ms + format.millis frames) = format.framesIn ms + frames := by
  have hpos : (0 : ℝ) < format.sampleRate := by exact_mod_cast hrate
  have hshift : (ms + format.millis frames) * format.sampleRate / 1000 + 1 / 2 =
      ms * format.sampleRate / 1000 + 1 / 2 + (frames : ℝ) := by
    rw [millis_eq_time, time]
    field_simp
    push_cast
    ring
  rw [framesIn_eq_floor, framesIn_eq_floor, hshift, Nat.floor_add_natCast (by positivity)]

/-- A duration has fewer frames than a count if it is shorter by more than half a frame. -/
theorem framesIn_lt_iff (hrate : 0 < format.sampleRate) {ms : ℝ} (h : 0 ≤ ms) (count : Nat) :
    format.framesIn ms < count ↔ ms + format.millis 1 / 2 < format.millis count := by
  have hpos : (0 : ℝ) < format.sampleRate := by exact_mod_cast hrate
  have hscaled : ms * format.sampleRate / 1000 + 1 / 2 =
      (ms + format.time 1 / 2) * format.sampleRate / 1000 := by
    unfold time
    field_simp
    norm_num
  have hcount : (count : ℝ) = format.time count * format.sampleRate / 1000 := by
    unfold time
    field_simp
    norm_num
  rw [framesIn_eq_floor, Nat.floor_lt (by positivity), hscaled, hcount,
    div_lt_div_iff_of_pos_right (by norm_num), mul_lt_mul_iff_of_pos_right hpos, millis_eq_time,
    millis_eq_time]
  norm_cast

/-- The frames of two durations together are their frames, up to one. -/
theorem framesIn_add (format : Format) {first second : ℝ} (hfirst : 0 ≤ first)
    (hsecond : 0 ≤ second) :
    format.framesIn (first + second) ≤ format.framesIn first + format.framesIn second + 1 ∧
      format.framesIn first + format.framesIn second ≤ format.framesIn (first + second) + 1 := by
  have hsum : (first + second) * format.sampleRate / 1000 =
      first * format.sampleRate / 1000 + second * format.sampleRate / 1000 := by
    ring
  have hfirst' : 0 ≤ first * format.sampleRate / 1000 := by positivity
  have hsecond' : 0 ≤ second * format.sampleRate / 1000 := by positivity
  simp only [framesIn_eq_floor, hsum]
  generalize first * (format.sampleRate : ℝ) / 1000 = x at *
  generalize second * (format.sampleRate : ℝ) / 1000 = y at *
  have hx := abs_le.mp (Exact.abs_floor_half_sub_le hfirst')
  have hy := abs_le.mp (Exact.abs_floor_half_sub_le hsecond')
  have hxy := abs_le.mp (Exact.abs_floor_half_sub_le (add_nonneg hfirst' hsecond'))
  constructor
  · have h : (⌊x + y + 1 / 2⌋₊ : ℝ) < ⌊x + 1 / 2⌋₊ + ⌊y + 1 / 2⌋₊ + 2 := by linarith
    have h' : ⌊x + y + 1 / 2⌋₊ < ⌊x + 1 / 2⌋₊ + ⌊y + 1 / 2⌋₊ + 2 := by exact_mod_cast h
    omega
  · have h : (⌊x + 1 / 2⌋₊ : ℝ) + ⌊y + 1 / 2⌋₊ < ⌊x + y + 1 / 2⌋₊ + 2 := by linarith
    have h' : ⌊x + 1 / 2⌋₊ + ⌊y + 1 / 2⌋₊ < ⌊x + y + 1 / 2⌋₊ + 2 := by exact_mod_cast h
    omega

/-- A duration is a whole number of frames, and not negative. -/
def Whole (format : Format) (ms : ℝ) : Prop :=
  ∃ frames : Nat, ms = format.millis frames

/-- A duration of whole frames lasts as long as its frames. -/
theorem Whole.time_framesIn (hrate : 0 < format.sampleRate) {ms : ℝ} (h : format.Whole ms) :
    format.time (format.framesIn ms) = ms := by
  obtain ⟨frames, rfl⟩ := h
  rw [framesIn_millis hrate, millis_eq_time]

/-- No time is a whole number of frames. -/
theorem whole_zero : format.Whole 0 :=
  ⟨0, by rw [millis_eq_time]; norm_num [time]⟩

/-- At a thousand frames per second a frame lasts a millisecond, in every layout. -/
theorem millis_of_rate (hrate : format.sampleRate = 1000) (frames : Nat) :
    format.millis frames = (frames : ℝ) := by
  rw [millis_eq_time, time, hrate]
  norm_num

/-- At a thousand frames per second a frame lasts a millisecond. -/
theorem millis_of_thousand (frames : Nat) : (mono 1000).millis frames = (frames : ℝ) :=
  millis_of_rate rfl frames

/-- At a thousand frames per second whole milliseconds are whole frames. -/
theorem framesIn_of_thousand (frames : Nat) : (mono 1000).framesIn (frames : ℝ) = frames := by
  rw [← millis_of_thousand]
  exact framesIn_millis (by decide) frames

/-- At a thousand frames per second no time has no frames. -/
theorem framesIn_zero_of_thousand : (mono 1000).framesIn (0.0 : ℝ) = 0 := by
  rw [Exact.zero_eq]
  exact framesIn_of_nonpos le_rfl

end Format

end SingingVoice
