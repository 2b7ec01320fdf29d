import Mathlib
import SingingVoice.Proofs.Exact.Rounding
import SingingVoice.Proofs.Segment.Parts
import SingingVoice.Proofs.Wave.Reading

/-!
# Segments after export

What is left of a segment that was exported as a wave file and read again. Its frames and its format
are kept, and every sample is replaced by the value of the 16-bit number that it was written as
(`ofWave_toWave`). In exact arithmetic that value is `restored`: a sample is scaled by the greatest
16-bit number and read as a fraction of one more than it, so the two ends of the range are drawn in
a little.
-/

namespace SingingVoice.Segment

open Wave

section Reading

variable {α : Type} {segment : Segment α}

/-- Whole frames divide the samples. -/
theorem WholeFrames.size_mod (hwhole : segment.WholeFrames) :
    segment.samples.size % segment.format.frameSize = 0 :=
  Nat.mod_eq_zero_of_dvd (Dvd.intro_left segment.frames hwhole.symm)

variable [Scalar α]

/-- The samples as the 16-bit numbers that they are written as. -/
def numbers (segment : Segment α) : List Int :=
  segment.samples.toList.map quantize

/-- There is a number for every sample. -/
theorem length_numbers (segment : Segment α) : segment.numbers.length = segment.samples.size := by
  rw [numbers, List.length_map, Array.length_toList]

/-- A wave file of 16-bit numbers. -/
def waveOf (format : Format) (numbers : List Int) : List UInt8 :=
  waveHeader format numbers.length ++ written numbers

/-- The wave file of a segment is that of its numbers. -/
theorem toWave_eq (segment : Segment α) :
    segment.toWave = waveOf segment.format segment.numbers := by
  rw [toWave, waveOf, length_numbers, written, numbers, List.flatMap_map]

/-- The head of the segment's wave file is read as it was written: the description of 16-bit
samples, how many there are, and the numbers behind it. Writer and reader agree on this much unless
a size in the head does not fit into its word (`headerRead_of_fits`). -/
def HeaderRead (segment : Segment α) : Prop :=
  Header.read segment.toWave =
    .ok ((Header.written segment.format, segment.samples.size), written segment.numbers)

/-- The head of a wave file of so many numbers is read as it was written, whichever they are. -/
def HeadRead (format : Format) (count : Nat) : Prop :=
  ∀ numbers : List Int, numbers.length = count →
    Header.read (waveOf format numbers) = .ok ((Header.written format, count), written numbers)

/-- The head is read as it was written if the sizes of the file fit into it. -/
theorem headRead_of_fits {format : Format} {count : Nat} (hwhole : count % format.frameSize = 0)
    (hfits : Header.Fits format count) : HeadRead format count := by
  rintro numbers rfl
  exact Header.read_waveHeader hfits hwhole _

/-- The head of a segment's wave file is read as it was written if the sizes of the file fit into
it. -/
theorem headerRead_of_fits (hwhole : segment.WholeFrames)
    (hfits : Header.Fits segment.format segment.samples.size) : segment.HeaderRead := by
  unfold HeaderRead
  rw [toWave_eq]
  exact headRead_of_fits hwhole.size_mod hfits segment.numbers segment.length_numbers

/-- Whole frames are written. -/
theorem writeWave_of_whole (hwhole : segment.WholeFrames) :
    segment.writeWave = .ok segment.toWave := by
  rw [writeWave, finishWave, if_pos hwhole.size_mod]
  rfl

/-- Samples are written as numbers that 16 bits can hold. -/
theorem isSample_numbers (segment : Segment α) : ∀ n ∈ segment.numbers, IsSample n := by
  intro n hn
  obtain ⟨x, -, rfl⟩ := List.mem_map.mp hn
  exact isSample_quantize x

/-- A wave file whose head is read as it was written is read as the values of its numbers. -/
theorem ofWave_waveOf {format : Format} {numbers : List Int} {frames : Nat}
    (hnumbers : ∀ n ∈ numbers, IsSample n) (hwhole : numbers.length = frames * format.frameSize)
    (hread : Header.read (waveOf format numbers) =
      .ok ((Header.written format, numbers.length), written numbers)) :
    ofWave (waveOf format numbers) = .ok (⟨(numbers.map level).toArray, format⟩ : Segment α) := by
  have hchannels : Channels.ofCount? (Header.written format).channels = some format.channels :=
    Channels.ofCount?_count _
  have hsamples := readSamples_written hnumbers format (#[] : Array α) []
  rw [List.append_nil, Array.empty_append] at hsamples
  have hsize : (numbers.map (level : Int → α)).toArray.size = frames * format.frameSize := by
    rw [List.size_toArray, List.length_map]
    exact hwhole
  unfold ofWave
  rw [hread]
  dsimp only
  rw [hchannels]
  dsimp only
  rw [hsamples]
  exact congrArg Except.ok (ofSamples_of_size hsize)

/-- A segment whose head is read as it was written is read back with every sample as the value of
its number. -/
theorem ofWave_toWave (hwhole : segment.WholeFrames) (hheader : segment.HeaderRead) :
    ofWave segment.toWave = .ok (segment.map fun x => level (quantize x)) := by
  have hlength := segment.length_numbers
  unfold HeaderRead at hheader
  rw [toWave_eq, ← hlength] at hheader
  rw [toWave_eq, ofWave_waveOf segment.isSample_numbers (hlength.trans hwhole) hheader, numbers,
    List.map_map, ← Array.toList_map, Array.toArray_toList]
  rfl

end Reading

/-- What an exact sample is after it was written as a 16-bit number and read again. -/
noncomputable def restored (x : ℝ) : ℝ :=
  Scalar.round (Scalar.clamp (-1) 1 x * 32767) / 32768

/-- A scaled sample is rounded to a number that 16 bits can hold, with one of them to spare. -/
theorem exists_scaled_eq (x : ℝ) : ∃ n : ℤ,
    Scalar.round (Scalar.clamp (-1) 1 x * 32767) = (n : ℝ) ∧ -32767 ≤ n ∧ n ≤ 32767 ∧
      |(n : ℝ) - Scalar.clamp (-1) 1 x * 32767| ≤ 1 / 2 := by
  obtain ⟨hleft, hright⟩ := Exact.clamp_between (by norm_num : (-1 : ℝ) ≤ 1) x
  obtain ⟨n, hn, hnear⟩ := Exact.exists_round_eq (Scalar.clamp (-1) 1 x * 32767)
  have hlow : ((-32767 : ℤ) : ℝ) ≤ Scalar.clamp (-1) 1 x * 32767 := by
    push_cast
    linarith
  have hhigh : Scalar.clamp (-1) 1 x * 32767 ≤ ((32767 : ℤ) : ℝ) := by
    push_cast
    linarith
  obtain ⟨hdown, hup⟩ := Exact.round_between hlow hhigh
  rw [hn] at hdown hup
  exact ⟨n, hn, Int.cast_le.mp hdown, Int.cast_le.mp hup, hnear⟩

/-- In exact arithmetic the number of a sample is the scaled sample rounded. It needs no cut, since
it is not the smallest that 16 bits can hold. -/
theorem cast_quantize (x : ℝ) :
    ((quantize x : ℤ) : ℝ) = Scalar.round (Scalar.clamp (-1) 1 x * 32767) := by
  obtain ⟨n, hn, hlow, hhigh, -⟩ := exists_scaled_eq x
  have hquantize : quantize x = n := by
    unfold quantize Scalar.toIntIn
    have hliterals : Scalar.clamp (-1.0) 1.0 x * 32767.0 = Scalar.clamp (-1) 1 x * (32767 : ℝ) := by
      norm_num
    dsimp only
    rw [hliterals, hn, Exact.toInt_intCast, Word.count_eq]
    omega
  rw [hquantize, hn]

/-- In exact arithmetic the value of a sample's number is what the sample is restored as. -/
theorem level_quantize (x : ℝ) : (level (quantize x) : ℝ) = restored x := by
  rw [restored, ← cast_quantize]
  show ((quantize x : ℤ) : ℝ) / ((32768 : ℕ) : ℝ) = (quantize x : ℤ) / 32768
  norm_num

/-- A restored sample lies inside the range of the samples. -/
theorem restored_between (x : ℝ) : -1 < restored x ∧ restored x < 1 := by
  obtain ⟨n, hn, hlow, hhigh, -⟩ := exists_scaled_eq x
  have hleft : (-32767 : ℝ) ≤ n := by exact_mod_cast hlow
  have hright : (n : ℝ) ≤ 32767 := by exact_mod_cast hhigh
  rw [restored, hn, lt_div_iff₀ (by norm_num), div_lt_iff₀ (by norm_num)]
  constructor <;> linarith

/-- A restored sample is at most one and a half steps away from the sample cut to the range: half a
step from rounding, and up to one from reading on another scale than writing. -/
theorem restored_near (x : ℝ) : |restored x - Scalar.clamp (-1) 1 x| ≤ 1.5 / 32768 := by
  obtain ⟨n, hn, -, -, hnear⟩ := exists_scaled_eq x
  obtain ⟨hleft, hright⟩ := Exact.clamp_between (by norm_num : (-1 : ℝ) ≤ 1) x
  obtain ⟨hbelow, habove⟩ := abs_le.mp hnear
  have hdifference : restored x - Scalar.clamp (-1) 1 x =
      ((n : ℝ) - Scalar.clamp (-1) 1 x * 32767 - Scalar.clamp (-1) 1 x) / 32768 := by
    rw [restored, hn]
    ring
  rw [hdifference, abs_div, abs_of_pos (by norm_num : (0 : ℝ) < 32768)]
  gcongr
  rw [abs_le]
  constructor <;> linarith

/-- Restoring keeps the order of samples. -/
theorem restored_mono : Monotone restored := by
  intro x y hle
  have hcut : Scalar.clamp (-1) 1 x ≤ Scalar.clamp (-1) 1 y :=
    Exact.clamp_mono (by norm_num) hle
  have hround : Scalar.round (Scalar.clamp (-1) 1 x * 32767) ≤
      Scalar.round (Scalar.clamp (-1) 1 y * 32767) := Exact.round_mono (by linarith)
  exact div_le_div_of_nonneg_right hround (by norm_num)

/-- In exact arithmetic a segment of whole frames is exported, and if the head of the file is read
as it was written, the segment read from it has the same format and the same frames, with every
sample restored in its place. A restored sample lies strictly between -1 and 1, is at most one and a
half of the 16-bit steps away from the sample cut to that range, and follows the order of the
samples. -/
theorem exported_segment_reads_back (segment : Segment ℝ) (hwhole : segment.WholeFrames)
    (hheader : segment.HeaderRead) :
    (∃ bytes back, segment.writeWave = .ok bytes ∧ ofWave bytes = .ok back ∧
      back.format = segment.format ∧ back.frames = segment.frames ∧ back.WholeFrames ∧
      back.samples = segment.samples.map restored) ∧
    (∀ x, (-1 < restored x ∧ restored x < 1) ∧
      |restored x - Scalar.clamp (-1) 1 x| ≤ 1.5 / 32768) ∧
    Monotone restored := by
  refine ⟨⟨segment.toWave, segment.map restored, writeWave_of_whole hwhole, ?_, rfl, ?_, ?_, rfl⟩,
    fun x => ⟨restored_between x, restored_near x⟩, restored_mono⟩
  · rw [ofWave_toWave hwhole hheader]
    simp only [level_quantize]
  · show (segment.samples.map restored).size / _ = _
    rw [Array.size_map]
    rfl
  · show (segment.samples.map restored).size = (segment.samples.map restored).size / _ * _
    rw [Array.size_map]
    exact hwhole

/-- A stereo frame with a sample above the range and one inside it. -/
noncomputable def clippedFrame : Segment ℝ :=
  ⟨#[(2 : ℕ), -1 / (2 : ℕ)], ⟨44100, .stereo⟩⟩

/-- A clipped frame is read back with the first sample a step below the range. The second is half
way between two numbers, and rounding it away from zero gives back the sample as it was. -/
theorem clippedFrame_reads_back :
    clippedFrame.WholeFrames ∧ clippedFrame.HeaderRead ∧
      ∃ (bytes : List UInt8) (back : Segment ℝ),
        clippedFrame.writeWave = .ok bytes ∧ ofWave bytes = .ok back ∧
        back.format = ⟨44100, .stereo⟩ ∧ back.frames = 1 ∧
        back.samples = #[32767 / 32768, -1 / 2] := by
  have hwhole : clippedFrame.WholeFrames := rfl
  have hheader : clippedFrame.HeaderRead := headerRead_of_fits hwhole ⟨by decide, by decide⟩
  obtain ⟨⟨bytes, back, hwrite, hread, hformat, hframes, -, hsamples⟩, -, -⟩ :=
    exported_segment_reads_back clippedFrame hwhole hheader
  have hloud : restored (2 : ℕ) = 32767 / 32768 := by
    have hcut : Scalar.clamp (-1) 1 ((2 : ℕ) : ℝ) * 32767 = ((32767 : ℤ) : ℝ) := by
      rw [Exact.clamp_eq (by norm_num)]
      norm_num
    rw [restored, hcut, Exact.round_intCast]
    norm_num
  have hhalf : restored (-1 / (2 : ℕ)) = -1 / 2 := by
    have hcut : Scalar.clamp (-1) 1 (-1 / (2 : ℕ) : ℝ) * 32767 = -32767 / 2 := by
      rw [Exact.clamp_eq (by norm_num)]
      norm_num
    have hround : Scalar.round (-32767 / 2 : ℝ) = -16384 := by
      rw [Exact.round_of_neg (by norm_num)]
      norm_num
    rw [restored, hcut, hround]
    norm_num
  refine ⟨hwhole, hheader, bytes, back, hwrite, hread, hformat, hframes, ?_⟩
  rw [hsamples, clippedFrame, List.map_toArray, List.map_cons, List.map_cons, List.map_nil, hloud,
    hhalf]

end SingingVoice.Segment
