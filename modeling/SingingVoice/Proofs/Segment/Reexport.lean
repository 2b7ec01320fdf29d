import Mathlib
import SingingVoice.Proofs.Result
import SingingVoice.Proofs.Segment.Export

/-!
# Segments exported again

What becomes of a wave file that is read and written again, any number of times. Each cycle replaces
every number by the one that its value is written as (`reexport_waveOf`). In exact arithmetic that
number is `Wave.inward`: reading takes a fraction of 32768 but writing one of 32767, so a number of
the louder half of the range comes back one step closer to zero. The main theorem,
`reexports_move_inward`, follows the numbers through the cycles: only a file whose numbers are all
in the quieter half is written as it was, and in the end every file becomes such a one.
-/

namespace SingingVoice

namespace Wave

/-- The number that a 16-bit number is written as after it was read, in exact arithmetic: one of the
louder half moves a step towards zero. -/
def inward (n : Int) : Int :=
  if n.natAbs ≤ 16384 then n else n - n.sign

/-- A number stays exactly if it is in the quieter half. -/
theorem inward_eq_self_iff {n : Int} : inward n = n ↔ n.natAbs ≤ 16384 := by
  unfold inward
  split_ifs with h
  · simp [h]
  · have hsign : n.sign ≠ 0 := by
      rw [ne_eq, Int.sign_eq_zero_iff_zero]
      omega
    omega

/-- A number of the louder half keeps its sign and loses a step. -/
theorem inward_of_loud {n : Int} (h : 16384 < n.natAbs) :
    (inward n).sign = n.sign ∧ (inward n).natAbs = n.natAbs - 1 := by
  rw [inward, if_neg (not_le.mpr h)]
  rcases lt_or_gt_of_ne (by omega : n ≠ 0) with hneg | hpos
  · rw [Int.sign_eq_neg_one_of_neg hneg, Int.sign_eq_neg_one_of_neg (by omega)]
    omega
  · rw [Int.sign_eq_one_of_pos hpos, Int.sign_eq_one_of_pos (by omega)]
    omega

/-- A number that 16 bits can hold stays one. -/
theorem isSample_inward {n : Int} (h : IsSample n) : IsSample (inward n) := by
  obtain ⟨hlow, hhigh⟩ := h
  rcases le_or_gt n.natAbs 16384 with hquiet | hloud
  · rw [inward_eq_self_iff.mpr hquiet]
    exact ⟨hlow, hhigh⟩
  · obtain ⟨-, habs⟩ := inward_of_loud hloud
    constructor <;> omega

/-- After so many cycles a number of the louder half has moved as many steps towards zero, but not
beyond the end of the quieter half. -/
theorem iterate_inward (count : Nat) (n : Int) :
    inward^[count] n = n.sign * (max (min n.natAbs 16384) (n.natAbs - count) : Nat) := by
  induction count generalizing n with
  | zero =>
      have hmax : max (min n.natAbs 16384) (n.natAbs - 0) = n.natAbs := by omega
      rw [hmax, Function.iterate_zero_apply, Int.sign_mul_natAbs]
  | succ count ih =>
      rw [Function.iterate_succ_apply, ih]
      rcases le_or_gt n.natAbs 16384 with hquiet | hloud
      · have hmax : max (min n.natAbs 16384) (n.natAbs - count) =
            max (min n.natAbs 16384) (n.natAbs - (count + 1)) := by omega
        rw [inward_eq_self_iff.mpr hquiet, hmax]
      · obtain ⟨hsign, habs⟩ := inward_of_loud hloud
        have hmax : max (min (n.natAbs - 1) 16384) (n.natAbs - 1 - count) =
            max (min n.natAbs 16384) (n.natAbs - (count + 1)) := by omega
        rw [hsign, habs, hmax]

/-- The difference between the scales of reading and writing rounds to a step exactly in the louder
half. -/
theorem round_scaled_level {n : Int} (h : IsSample n) :
    Scalar.round ((n : ℝ) - n / 32768) = (inward n : ℝ) := by
  obtain ⟨hlow, hhigh⟩ := h
  have hlow' : (-32768 : ℝ) ≤ n := by exact_mod_cast hlow
  have hhigh' : (n : ℝ) ≤ 32767 := by exact_mod_cast (by omega : n ≤ 32767)
  rcases le_or_gt 0 n with hnonneg | hneg
  · have hnonneg' : (0 : ℝ) ≤ n := by exact_mod_cast hnonneg
    rw [Exact.round_of_nonneg (by linarith), Int.cast_inj, Int.floor_eq_iff, inward]
    split_ifs with hquiet
    · have hquiet' : (n : ℝ) ≤ 16384 := by exact_mod_cast (by omega : n ≤ 16384)
      constructor <;> linarith
    · have hloud : (16384 : ℝ) < n := by exact_mod_cast (by omega : 16384 < n)
      rw [Int.sign_eq_one_of_pos (by omega)]
      push_cast
      constructor <;> linarith
  · have hneg' : (n : ℝ) < 0 := by exact_mod_cast hneg
    rw [Exact.round_of_neg (by linarith), Int.cast_inj, Int.ceil_eq_iff, inward]
    split_ifs with hquiet
    · have hquiet' : (-16384 : ℝ) ≤ n := by exact_mod_cast (by omega : -16384 ≤ n)
      constructor <;> linarith
    · have hloud : (n : ℝ) < -16384 := by exact_mod_cast (by omega : n < -16384)
      rw [Int.sign_eq_neg_one_of_neg (by omega)]
      push_cast
      constructor <;> linarith

/-- In exact arithmetic the value of a 16-bit number is written as the number moved inward. -/
theorem quantize_level {n : Int} (h : IsSample n) : quantize (level n : ℝ) = inward n := by
  have hlow : (-32768 : ℝ) ≤ n := by exact_mod_cast h.1
  have hhigh : (n : ℝ) ≤ 32768 := by exact_mod_cast h.2.le
  have hlevel : (level n : ℝ) = n / 32768 := by
    show (n : ℝ) / ((32768 : ℕ) : ℝ) = n / 32768
    norm_num
  have hscaled : Scalar.clamp (-1.0) 1.0 (level n : ℝ) * 32767.0 = n - n / 32768 := by
    have hliterals : Scalar.clamp (-1.0) 1.0 (level n : ℝ) * 32767.0 =
        Scalar.clamp (-1) 1 (level n : ℝ) * 32767 := by norm_num
    rw [hliterals, Exact.clamp_eq (by norm_num), hlevel, min_eq_right (by linarith),
      max_eq_right (by linarith)]
    ring
  obtain ⟨hleast, hgreatest⟩ := isSample_inward h
  unfold quantize Scalar.toIntIn
  dsimp only
  rw [hscaled, round_scaled_level h, Exact.toInt_intCast, Word.count_eq]
  omega

/-- The bytes of more numbers are those of the first and of the others. -/
theorem written_cons (n : Int) (numbers : List Int) :
    written (n :: numbers) = Word.bytes 2 (Word.unsigned 2 n) ++ written numbers :=
  List.flatMap_cons

/-- A number that 16 bits can hold is determined by its bytes. -/
theorem number_of_bytes {n : Int} (h : IsSample n) :
    Word.signed 2 (Word.ofBytes (Word.bytes 2 (Word.unsigned 2 n))) = n := by
  obtain ⟨hlow, hhigh⟩ := h
  rw [Word.ofBytes_bytes_of_lt (Word.unsigned_lt 2 n)]
  exact Word.signed_unsigned (by rw [Word.count_eq]; omega) (by rw [Word.count_eq]; omega)

/-- Different numbers have different bytes. -/
theorem written_injective {first second : List Int} (hfirst : ∀ n ∈ first, IsSample n)
    (hsecond : ∀ n ∈ second, IsSample n) (h : written first = written second) :
    first = second := by
  induction first generalizing second with
  | nil =>
      cases second with
      | nil => rfl
      | cons n rest => cases h
  | cons n rest ih =>
      cases second with
      | nil => cases h
      | cons n' rest' =>
          rw [written_cons, written_cons] at h
          have hlength : (Word.bytes 2 (Word.unsigned 2 n)).length =
              (Word.bytes 2 (Word.unsigned 2 n')).length := by
            rw [Word.length_bytes, Word.length_bytes]
          obtain ⟨hhead, htail⟩ := List.append_inj h hlength
          have hn : n = n' := by
            rw [← number_of_bytes (hfirst n List.mem_cons_self), hhead,
              number_of_bytes (hsecond n' List.mem_cons_self)]
          have hrest : rest = rest' := ih (fun m hm => hfirst m (List.mem_cons_of_mem n hm))
            (fun m hm => hsecond m (List.mem_cons_of_mem n' hm)) htail
          rw [hn, hrest]

end Wave

namespace Segment

open Wave

variable {α : Type} [Scalar α]

/-- A wave file that is read and written again. -/
def reexport (bytes : List UInt8) : Except (SegmentError α) (List UInt8) := do
  let segment : Segment α ← ofWave bytes
  segment.writeWave

/-- A wave file that is read and written again so many times. -/
def reexports : Nat → List UInt8 → Except (SegmentError α) (List UInt8)
  | 0, bytes => .ok bytes
  | count + 1, bytes => reexport bytes >>= reexports count

/-- A cycle replaces each number by the one that its value is written as. -/
theorem reexport_waveOf {format : Format} {numbers : List Int} {frames : Nat}
    (hnumbers : ∀ n ∈ numbers, IsSample n) (hwhole : numbers.length = frames * format.frameSize)
    (hhead : HeadRead format numbers.length) :
    (reexport (waveOf format numbers) : Except (SegmentError α) (List UInt8)) =
      .ok (waveOf format (numbers.map fun n => quantize (level n : α))) := by
  have hsize : (numbers.map (level : Int → α)).toArray.size = frames * format.frameSize := by
    rw [List.size_toArray, List.length_map]
    exact hwhole
  have hframes : (⟨(numbers.map level).toArray, format⟩ : Segment α).WholeFrames :=
    whole_frames_of_size hsize
  rw [reexport, ofWave_waveOf hnumbers hwhole (hhead numbers rfl), Except.ok_bind,
    writeWave_of_whole hframes, toWave_eq, Segment.numbers, List.map_map]
  rfl

/-- In exact arithmetic a cycle moves each number inward. -/
theorem reexport_inward {format : Format} {numbers : List Int} {frames : Nat}
    (hnumbers : ∀ n ∈ numbers, IsSample n) (hwhole : numbers.length = frames * format.frameSize)
    (hhead : HeadRead format numbers.length) :
    (reexport (waveOf format numbers) : Except (SegmentError ℝ) (List UInt8)) =
      .ok (waveOf format (numbers.map inward)) := by
  rw [reexport_waveOf hnumbers hwhole hhead,
    List.map_congr_left fun n hn => quantize_level (hnumbers n hn)]

/-- In exact arithmetic so many cycles move each number inward as many times. -/
theorem reexports_inward {format : Format} {numbers : List Int} {frames : Nat}
    (hnumbers : ∀ n ∈ numbers, IsSample n) (hwhole : numbers.length = frames * format.frameSize)
    (hhead : HeadRead format numbers.length) (count : Nat) :
    (reexports count (waveOf format numbers) : Except (SegmentError ℝ) (List UInt8)) =
      .ok (waveOf format (numbers.map inward^[count])) := by
  induction count generalizing numbers with
  | zero =>
      rw [Function.iterate_zero, List.map_id]
      rfl
  | succ count ih =>
      have hmoved : ∀ n ∈ numbers.map inward, IsSample n := by
        intro n hn
        obtain ⟨before, hbefore, rfl⟩ := List.mem_map.mp hn
        exact isSample_inward (hnumbers before hbefore)
      have hlength : (numbers.map inward).length = numbers.length := List.length_map _
      rw [reexports, reexport_inward hnumbers hwhole hhead, Except.ok_bind,
        ih hmoved (hlength.trans hwhole) (hlength.symm ▸ hhead), List.map_map,
        Function.iterate_succ]

/-- In exact arithmetic a wave file stays as it is in a cycle exactly if its numbers are all in the
quieter half. -/
theorem reexport_eq_self_iff {format : Format} {numbers : List Int} {frames : Nat}
    (hnumbers : ∀ n ∈ numbers, IsSample n) (hwhole : numbers.length = frames * format.frameSize)
    (hhead : HeadRead format numbers.length) :
    (reexport (waveOf format numbers) : Except (SegmentError ℝ) (List UInt8)) =
      .ok (waveOf format numbers) ↔ ∀ n ∈ numbers, n.natAbs ≤ 16384 := by
  have hlength : (numbers.map inward).length = numbers.length := List.length_map _
  have hsame : numbers.map inward = numbers ↔ ∀ n ∈ numbers, n.natAbs ≤ 16384 := by
    conv_lhs => rw [← List.map_id numbers]
    rw [List.map_map, Function.comp_id, List.map_inj_left]
    exact forall₂_congr fun n _ => inward_eq_self_iff
  rw [reexport_inward hnumbers hwhole hhead, Except.ok.injEq, ← hsame]
  constructor
  · intro h
    unfold waveOf at h
    rw [hlength] at h
    refine written_injective ?_ hnumbers (List.append_cancel_left h)
    intro n hn
    obtain ⟨before, hbefore, rfl⟩ := List.mem_map.mp hn
    exact isSample_inward (hnumbers before hbefore)
  · intro h
    rw [h]

/-- In exact arithmetic no sample is written as the smallest number that 16 bits can hold. -/
theorem natAbs_quantize_le (x : ℝ) : (quantize x).natAbs ≤ 32767 := by
  obtain ⟨n, hn, hlow, hhigh, -⟩ := exists_scaled_eq x
  have hquantize : quantize x = n := by
    exact_mod_cast (cast_quantize x).trans hn
  omega

/-- From some cycle on the numbers of a segment do not change. -/
theorem iterate_inward_numbers (segment : Segment ℝ) {count : Nat} (hcount : 16383 ≤ count) :
    segment.numbers.map inward^[count] = segment.numbers.map inward^[16383] := by
  apply List.map_congr_left
  intro n hn
  obtain ⟨x, -, rfl⟩ := List.mem_map.mp hn
  have hsmall := natAbs_quantize_le x
  have hmax : max (min (quantize x).natAbs 16384) ((quantize x).natAbs - count) =
      max (min (quantize x).natAbs 16384) ((quantize x).natAbs - 16383) := by omega
  rw [iterate_inward, iterate_inward, hmax]

/-- In exact arithmetic a segment of whole frames is exported, and if the head of the file is read
as it was written, so many cycles of reading and writing leave the file of its numbers, each moved
inward as many times. So a number of the louder half loses a step in every cycle until it is at the
end of the quieter half, the first cycle gives the same file exactly if all numbers are in the
quieter half, and after 16383 cycles no more is lost. -/
theorem reexports_move_inward (segment : Segment ℝ) (hwhole : segment.WholeFrames)
    (hhead : HeadRead segment.format segment.samples.size) :
    (∃ bytes, segment.writeWave = .ok bytes ∧
      (∀ count, (reexports count bytes : Except (SegmentError ℝ) (List UInt8)) =
        .ok (waveOf segment.format (segment.numbers.map inward^[count]))) ∧
      ((reexport bytes : Except (SegmentError ℝ) (List UInt8)) = .ok bytes ↔
        ∀ n ∈ segment.numbers, n.natAbs ≤ 16384) ∧
      ∀ count, 16383 ≤ count →
        (reexports count bytes : Except (SegmentError ℝ) (List UInt8)) =
          reexports 16383 bytes) ∧
    ∀ (n : Int) (count : Nat),
      inward^[count] n = n.sign * (max (min n.natAbs 16384) (n.natAbs - count) : Nat) := by
  have hlength := segment.length_numbers
  have hnumbers := segment.isSample_numbers
  have hsize : segment.numbers.length = segment.frames * segment.format.frameSize :=
    hlength.trans hwhole
  rw [← hlength] at hhead
  have hcycles := reexports_inward hnumbers hsize hhead
  refine ⟨⟨waveOf segment.format segment.numbers, ?_, hcycles,
    reexport_eq_self_iff hnumbers hsize hhead, ?_⟩, fun n count => iterate_inward count n⟩
  · rw [writeWave_of_whole hwhole, toWave_eq]
  · intro count hcount
    rw [hcycles, hcycles, segment.iterate_inward_numbers hcount]

/-- A single frame at the top of the range. -/
noncomputable def fullScale : Segment ℝ :=
  ⟨#[(1 : ℕ)], .mono 1000⟩

/-- It is written as the greatest number. -/
theorem numbers_fullScale : fullScale.numbers = [32767] := by
  have hcut : Scalar.clamp (-1) 1 ((1 : ℕ) : ℝ) * 32767 = ((32767 : ℤ) : ℝ) := by
    rw [Exact.clamp_eq (by norm_num)]
    norm_num
  have hquantize : quantize ((1 : ℕ) : ℝ) = 32767 := by
    have hcast := cast_quantize ((1 : ℕ) : ℝ)
    rw [hcut, Exact.round_intCast] at hcast
    exact_mod_cast hcast
  show [quantize ((1 : ℕ) : ℝ)] = [32767]
  rw [hquantize]

/-- The head of its file is read as it was written. -/
theorem headRead_fullScale : HeadRead fullScale.format fullScale.samples.size :=
  headRead_of_fits rfl ⟨by decide, by decide⟩

/-- A frame at the top of the range comes down to the end of the quieter half and stays there. -/
theorem fullScale_comes_to_rest :
    fullScale.WholeFrames ∧ HeadRead fullScale.format fullScale.samples.size ∧
      ∃ bytes, fullScale.writeWave = .ok bytes ∧
        ∀ count, 16383 ≤ count →
          (reexports count bytes : Except (SegmentError ℝ) (List UInt8)) =
            .ok (waveOf (.mono 1000) [16384]) := by
  have hwhole : fullScale.WholeFrames := rfl
  obtain ⟨⟨bytes, hwrite, hcycles, -, hrest⟩, hiterate⟩ :=
    reexports_move_inward fullScale hwhole headRead_fullScale
  refine ⟨hwhole, headRead_fullScale, bytes, hwrite, ?_⟩
  intro count hcount
  rw [hrest count hcount, hcycles, numbers_fullScale, List.map_singleton, hiterate]
  rfl

/-- Exporting a frame at the top of the range, reading the file and exporting it again gives another
file: its number is one less. -/
theorem fullScale_written_differently :
    ∃ bytes again, fullScale.writeWave = .ok bytes ∧
      (reexport bytes : Except (SegmentError ℝ) (List UInt8)) = .ok again ∧
      bytes = waveOf (.mono 1000) [32767] ∧ again = waveOf (.mono 1000) [32766] ∧
      again ≠ bytes := by
  have hwhole : fullScale.WholeFrames := rfl
  have hnumbers : ∀ n ∈ [(32767 : Int)], IsSample n := by
    intro n hn
    obtain rfl := List.mem_singleton.mp hn
    exact ⟨by decide, by decide⟩
  have hsize : [(32767 : Int)].length = 1 * fullScale.format.frameSize := rfl
  have hcycle := reexport_inward hnumbers hsize headRead_fullScale
  refine ⟨_, _, ?_, hcycle, rfl, rfl, ?_⟩
  · rw [writeWave_of_whole hwhole, toWave_eq, numbers_fullScale]
  · intro hsame
    rw [hsame] at hcycle
    have hquiet := (reexport_eq_self_iff hnumbers hsize headRead_fullScale).mp hcycle
    exact absurd (hquiet 32767 List.mem_cons_self) (by decide)

end Segment

end SingingVoice
