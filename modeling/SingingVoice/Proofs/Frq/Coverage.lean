import Mathlib
import SingingVoice.Frq.Basic
import SingingVoice.Proofs.Yin.Frames

/-!
# Samples and their frames

A frequency map covers the samples from the first one on, and each of its frames as many as the hop.
`Frq.perSample` lists the frame of every sample that is covered, and `Frq.frameAt?` looks a sample
up in this list (`frameAt?_eq`). The main theorem is `frames_cover_samples`. The map of an analysis
covers all samples that have been analysed (`Yin.frameAt?_analyze`).
-/

namespace SingingVoice

namespace Frq

variable {α : Type}

/-- The number of samples that a frame covers: the hop if it is positive, else none. -/
def width (frq : Frq α) : Nat :=
  frq.hop.toInt.toNat

/-- The frame of every sample, in order: each frame as often as it covers samples. -/
def perSample (frq : Frq α) : List (Frame α) :=
  frq.frames.flatMap (List.replicate frq.width)

variable (frq : Frq α)

/-- Frames cover samples if the hop is positive. -/
theorem width_pos_iff : 0 < frq.width ↔ 0 < frq.hop := by
  rw [width, Int32.lt_iff_toInt_lt, Int32.toInt_zero]
  omega

/-- Frames cover no sample if the hop is not positive. -/
theorem width_eq_zero_iff : frq.width = 0 ↔ frq.hop ≤ 0 := by
  rw [← Int32.not_lt, ← width_pos_iff, Nat.not_lt, Nat.le_zero]

/-- A positive hop is the number of samples that a frame covers. -/
theorem width_eq_hop (h : 0 < frq.hop) : (frq.width : Int) = frq.hop.toInt := by
  have hpos : 0 < frq.width := frq.width_pos_iff.mpr h
  rw [width] at hpos ⊢
  omega

/-- There is a frame for every sample that is covered. -/
theorem length_perSample : frq.perSample.length = frq.sampleCount := by
  simp [perSample, List.length_flatMap, sampleCount, width]

/-- A map whose hop is not positive covers no sample. -/
theorem sampleCount_of_nonpos (h : frq.hop ≤ 0) : frq.sampleCount = 0 := by
  rw [sampleCount, ← width, frq.width_eq_zero_iff.mpr h, Nat.mul_zero]

/-- Without a positive hop no sample has a frame. -/
theorem frameAt?_of_nonpos (h : frq.hop ≤ 0) (index : Nat) : frq.frameAt? index = none :=
  if_pos h

/-- With a positive hop a sample has the frame in whose hop it lies. -/
theorem frameAt?_of_pos (h : 0 < frq.hop) (index : Nat) :
    frq.frameAt? index = frq.frames[index / frq.width]? :=
  if_neg (Int32.not_le.mpr h)

/-- Where values are repeated equally often, the place tells the value by division. -/
theorem getElem?_flatMap_replicate {β : Type} {count : Nat} (hcount : 0 < count) (values : List β)
    (i : Nat) : (values.flatMap (List.replicate count))[i]? = values[i / count]? := by
  induction values generalizing i with
  | nil => rfl
  | cons value values ih =>
      rw [List.flatMap_cons, List.getElem?_append, List.length_replicate]
      by_cases hi : i < count
      · rw [if_pos hi, List.getElem?_replicate, if_pos hi, Nat.div_eq_of_lt hi,
          List.getElem?_cons_zero]
      · have hdiv : i / count = (i - count) / count + 1 :=
          Nat.div_eq_sub_div hcount (Nat.not_lt.mp hi)
        rw [if_neg hi, ih, hdiv, List.getElem?_cons_succ]

/-- The frame of a sample is found among those of all samples. -/
theorem frameAt?_eq (index : Nat) : frq.frameAt? index = frq.perSample[index]? := by
  by_cases hhop : 0 < frq.hop
  · rw [frq.frameAt?_of_pos hhop, perSample,
      getElem?_flatMap_replicate (frq.width_pos_iff.mpr hhop)]
  · have hnone := Int32.not_lt.mp hhop
    have hcount : frq.perSample.length = 0 :=
      frq.length_perSample.trans (frq.sampleCount_of_nonpos hnone)
    rw [frq.frameAt?_of_nonpos hnone, List.eq_nil_of_length_eq_zero hcount]
    rfl

/-- A sample has a frame exactly if it is counted among those that are covered. -/
theorem isSome_frameAt?_iff (index : Nat) :
    (frq.frameAt? index).isSome ↔ index < frq.sampleCount := by
  rw [frameAt?_eq, isSome_getElem?, length_perSample]

/-- Every sample that is covered has a frame. -/
theorem exists_frameAt? {index : Nat} (h : index < frq.sampleCount) :
    ∃ frame, frq.frameAt? index = some frame :=
  Option.isSome_iff_exists.mp ((frq.isSome_frameAt?_iff index).mpr h)

/-- The frames of the samples that are covered, looked up one after the other. -/
theorem map_frameAt?_range :
    (List.range frq.sampleCount).map frq.frameAt? = frq.perSample.map some := by
  refine List.ext_getElem (by simp [length_perSample]) fun index _ hindex => ?_
  have hcovered : index < frq.perSample.length := by simpa using hindex
  rw [List.getElem_map, List.getElem_map, List.getElem_range, frameAt?_eq,
    List.getElem?_eq_getElem hcovered]

/-- A sample has a frame exactly if it is counted among those that the map covers. With a positive
hop it is the frame in whose hop the sample lies, and each frame is that of as many samples in a row
as the hop, from the first sample on and in the order of the frames. With any other hop no sample is
covered. -/
theorem frames_cover_samples :
    (∀ index, (frq.frameAt? index).isSome ↔ index < frq.sampleCount) ∧
    (0 < frq.hop → (frq.width : Int) = frq.hop.toInt ∧
      (∀ index < frq.sampleCount, ∃ frame, frq.frames[index / frq.width]? = some frame ∧
        frq.frameAt? index = some frame) ∧
      ∀ i, ∀ offset < frq.width, frq.frameAt? (i * frq.width + offset) = frq.frames[i]?) ∧
    (List.range frq.sampleCount).map frq.frameAt? =
      (frq.frames.flatMap (List.replicate frq.width)).map some ∧
    (frq.hop ≤ 0 → frq.sampleCount = 0 ∧ ∀ index, frq.frameAt? index = none) := by
  refine ⟨frq.isSome_frameAt?_iff, fun hhop => ⟨frq.width_eq_hop hhop, ?_, ?_⟩,
    frq.map_frameAt?_range,
    fun hhop => ⟨frq.sampleCount_of_nonpos hhop, frq.frameAt?_of_nonpos hhop⟩⟩
  · intro index hindex
    obtain ⟨frame, hframe⟩ := frq.exists_frameAt? hindex
    exact ⟨frame, (frq.frameAt?_of_pos hhop index).symm.trans hframe, hframe⟩
  · intro i offset hoffset
    rw [frq.frameAt?_of_pos hhop, Nat.mul_comm,
      Nat.mul_add_div (Nat.zero_lt_of_lt hoffset), Nat.div_eq_of_lt hoffset, Nat.add_zero]

example :
    let frq : Frq Nat := ⟨2, 0, [⟨5, 1⟩, ⟨7, 1⟩]⟩
    (List.range 5).map frq.frameAt? =
      [some ⟨5, 1⟩, some ⟨5, 1⟩, some ⟨7, 1⟩, some ⟨7, 1⟩, none] := by
  decide

end Frq

/-- The map of an analysis with a positive hop covers all samples, each of them by the analysis of
the hop in which it lies. -/
theorem Yin.frameAt?_analyze {α : Type} [Scalar α] {yin : Yin α} {audio : Segment α}
    {frq : Frq α} (hhop : 0 < yin.hop) (h : yin.analyze audio = .ok frq) :
    let mono := audio.setChannels .mono
    ∀ index < mono.samples.size, frq.frameAt? index =
      some (yin.frameAt mono.samples mono.format.sampleRate (index / yin.step * yin.step)) := by
  intro mono index hindex
  unfold analyze at h
  split at h
  · cases h
  · cases h
    have hstep : yin.step = Frq.width
        (Frq.ofFrames yin.hop (yin.estimate mono.samples mono.format.sampleRate)) := by
      have hone : 0 < yin.hop.toInt := Int32.lt_iff_toInt_lt.mp hhop
      show (max yin.hop.toInt 1).toNat = yin.hop.toInt.toNat
      rw [max_eq_left hone]
    rw [Frq.frameAt?_of_pos _ hhop, ← hstep]
    show (yin.estimate mono.samples mono.format.sampleRate)[index / yin.step]? = _
    rw [getElem?_estimate, if_pos (Nat.lt_of_le_of_lt (Nat.div_mul_le_self _ _) hindex)]

end SingingVoice
