import Mathlib
import SingingVoice.Proofs.Result
import SingingVoice.Resampling.Basic
import SingingVoice.Resampling.Interleave

/-!
# Channels in step

Separate channels stay equally long. `Interleave.split` gives every channel the same number of
samples, `Interleave.join` makes whole frames of channels that are equally long, and
`Resampler.resampleChannels` returns as many channels as it is given, all of one length, whatever
the resampler answers (`size_resampleChannels`).
-/

namespace SingingVoice

variable {α : Type}

namespace Interleave

/-- There are as many channels as asked for. -/
@[simp] theorem size_split (samples : Array α) (count : Nat) : (split samples count).size = count :=
  Array.size_ofFn

/-- If all channels are equally long, every frame has a sample of each of them. -/
theorem size_frame {channels : Array (Array α)} {count : Nat}
    (h : ∀ channel ∈ channels, channel.size = count) {frame : Nat} (hframe : frame < count) :
    (channels.filterMap (·[frame]?)).size = channels.size := by
  refine Array.filterMap_size_eq_size.mpr fun channel hchannel => ?_
  have hlt : frame < channel.size := h channel hchannel ▸ hframe
  rw [Array.getElem?_eq_getElem hlt]
  rfl

/-- Channels that are equally long are joined without losing a sample. -/
theorem size_join {channels : Array (Array α)} {count : Nat}
    (h : ∀ channel ∈ channels, channel.size = count) :
    (join channels).size = count * channels.size := by
  cases hfirst : channels[0]? with
  | none =>
      obtain rfl : channels = #[] :=
        Array.eq_empty_of_size_eq_zero (Nat.le_zero.mp (Array.getElem?_eq_none_iff.mp hfirst))
      simp [join, Array.map_const']
  | some first =>
      have hcount : first.size = count := h first (Array.mem_of_getElem? hfirst)
      have hframes :
          (Array.range count).map (fun frame => (channels.filterMap (·[frame]?)).size) =
            (Array.range count).map fun _ => channels.size :=
        Array.map_congr_left fun frame hframe => size_frame h (Array.mem_range.mp hframe)
      rw [join, hfirst, Array.size_flatMap, Option.map_some, Option.getD_some, hcount, hframes,
        Array.map_const', Array.size_range]
      exact Array.sum_replicate_nat

end Interleave

namespace Resampler

/-- The output of a block changes no number of channels. -/
@[simp] theorem size_appendBlock (output block : Array (Array α)) :
    (appendBlock output block).size = output.size := by
  simp [appendBlock]

/-- Separated channels have as many frames as the samples have whole ones. -/
theorem frameCount_split {count : Nat} (h : 0 < count) (samples : Array α) :
    frameCount (Interleave.split samples count) = samples.size / count := by
  simp [frameCount, Interleave.split, h]

/-- Trimming brings a channel to the length that is expected. -/
@[simp] theorem size_trim [Scalar α] (delay expected : Nat) (samples : Array α) :
    (trim delay expected samples).size = expected := by
  simp only [trim, Array.size_append, Array.size_replicate, Array.size_extract]
  omega

/-- The number of frames that so many frames are converted to. -/
def outputFrames [Scalar α] (frames : Nat) (ratio : α) : Nat :=
  if frames = 0 then 0 else Scalar.toNat (Scalar.round (Scalar.ofNat frames * ratio))

variable [Resampler α]

/-- Feeding keeps the number of channels. -/
theorem size_feed {channels output output' : Array (Array α)} {position : Nat}
    {state state' : State α} (h : feed channels position output state = .ok (output', state')) :
    output'.size = output.size := by
  fun_induction feed channels position output state with
  | case1 position output state hfull ih =>
      obtain ⟨⟨out, next⟩, -, hrest⟩ := Except.bind_eq_ok.mp h
      rw [ih _ _ hrest, size_appendBlock]
  | case2 position output state _ hpartial =>
      obtain ⟨⟨out, next⟩, -, hrest⟩ := Except.bind_eq_ok.mp h
      cases hrest
      exact size_appendBlock _ _
  | case3 position output state =>
      cases h
      rfl

/-- Flushing keeps the number of channels. -/
theorem size_flush {target : Nat} {output output' : Array (Array α)} {state : State α}
    (h : flush target output state = .ok output') : output'.size = output.size := by
  fun_induction flush target output state with
  | case1 => cases h
  | case2 | case4 =>
      cases h
      rfl
  | case3 output state _ out next _ _ _ _ ih => rw [ih h, size_appendBlock]

/-- As many channels come out of the conversion as go in, all of them equally long. -/
theorem size_resampleChannels [Scalar α] {channels output : Array (Array α)} {ratio : α}
    (h : resampleChannels channels ratio = .ok output) :
    output.size = channels.size ∧
      ∀ channel ∈ output, channel.size = outputFrames (frameCount channels) ratio := by
  unfold resampleChannels at h
  dsimp only at h
  generalize hexpected :
    Scalar.toNat (Scalar.round (Scalar.ofNat (frameCount channels) * ratio)) = expected at h
  split at h
  · -- nothing is converted, and every channel is empty
    rename_i hempty
    cases h
    refine ⟨Array.size_map, fun channel hchannel => ?_⟩
    obtain ⟨input, hinput, rfl⟩ := Array.mem_map.mp hchannel
    have hpos : channels.size ≠ 0 := Nat.ne_zero_of_lt (Array.size_pos_of_mem hinput)
    rcases hempty with hnone | hframes | hzero
    · exact absurd hnone hpos
    · rw [outputFrames, if_pos hframes]
      rfl
    · unfold outputFrames
      split
      · rfl
      · rw [hexpected, hzero]
        rfl
  · -- only trimming decides how long the channels are, whatever has been fed and flushed
    rename_i hsome
    obtain ⟨state, -, h⟩ := Except.bind_eq_ok.mp h
    obtain ⟨⟨fed, after⟩, hfeed, h⟩ := Except.bind_eq_ok.mp h
    obtain ⟨flushed, hflush, h⟩ := Except.bind_eq_ok.mp h
    cases h
    refine ⟨?_, fun channel hchannel => ?_⟩
    · rw [Array.size_map, size_flush hflush, size_feed hfeed, Array.size_map]
    · obtain ⟨input, _, rfl⟩ := Array.mem_map.mp hchannel
      rw [size_trim, outputFrames, if_neg fun hzero => hsome (.inr (.inl hzero)), hexpected]

end Resampler

end SingingVoice
