/-!
# Interleaving

Samples of several channels are kept frame after frame. `Interleave.split` separates the channels
and `Interleave.join` puts them back together.
-/

namespace SingingVoice.Interleave

variable {α : Type}

/-- The channels of interleaved samples, without a partial frame at the end. -/
def split (samples : Array α) (count : Nat) : Array (Array α) :=
  Array.ofFn fun channel : Fin count =>
    Array.ofFn fun frame : Fin (samples.size / count) =>
      have : frame.val * count + channel.val < samples.size := by
        have h := Nat.mul_le_mul_right count (Nat.succ_le_of_lt frame.isLt)
        have := Nat.div_mul_le_self samples.size count
        have := channel.isLt
        rw [Nat.succ_mul] at h
        omega
      samples[frame.val * count + channel.val]

/-- The frames of a list of channels, one after the other, as many as the first channel has. A
channel that is too short leaves out its samples. -/
def join (channels : Array (Array α)) : Array α :=
  let frames := (channels[0]?.map Array.size).getD 0
  (Array.range frames).flatMap fun frame => channels.filterMap (·[frame]?)

end SingingVoice.Interleave
