import SingingVoice.Segment.Conform

/-!
# Formats after conversion

`Segment.conform` gives exactly the format that is asked for, and does nothing to a segment that
has it already. So a second conversion to the same format changes nothing.
-/

namespace SingingVoice

namespace Segment

variable {α : Type} [Scalar α]

/-- A change of the layout changes nothing else in the format. -/
theorem format_setChannels (segment : Segment α) (channels : Channels) :
    (segment.setChannels channels).format = segment.format.withChannels channels := by
  obtain ⟨samples, rate, layout⟩ := segment
  cases layout <;> cases channels <;> rfl

/-- Segments of one format have one format in another layout. -/
theorem format_setChannels_congr {first second : Segment α} (h : second.format = first.format)
    (channels : Channels) :
    (second.setChannels channels).format = (first.setChannels channels).format := by
  rw [format_setChannels, format_setChannels, h]

/-- A segment stays as it is in the layout it has. -/
theorem setChannels_self (segment : Segment α) :
    segment.setChannels segment.format.channels = segment := by
  obtain ⟨samples, rate, layout⟩ := segment
  cases layout <;> rfl

variable [Resampler α]

/-- A change of the rate keeps the layout. -/
theorem format_resample {segment result : Segment α} {rate : Nat}
    (h : segment.resample rate = .ok result) :
    result.format = { segment.format with sampleRate := rate } := by
  unfold resample at h
  split at h
  · rename_i hrate
    cases h
    rw [hrate]
  · cases hsamples : segment.convert
        (Scalar.ofNat rate / Scalar.ofNat segment.format.sampleRate) with
    | error error => simp [hsamples, bind, Except.bind] at h
    | ok samples =>
        simp only [hsamples, bind, Except.bind, pure, Except.pure, Except.ok.injEq] at h
        exact h ▸ rfl

/-- A converted segment has the format that was asked for. -/
theorem format_conform {segment result : Segment α} {format : Format}
    (h : segment.conform format = .ok result) : result.format = format := by
  rw [format_resample h, format_setChannels]
  rfl

/-- A segment is not changed by the conversion to the format it has. -/
theorem conform_self {segment : Segment α} {format : Format} (h : segment.format = format) :
    segment.conform format = .ok segment := by
  subst h
  unfold conform
  rw [setChannels_self]
  exact if_pos rfl

end Segment

end SingingVoice
