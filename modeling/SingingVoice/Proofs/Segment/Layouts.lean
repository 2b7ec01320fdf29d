import Mathlib
import SingingVoice.Proofs.Segment.Crossfading
import SingingVoice.Proofs.Segment.Overlays
import SingingVoice.Proofs.Segment.Sizes

/-!
# Layouts and editing

In exact arithmetic a change of the layout is a linear map of every frame for itself
(`Segment.sample_setChannels`, `Channels.remixed_add`, `Channels.remixed_mul`). So it does not
matter whether a segment is brought to another layout before it is edited or after it
(`Segment.setChannels_commutes`).
-/

namespace SingingVoice

/-! ## Frames -/

namespace Channels

variable {layout target : Channels} {channel : Nat}

/-- A channel of a frame in another layout: two channels become one, their average, and one channel
becomes both of two. -/
def remixed {α : Type} [Scalar α] (layout target : Channels) (frame : Nat → α) (channel : Nat) :
    α :=
  match layout, target with
  | stereo, mono => (frame 0 + frame 1) / 2.0
  | mono, stereo => frame 0
  | _, _ => frame channel

/-- Nothing is read from a frame but its channels. -/
theorem remixed_congr {α : Type} [Scalar α] {frame frame' : Nat → α}
    (h : ∀ channel < layout.count, frame channel = frame' channel)
    (hchannel : channel < target.count) :
    layout.remixed target frame channel = layout.remixed target frame' channel := by
  cases layout with
  | mono =>
      cases target with
      | mono => exact h channel hchannel
      | stereo => exact h 0 Nat.one_pos
  | stereo =>
      cases target with
      | mono =>
          show (frame 0 + frame 1) / 2.0 = (frame' 0 + frame' 1) / 2.0
          rw [h 0 (by decide), h 1 (by decide)]
      | stereo => exact h channel hchannel

/-- The sum of two frames is the sum of both in another layout. -/
theorem remixed_add (frame frame' : Nat → ℝ) :
    layout.remixed target (fun channel => frame channel + frame' channel) channel =
      layout.remixed target frame channel + layout.remixed target frame' channel := by
  cases layout <;> cases target <;> simp only [remixed]
  rw [add_add_add_comm, add_div]

/-- Frames that are added one after another are added so in another layout. -/
theorem remixed_foldl {β : Type} (part : β → Nat → ℝ) (frame : Nat → ℝ) (xs : List β) :
    layout.remixed target
        (fun channel => xs.foldl (fun total x => total + part x channel) (frame channel)) channel =
      xs.foldl (fun total x => total + layout.remixed target (part x) channel)
        (layout.remixed target frame channel) := by
  induction xs generalizing frame with
  | nil => rfl
  | cons x xs ih =>
      simp only [List.foldl_cons]
      rw [ih fun channel => frame channel + part x channel, remixed_add]

/-- A frame that is multiplied by a factor is multiplied by it in another layout. -/
theorem remixed_mul (frame : Nat → ℝ) (factor : ℝ) :
    layout.remixed target (fun channel => frame channel * factor) channel =
      layout.remixed target frame channel * factor := by
  cases layout <;> cases target <;> simp only [remixed]
  rw [← add_mul, mul_div_right_comm]

/-- The average of a channel with itself is the channel. -/
theorem remixed_remixed (frame : Nat → ℝ) (hchannel : channel < 1) :
    stereo.remixed mono (mono.remixed stereo frame) channel = frame channel := by
  obtain rfl := Nat.lt_one_iff.mp hchannel
  show (frame 0 + frame 0) / 2.0 = frame 0
  norm_num

end Channels

namespace Segment

/-! ## Samples -/

/-- Every element is found twice, at two places in a row. -/
theorem getElem?_flatMap_pair {α : Type} (samples : Array α) (frame : Nat) {channel : Nat}
    (hchannel : channel < 2) :
    (samples.flatMap fun x => #[x, x])[frame * 2 + channel]? = samples[frame]? := by
  obtain ⟨samples⟩ := samples
  simp only [List.flatMap_toArray, List.getElem?_toArray]
  induction samples generalizing frame with
  | nil => rfl
  | cons x samples ih =>
      rw [List.flatMap_cons]
      cases frame with
      | zero =>
          interval_cases channel <;> rfl
      | succ frame =>
          have hplace : (frame + 1) * 2 + channel = frame * 2 + channel + 2 := by omega
          rw [hplace]
          exact ih frame

variable {segment first second base other : Segment ℝ} {target : Channels} {frame channel : Nat}

/-- The averages of stereo frames, one after another. After the last one there is silence. -/
theorem sample_averages {samples : Array ℝ} (rate frame : Nat)
    (hwhole : samples.size = samples.size / 2 * 2) :
    (setChannels ⟨samples, rate, .stereo⟩ .mono).sample frame 0 =
      (samples.getD (2 * frame) 0.0 + samples.getD (2 * frame + 1) 0.0) / 2.0 := by
  show (Array.ofFn fun i : Fin (samples.size / 2) => _).getD (frame * 1 + 0) 0.0 = _
  rw [Array.getD_eq_getD_getElem?, Array.getElem?_ofFn, Nat.mul_one, Nat.add_zero]
  split
  · have hfirst : 2 * frame < samples.size := by omega
    have hsecond : 2 * frame + 1 < samples.size := by omega
    simp only [Option.getD_some, Array.getD, hfirst, hsecond, ↓reduceDIte]
    rfl
  · have hfirst : ¬ 2 * frame < samples.size := by omega
    have hsecond : ¬ 2 * frame + 1 < samples.size := by omega
    simp only [Option.getD_none, Array.getD, hfirst, hsecond, ↓reduceDIte]
    norm_num

/-- The frames of a segment in another layout are its frames in that layout. -/
theorem sample_setChannels (hwhole : segment.WholeFrames) (hchannel : channel < target.count) :
    (segment.setChannels target).sample frame channel =
      segment.format.channels.remixed target (segment.sample frame) channel := by
  obtain ⟨samples, rate, layout⟩ := segment
  cases layout with
  | mono =>
      cases target with
      | mono => rfl
      | stereo =>
          show (samples.flatMap fun x => #[x, x]).getD (frame * 2 + channel) 0.0 =
            samples.getD (frame * 1 + 0) 0.0
          rw [Array.getD_eq_getD_getElem?, Array.getD_eq_getD_getElem?,
            getElem?_flatMap_pair samples frame hchannel, Nat.mul_one, Nat.add_zero]
  | stereo =>
      cases target with
      | mono =>
          obtain rfl := Nat.lt_one_iff.mp hchannel
          rw [sample_averages rate frame hwhole, Nat.mul_comm 2]
          rfl
      | stereo => rfl

/-- What has the frames of a segment in another layout is the segment in that layout. -/
theorem setChannels_eq {result : Segment ℝ} (hwhole : segment.WholeFrames)
    (hresult : result.WholeFrames) (hformat : result.format = segment.format.withChannels target)
    (hframes : result.frames = segment.frames)
    (hsamples : ∀ frame < segment.frames, ∀ channel < target.count, result.sample frame channel =
      segment.format.channels.remixed target (segment.sample frame) channel) :
    segment.setChannels target = result := by
  have hformat' := format_setChannels segment target
  refine ext_sample (whole_frames_setChannels hwhole target) hresult (hformat'.trans hformat.symm)
    ((frames_setChannels hwhole target).trans hframes.symm) fun frame hframe channel hchannel => ?_
  have hchannel' : channel < target.count := by rwa [hformat] at hchannel
  rw [sample_setChannels hwhole hchannel', hsamples frame (hframes ▸ hframe) channel hchannel']

/-! ## There and back -/

/-- Mono stays as it is if it is made stereo and mono again. -/
theorem setChannels_stereo_mono (hwhole : segment.WholeFrames)
    (hmono : segment.format.channels = .mono) :
    (segment.setChannels .stereo).setChannels .mono = segment := by
  have hstereo : (segment.setChannels .stereo).format.channels = .stereo := by
    rw [format_setChannels]
    rfl
  have hformat : segment.format = (segment.setChannels .stereo).format.withChannels .mono := by
    rw [format_setChannels, ← hmono]
    rfl
  refine setChannels_eq (whole_frames_setChannels hwhole _) hwhole hformat
    (frames_setChannels hwhole _).symm fun frame _ channel hchannel => ?_
  rw [hstereo, ← Channels.remixed_remixed (segment.sample frame) hchannel]
  refine Channels.remixed_congr (fun channel hchannel => ?_) hchannel
  rw [sample_setChannels hwhole hchannel, hmono]

/-- Stereo that is made mono and stereo again stays as it is if this is done once more. -/
theorem setChannels_mono_stereo_idem (hwhole : segment.WholeFrames) :
    (((segment.setChannels .mono).setChannels .stereo).setChannels .mono).setChannels .stereo =
      (segment.setChannels .mono).setChannels .stereo := by
  have hmono : (segment.setChannels .mono).format.channels = .mono := by
    rw [format_setChannels]
    rfl
  rw [setChannels_stereo_mono (whole_frames_setChannels hwhole .mono) hmono]

/-! ## Editing -/

/-- A segment is cut in another layout as it is cut before. -/
theorem setChannels_sliceFrames (hwhole : segment.WholeFrames) (target : Channels)
    (start stop : Nat) :
    (segment.sliceFrames start stop).setChannels target =
      (segment.setChannels target).sliceFrames start stop := by
  have hframes : ((segment.setChannels target).sliceFrames start stop).frames =
      (segment.sliceFrames start stop).frames := by
    rw [frames_sliceFrames, frames_sliceFrames, frames_setChannels hwhole]
  refine setChannels_eq (whole_frames_sliceFrames _ _ _) (whole_frames_sliceFrames _ _ _)
    (format_setChannels segment target) hframes fun frame hframe channel hchannel => ?_
  have hchannel' : channel < (segment.setChannels target).format.frameSize := by
    rwa [format_setChannels]
  rw [sample_sliceFrames (hframes ▸ hframe) hchannel', frames_setChannels hwhole,
    sample_setChannels hwhole hchannel]
  refine Channels.remixed_congr (fun channel hchannel => ?_) hchannel
  exact (sample_sliceFrames hframe hchannel).symm

/-- Every sample is multiplied by the amplitude of a gain. -/
theorem sample_gain (segment : Segment ℝ) (gain : ℝ) (frame channel : Nat) :
    (segment.gain gain).sample frame channel = segment.sample frame channel * amplitude gain := by
  simp only [sample, Segment.gain, map, Array.getD_eq_getD_getElem?, Array.getElem?_map]
  cases segment.samples[frame * segment.format.frameSize + channel]? with
  | none =>
      show (0.0 : ℝ) = 0.0 * _
      rw [Exact.zero_eq, zero_mul]
  | some x => rfl

/-- A gain is applied in another layout as it is before. -/
theorem setChannels_gain (hwhole : segment.WholeFrames) (target : Channels) (gain : ℝ) :
    (segment.gain gain).setChannels target = (segment.setChannels target).gain gain := by
  have hwhole' := whole_frames_setChannels hwhole target
  refine setChannels_eq (whole_frames_gain hwhole gain) (whole_frames_gain hwhole' gain)
    (format_setChannels segment target) ?_ fun frame _ channel hchannel => ?_
  · rw [frames_gain, frames_gain, frames_setChannels hwhole]
  · rw [sample_gain, sample_setChannels hwhole hchannel, ← Channels.remixed_mul]
    congr 1
    funext channel
    exact (sample_gain segment gain frame channel).symm

/-- Segments of one format are joined in another layout as they are joined before. -/
theorem setChannels_concat (hfirst : first.WholeFrames) (hsecond : second.WholeFrames)
    (hformat : second.format = first.format) (target : Channels) :
    (first.concat second).setChannels target =
      (first.setChannels target).concat (second.setChannels target) := by
  have hfirst' := whole_frames_setChannels hfirst target
  have hsecond' := whole_frames_setChannels hsecond target
  have hformat' := format_setChannels_congr hformat target
  refine setChannels_eq (whole_frames_ofSamples _ _) (whole_frames_ofSamples _ _)
    (format_setChannels first target) ?_ fun frame hframe channel hchannel => ?_
  · rw [frames_concat hfirst' hformat', frames_concat hfirst hformat, frames_setChannels hfirst,
      frames_setChannels hsecond]
  · have hchannel' : channel < (first.setChannels target).format.frameSize := by
      rwa [format_setChannels]
    show _ = first.format.channels.remixed target ((first.concat second).sample frame) channel
    rcases Nat.lt_or_ge frame first.frames with hlt | hge
    · have hlt' : frame < (first.setChannels target).frames := by rwa [frames_setChannels hfirst]
      rw [sample_concat_of_lt hfirst' hsecond' hformat' hlt' hchannel',
        sample_setChannels hfirst hchannel]
      exact Channels.remixed_congr (fun channel hchannel =>
        (sample_concat_of_lt hfirst hsecond hformat hlt hchannel).symm) hchannel
    · obtain ⟨rest, rfl⟩ := Nat.exists_eq_add_of_le hge
      have hplace := sample_concat_add hfirst' hsecond' hformat' rest channel
      rw [frames_setChannels hfirst] at hplace
      rw [hplace, sample_setChannels hsecond hchannel, hformat]
      exact Channels.remixed_congr (fun channel _ =>
        (sample_concat_add hfirst hsecond hformat rest channel).symm) hchannel

/-- What is added to a segment is added to it in another layout. -/
theorem setChannels_mixedIn (hbase : base.WholeFrames) (hother : other.WholeFrames)
    (hformat : other.format = base.format) (target : Channels) (positions : List Nat) :
    (base.mixedIn other positions).setChannels target =
      (base.setChannels target).mixedIn (other.setChannels target) positions := by
  have hbase' := whole_frames_setChannels hbase target
  have hother' := whole_frames_setChannels hother target
  have hformat' := format_setChannels_congr hformat target
  refine setChannels_eq (whole_frames_mixedIn hbase positions)
    (whole_frames_mixedIn hbase' positions) (format_setChannels base target) ?_
    fun frame hframe channel hchannel => ?_
  · rw [frames_mixedIn, frames_mixedIn, frames_setChannels hbase]
  · rw [frames_mixedIn] at hframe
    have hframe' : frame < (base.setChannels target).frames := by rwa [frames_setChannels hbase]
    have hchannel' : channel < (base.setChannels target).format.frameSize := by
      rwa [format_setChannels]
    rw [sample_mixedIn hbase' hother' hformat' positions hframe' hchannel',
      frames_setChannels hother, sample_setChannels hbase hchannel]
    simp only [sample_setChannels hother hchannel, hformat]
    rw [← Channels.remixed_foldl]
    refine Channels.remixed_congr (fun channel hchannel => ?_) hchannel
    exact (sample_mixedIn hbase hother hformat positions hframe hchannel).symm

/-- In exact arithmetic a change of the layout keeps the rate and the number of frames, and remixes
every frame for itself. Mono that is made stereo is the same when it is made mono again, and what is
mixed down to mono and made stereo again changes only once. It does not matter whether segments of
one format are brought to another layout before they are cut, amplified, joined without a crossfade
or overlaid at any position and with any repetitions, or after it. -/
theorem setChannels_commutes [Resampler ℝ] (hbase : base.WholeFrames)
    (hother : other.WholeFrames) (hformat : other.format = base.format) (target : Channels) :
    (base.setChannels target).format = ⟨base.format.sampleRate, target⟩ ∧
    (base.setChannels target).WholeFrames ∧
    (base.setChannels target).frames = base.frames ∧
    (∀ frame, ∀ channel < target.count, (base.setChannels target).sample frame channel =
      base.format.channels.remixed target (base.sample frame) channel) ∧
    (base.format.channels = .mono → (base.setChannels .stereo).setChannels .mono = base) ∧
    (((base.setChannels .mono).setChannels .stereo).setChannels .mono).setChannels .stereo =
      (base.setChannels .mono).setChannels .stereo ∧
    (∀ start stop, (base.sliceFrames start stop).setChannels target =
      (base.setChannels target).sliceFrames start stop) ∧
    (∀ gain, (base.gain gain).setChannels target = (base.setChannels target).gain gain) ∧
    (∀ ms ≤ 0, ∃ joined, base.append other ms = .ok joined ∧
      (base.setChannels target).append (other.setChannels target) ms =
        .ok (joined.setChannels target)) ∧
    (∀ position, ∃ mixed, base.overlay other position = .ok mixed ∧
      (base.setChannels target).overlay (other.setChannels target) position =
        .ok (mixed.setChannels target)) ∧
    (∀ position repetition, ∃ mixed, base.overlayRepeat other position repetition = .ok mixed ∧
      (base.setChannels target).overlayRepeat (other.setChannels target) position repetition =
        .ok (mixed.setChannels target)) := by
  have hkept := format_setChannels base target
  have hformat' := format_setChannels_congr hformat target
  have hoverlay : ∀ position repetition, ∃ mixed,
      base.overlayRepeat other position repetition = .ok mixed ∧
        (base.setChannels target).overlayRepeat (other.setChannels target) position repetition =
          .ok (mixed.setChannels target) := by
    intro position repetition
    refine ⟨_, overlayRepeat_eq hbase hformat position repetition, ?_⟩
    -- the repetitions start at the same frames, since neither the rate nor a length is changed
    rw [overlayRepeat_eq (whole_frames_setChannels hbase target) hformat',
      setChannels_mixedIn hbase hother hformat, frames_setChannels hbase, frames_setChannels hother,
      hkept]
    rfl
  refine ⟨hkept, whole_frames_setChannels hbase target, frames_setChannels hbase target,
    fun _ _ => sample_setChannels hbase, setChannels_stereo_mono hbase,
    setChannels_mono_stereo_idem hbase, setChannels_sliceFrames hbase target,
    setChannels_gain hbase target, ?_,
    fun position => hoverlay position .once, hoverlay⟩
  intro ms hms
  have hnone : ms ≤ 0.0 := Exact.zero_eq.symm ▸ hms
  refine ⟨_, append_of_format hformat hnone, ?_⟩
  rw [append_of_format hformat' hnone, setChannels_concat hbase hother hformat]

/-- A stereo frame is added to the second of two, in stereo and in mono. -/
theorem frame_added_in_mono :
    let base : Segment ℝ := ⟨#[1, 3, 5, 7], ⟨1000, .stereo⟩⟩
    let other : Segment ℝ := ⟨#[2, 4], ⟨1000, .stereo⟩⟩
    base.WholeFrames ∧ other.WholeFrames ∧ other.format = base.format ∧
      ∃ mixed, base.overlay other 1 = .ok mixed ∧
        (base.setChannels .mono).overlay (other.setChannels .mono) 1 =
          .ok (mixed.setChannels .mono) ∧
        (mixed.setChannels .mono).sample 0 0 = 2 ∧ (mixed.setChannels .mono).sample 1 0 = 9 := by
  intro base other
  have hbase : base.WholeFrames := whole_frames_of_size (rfl : _ = 2 * 2)
  have hother : other.WholeFrames := whole_frames_of_size (rfl : _ = 1 * 2)
  have hframes : base.frames = 2 := frames_of_size rfl
  have hframes' : other.frames = 1 := frames_of_size rfl
  have hstart : base.format.framesIn (1 : ℝ) = 1 := by
    exact_mod_cast Format.framesIn_of_thousand 1
  obtain ⟨-, -, -, -, -, -, -, -, -, hoverlay, -⟩ := setChannels_commutes hbase hother rfl .mono
  obtain ⟨mixed, hmixed, hmono⟩ := hoverlay 1
  have hsum : mixed = base.mixedIn other [1] := by
    have heq := overlayRepeat_eq hbase (rfl : other.format = base.format) 1 .once
    rw [hstart] at heq
    exact Except.ok.inj (hmixed.symm.trans heq)
  subst hsum
  have hsample : ∀ frame < 2, ∀ channel < 2, _ = _ := fun frame hframe channel hchannel =>
    sample_mixedIn hbase hother rfl [1] (hframe.trans_eq hframes.symm) hchannel
  refine ⟨hbase, hother, rfl, _, hmixed, hmono, ?_, ?_⟩
  · rw [sample_setChannels (whole_frames_mixedIn hbase _) Nat.one_pos]
    show ((base.mixedIn other [1]).sample 0 0 + (base.mixedIn other [1]).sample 0 1) / 2.0 = 2
    rw [hsample 0 (by decide) 0 (by decide), hsample 0 (by decide) 1 (by decide)]
    norm_num [base, other, sample, Format.frameSize, Channels.count]
  · rw [sample_setChannels (whole_frames_mixedIn hbase _) Nat.one_pos]
    show ((base.mixedIn other [1]).sample 1 0 + (base.mixedIn other [1]).sample 1 1) / 2.0 = 9
    rw [hsample 1 (by decide) 0 (by decide), hsample 1 (by decide) 1 (by decide), hframes']
    norm_num [base, other, sample, Format.frameSize, Channels.count]

end Segment

end SingingVoice
