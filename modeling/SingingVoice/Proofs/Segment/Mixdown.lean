import Mathlib
import SingingVoice.Proofs.Exact.Scalar
import SingingVoice.Proofs.Result
import SingingVoice.Proofs.Segment.Parts
import SingingVoice.Resampling.Sinc
import SingingVoice.Segment.Overlay

/-!
# Mixes as sums

A mix is as long as the longest of its tracks, and each of its samples is the sum over the tracks
that reach it (`Segment.exists_mixed`). Where addition is exact, a track that has ended adds as much
as silence does (`Segment.mixture_singleton`), so the tracks may be mixed in any order and in any
groups (`Segment.mix_regroupable_sum`).
-/

namespace SingingVoice

/-- Addition is exact: a sum does not depend on the order and the grouping of what is added, and
zero adds nothing. -/
class Scalar.ExactAddition (α : Type) [Scalar α] : Prop extends
  Std.Associative (· + · : α → α → α), Std.Commutative (· + · : α → α → α),
  Std.LawfulIdentity (· + · : α → α → α) 0.0

/-- Real numbers are added exactly. -/
instance : Scalar.ExactAddition ℝ where
  assoc := add_assoc
  comm := add_comm
  left_id x := by rw [Exact.zero_eq]; exact zero_add x
  right_id x := by rw [Exact.zero_eq]; exact add_zero x

namespace Scalar

variable {α : Type} [Scalar α] [ExactAddition α]

/-- Nothing is added by zero. -/
theorem exact_add_zero (x : α) : x + 0.0 = x :=
  ExactAddition.toLawfulIdentity.right_id x

/-- Nothing is added to zero. -/
theorem exact_zero_add (x : α) : 0.0 + x = x :=
  ExactAddition.toLawfulIdentity.left_id x

/-- The sum of one list after another is that of their sums. -/
theorem sum_append (xs ys : List α) : sum (xs ++ ys) = sum xs + sum ys := by
  calc sum (xs ++ ys) = ys.foldl (· + ·) (sum xs) := List.foldl_append
    _ = ys.foldl (· + ·) (sum xs + 0.0) := by rw [exact_add_zero]
    _ = sum xs + sum ys := List.foldl_assoc

end Scalar

namespace Segment

variable {α : Type} {target : Format} {tracks tracks' : List (Segment α)}
  {track result result' : Segment α} {frame channel count : Nat}

/-! ## The longest track -/

/-- The number of frames of the longest track. No tracks have none. -/
def longest (tracks : List (Segment α)) : Nat :=
  (tracks.map frames).max?.getD 0

/-- The longest track bounds all of them, and nothing less does. -/
theorem longest_le_iff : longest tracks ≤ count ↔ ∀ track ∈ tracks, track.frames ≤ count := by
  rw [longest]
  cases hmax : (tracks.map frames).max? with
  | none =>
      rw [List.max?_eq_none_iff, List.map_eq_nil_iff] at hmax
      simp [hmax]
  | some most => rw [Option.getD_some, List.max?_le_iff hmax, List.forall_mem_map]

/-- A track alone is the longest. -/
theorem longest_singleton (track : Segment α) : longest [track] = track.frames := rfl

/-- The longest of more tracks is that of the longest of some and the longest of the others. -/
theorem longest_append (tracks tracks' : List (Segment α)) :
    longest (tracks ++ tracks') = max (longest tracks) (longest tracks') := by
  refine eq_of_forall_ge_iff fun count => ?_
  rw [max_le_iff, longest_le_iff, longest_le_iff, longest_le_iff, List.forall_mem_append]

/-- The longest track does not depend on the order of the tracks. -/
theorem longest_perm (hperm : tracks.Perm tracks') : longest tracks = longest tracks' := by
  refine eq_of_forall_ge_iff fun count => ?_
  simp only [longest_le_iff, hperm.mem_iff]

/-- No track is longer than the longest. -/
theorem frames_le_longest (h : track ∈ tracks) : track.frames ≤ longest tracks :=
  longest_le_iff.mp (Nat.le_refl _) track h

/-- Tracks without samples are whole frames, of which there are none. -/
theorem frames_of_isEmpty (h : track.isEmpty = true) : track.WholeFrames ∧ track.frames = 0 := by
  have hsize : track.samples.size = 0 * track.format.frameSize := by
    rw [Nat.zero_mul]
    exact Array.isEmpty_iff_size_eq_zero.mp h
  exact ⟨whole_frames_of_size hsize, frames_of_size hsize⟩

/-! ## Sums of tracks -/

variable [Scalar α]

/-- The tracks are whole frames of the format that they are mixed in. -/
def InFormat (target : Format) (tracks : List (Segment α)) : Prop :=
  ∀ track ∈ tracks, track.format = target ∧ track.WholeFrames

/-- The sum of a sample over the tracks that reach it, in their order. -/
def mixture (tracks : List (Segment α)) (frame channel : Nat) : α :=
  Scalar.sum ((tracks.filter (frame < ·.frames)).map (·.sample frame channel))

/-- What the mix of tracks is: as long as the longest of them, and in each sample their sum. -/
structure Mixed (target : Format) (tracks : List (Segment α)) (result : Segment α) : Prop where
  format : result.format = target
  whole : result.WholeFrames
  frames : result.frames = longest tracks
  samples : ∀ frame < longest tracks, ∀ channel < target.frameSize,
    result.sample frame channel = mixture tracks frame channel

/-- No track reaches past the longest one. -/
theorem mixture_of_longest_le (hframe : longest tracks ≤ frame) :
    mixture tracks frame channel = 0.0 := by
  have hnone : tracks.filter (frame < ·.frames) = [] := by
    rw [List.filter_eq_nil_iff]
    intro track htrack
    rw [decide_eq_true_eq, Nat.not_lt]
    exact (frames_le_longest htrack).trans hframe
  rw [mixture, hnone]
  rfl

/-- A mix has the sum of the tracks also where it has ended. -/
theorem Mixed.sample_eq (h : Mixed target tracks result) (hchannel : channel < target.frameSize) :
    result.sample frame channel = mixture tracks frame channel := by
  rcases Nat.lt_or_ge frame (longest tracks) with hlt | hge
  · exact h.samples frame hlt channel hchannel
  · rw [sample_of_frames_le h.whole (h.frames.trans_le hge) (h.format ▸ hchannel),
      mixture_of_longest_le hge]

/-- Tracks that are as long and have the same sums have the same mix. -/
theorem Mixed.unique (h : Mixed target tracks result) (h' : Mixed target tracks' result')
    (hlongest : longest tracks = longest tracks')
    (hmixture : ∀ frame, ∀ channel < target.frameSize,
      mixture tracks frame channel = mixture tracks' frame channel) : result = result' := by
  refine ext_sample h.whole h'.whole (h.format.trans h'.format.symm)
    (h.frames.trans (hlongest.trans h'.frames.symm)) fun frame _ channel hchannel => ?_
  rw [h'.format] at hchannel
  rw [h.sample_eq hchannel, h'.sample_eq hchannel, hmixture frame channel hchannel]

section Exact

variable [Scalar.ExactAddition α]

/-- More tracks add up to the sum of some and the sum of the others. -/
theorem mixture_append (tracks tracks' : List (Segment α)) (frame channel : Nat) :
    mixture (tracks ++ tracks') frame channel =
      mixture tracks frame channel + mixture tracks' frame channel := by
  rw [mixture, List.filter_append, List.map_append, Scalar.sum_append]
  rfl

/-- The order of the tracks does not matter to their sum. -/
theorem mixture_perm (hperm : tracks.Perm tracks') (frame channel : Nat) :
    mixture tracks frame channel = mixture tracks' frame channel :=
  ((hperm.filter _).map _).foldl_op_eq

/-- A track alone adds up to what it is, and to silence where it has ended. -/
theorem mixture_singleton (hwhole : track.WholeFrames)
    (hchannel : channel < track.format.frameSize) :
    mixture [track] frame channel = track.sample frame channel := by
  rcases Nat.lt_or_ge frame track.frames with hlt | hge
  · have hreaching : [track].filter (frame < ·.frames) = [track] :=
      List.filter_cons_of_pos (decide_eq_true hlt)
    rw [mixture, hreaching]
    exact Scalar.exact_zero_add (track.sample frame channel)
  · rw [mixture_of_longest_le hge, sample_of_frames_le hwhole hge hchannel]

/-- The mix of one track is that track. -/
theorem mixed_singleton (hwhole : track.WholeFrames) : Mixed track.format [track] track where
  format := rfl
  whole := hwhole
  frames := rfl
  samples _ _ _ hchannel := (mixture_singleton hwhole hchannel).symm

end Exact

/-! ## Mixing -/

variable [Resampler α]

/-- Tracks in the format of a mix are always mixed, and each sample of the mix is their sum. -/
theorem exists_mixed (htracks : InFormat target tracks) :
    ∃ result, mix target tracks = .ok result ∧ Mixed target tracks result := by
  have hconform : tracks.mapM (·.conform target) = .ok tracks :=
    Except.mapM_eq_ok_iff.mpr (List.forall₂_same.mpr fun track htrack =>
      conform_self (htracks track htrack).1)
  have hlongest : tracks.foldl (fun longest track => max longest track.frames) 0 =
      longest tracks := by
    rw [longest, ← List.foldl_map, List.foldl_max, Nat.zero_max]
  -- the buffer into which the tracks are added from their starts
  let silence : Segment α := silentFrames target (longest tracks)
  let draft := tracks.foldl (fun draft track => draft.mixAt 0 track) silence.draft
  have hmix : mix target tracks = .ok draft.freeze := by
    rw [mix, hconform, Except.ok_bind]
    dsimp only
    rw [hlongest]
    rfl
  have hformat : draft.format = target :=
    Draft.format_foldl_mixAt (fun _ => 0) id silence.draft tracks
  have hsize : draft.samples.size = longest tracks * target.frameSize :=
    (Draft.size_foldl_mixAt (fun _ => 0) id silence.draft tracks).trans Array.size_replicate
  have hfreeze : draft.freeze = ⟨draft.samples, target⟩ := by
    rw [Draft.freeze_of_size (hformat.symm ▸ hsize), hformat]
  refine ⟨draft.freeze, hmix, ?_⟩
  rw [hfreeze]
  refine ⟨rfl, whole_frames_of_size hsize, frames_of_size hsize, ?_⟩
  intro frame hframe channel hchannel
  have hkept : silence.draft.format = target := rfl
  have hstored := Draft.getElem?_foldl_mixAt (fun _ => 0) id hkept htracks frame hchannel
  have hsilent : silence.draft.samples[frame * target.frameSize + channel]? = some 0.0 := by
    have hframe' : frame < silence.frames := by rwa [frames_silentFrames]
    rw [← sample_silentFrames target (longest tracks) frame channel]
    exact getElem?_eq_sample (whole_frames_silentFrames _ _) hframe' hchannel
  simp only [id_eq, Nat.zero_le, true_and, Nat.zero_add, Nat.sub_zero, hsilent,
    Option.map_some] at hstored
  show draft.samples.getD (frame * target.frameSize + channel) 0.0 = _
  rw [Array.getD_eq_getD_getElem?, hstored, Option.getD_some, mixture, Scalar.sum, List.foldl_map]

/-- Tracks that are as long and have the same sums are mixed alike. -/
theorem mix_congr (htracks : InFormat target tracks) (htracks' : InFormat target tracks')
    (hlongest : longest tracks = longest tracks')
    (hmixture : ∀ frame, ∀ channel < target.frameSize,
      mixture tracks frame channel = mixture tracks' frame channel) :
    mix target tracks = mix target tracks' := by
  obtain ⟨result, hresult, hmixed⟩ := exists_mixed htracks
  obtain ⟨result', hresult', hmixed'⟩ := exists_mixed htracks'
  rw [hresult, hresult', hmixed.unique hmixed' hlongest hmixture]

variable [Scalar.ExactAddition α]

/-- Groups of tracks are always mixed, and the mixes are as long as all the tracks and have their
sums. -/
theorem exists_mixed_groups {groups : List (List (Segment α))}
    (hgroups : InFormat target groups.flatten) :
    ∃ partials, groups.mapM (mix target) = .ok partials ∧ InFormat target partials ∧
      longest partials = longest groups.flatten ∧
      ∀ frame, ∀ channel < target.frameSize,
        mixture partials frame channel = mixture groups.flatten frame channel := by
  induction groups with
  | nil => exact ⟨[], rfl, hgroups, rfl, fun _ _ _ => rfl⟩
  | cons group groups ih =>
      rw [List.flatten_cons] at hgroups ⊢
      obtain ⟨hgroup, hrest⟩ := List.forall_mem_append.mp hgroups
      obtain ⟨result, hresult, hmixed⟩ := exists_mixed hgroup
      obtain ⟨partials, hpartials, hformat, hlongest, hmixture⟩ := ih hrest
      refine ⟨[result] ++ partials, ?_, ?_, ?_, ?_⟩
      · rw [List.mapM_cons, hresult, Except.ok_bind, hpartials]
        rfl
      · exact List.forall_mem_cons.mpr ⟨⟨hmixed.format, hmixed.whole⟩, hformat⟩
      · rw [longest_append, longest_append, longest_singleton, hmixed.frames, hlongest]
      · intro frame channel hchannel
        have hchannel' : channel < result.format.frameSize := hmixed.format.symm ▸ hchannel
        rw [mixture_append, mixture_append, mixture_singleton hmixed.whole hchannel',
          hmixed.sample_eq hchannel, hmixture frame channel hchannel]

/-- Mixes of groups of tracks are mixed into what all the tracks are mixed into. -/
theorem mix_groups {groups : List (List (Segment α))} (hgroups : InFormat target groups.flatten) :
    groups.mapM (mix target) >>= mix target = mix target groups.flatten := by
  obtain ⟨partials, hpartials, hformat, hlongest, hmixture⟩ := exists_mixed_groups hgroups
  rw [hpartials, Except.ok_bind]
  exact mix_congr hformat hgroups hlongest hmixture

/-- Tracks may be mixed in any order. -/
theorem mix_reordered (htracks : InFormat target tracks) (hperm : tracks.Perm tracks') :
    InFormat target tracks' ∧ mix target tracks' = mix target tracks := by
  have htracks' : InFormat target tracks' :=
    fun track htrack => htracks track (hperm.mem_iff.mpr htrack)
  exact ⟨htracks', mix_congr htracks' htracks (longest_perm hperm).symm fun frame channel _ =>
    (mixture_perm hperm frame channel).symm⟩

/-- Tracks without samples change nothing. -/
theorem mix_append_empty {silent : List (Segment α)} (htracks : InFormat target tracks)
    (hsilent : ∀ track ∈ silent, track.format = target ∧ track.isEmpty = true) :
    InFormat target (tracks ++ silent) ∧ mix target (tracks ++ silent) = mix target tracks := by
  have hnone : longest silent = 0 := Nat.le_zero.mp (longest_le_iff.mpr fun track htrack =>
    (frames_of_isEmpty (hsilent track htrack).2).2.le)
  have hformat : InFormat target silent := fun track htrack =>
    ⟨(hsilent track htrack).1, (frames_of_isEmpty (hsilent track htrack).2).1⟩
  have hboth : InFormat target (tracks ++ silent) := List.forall_mem_append.mpr ⟨htracks, hformat⟩
  refine ⟨hboth, mix_congr hboth htracks ?_ fun frame channel _ => ?_⟩
  · rw [longest_append, hnone, Nat.max_zero]
  · rw [mixture_append, mixture_of_longest_le (hnone.trans_le frame.zero_le), Scalar.exact_add_zero]

/-- Tracks in the format of a mix are always mixed. The mix is as long as the longest of them, so
that nothing of any track is cut, and each sample is the sum over the tracks that reach it. Where
addition is exact, the tracks may be mixed in any order, with any tracks without samples among them,
and in any groups that are mixed first; and the mix of one track is that track. -/
theorem mix_regroupable_sum (htracks : InFormat target tracks) :
    (∃ result, mix target tracks = .ok result ∧ Mixed target tracks result ∧
      ∀ track ∈ tracks, track.frames ≤ result.frames) ∧
    (∀ tracks', tracks.Perm tracks' → mix target tracks' = mix target tracks) ∧
    (∀ silent tracks' : List (Segment α),
      (∀ track ∈ silent, track.format = target ∧ track.isEmpty = true) →
      (tracks ++ silent).Perm tracks' → mix target tracks' = mix target tracks) ∧
    (∀ groups : List (List (Segment α)), tracks.Perm groups.flatten →
      groups.mapM (mix target) >>= mix target = mix target tracks) ∧
    (∀ track, tracks = [track] → mix target tracks = .ok track) := by
  obtain ⟨result, hresult, hmixed⟩ := exists_mixed htracks
  refine ⟨⟨result, hresult, hmixed, ?_⟩, fun tracks' hperm => (mix_reordered htracks hperm).2,
    ?_, ?_, ?_⟩
  · intro track htrack
    exact (frames_le_longest htrack).trans_eq hmixed.frames.symm
  · intro silent tracks' hsilent hperm
    obtain ⟨hboth, hmix⟩ := mix_append_empty htracks hsilent
    exact (mix_reordered hboth hperm).2.trans hmix
  · intro groups hperm
    obtain ⟨hgroups, hmix⟩ := mix_reordered htracks hperm
    exact (mix_groups hgroups).trans hmix
  · rintro track rfl
    obtain ⟨rfl, hwhole⟩ := htracks track List.mem_cons_self
    rw [hresult, hmixed.unique (mixed_singleton hwhole) rfl fun _ _ _ => rfl]

/-- Three tracks of different lengths, of which the last two are mixed first, after an empty one. -/
theorem three_tracks_mixed :
    let first : Segment ℝ := ⟨#[1, 2, 3], .mono 1000⟩
    let second : Segment ℝ := ⟨#[10, 20], .mono 1000⟩
    let third : Segment ℝ := ⟨#[100], .mono 1000⟩
    let total : Segment ℝ := ⟨#[111, 22, 3], .mono 1000⟩
    InFormat (.mono 1000) [first, second, third] ∧
      mix (.mono 1000) [first, second, third] = .ok total ∧
      mix (.mono 1000) [third, empty (.mono 1000), second, first] = .ok total ∧
      [[third, second], [first]].mapM (mix (.mono 1000)) >>= mix (.mono 1000) = .ok total := by
  intro first second third total
  have hfirst : first.frames = 3 := frames_of_size rfl
  have hsecond : second.frames = 2 := frames_of_size rfl
  have hthird : third.frames = 1 := frames_of_size rfl
  have htracks : InFormat (.mono 1000) [first, second, third] := by
    simp only [InFormat, List.forall_mem_cons]
    exact ⟨⟨rfl, whole_frames_of_size (rfl : _ = 3 * 1)⟩,
      ⟨rfl, whole_frames_of_size (rfl : _ = 2 * 1)⟩,
      ⟨rfl, whole_frames_of_size (rfl : _ = 1 * 1)⟩, nofun⟩
  have hlongest : longest [first, second, third] = 3 := by
    simp [longest, hfirst, hsecond, hthird]
  obtain ⟨⟨result, hresult, hmixed, -⟩, -, hempty, hgroups, -⟩ := mix_regroupable_sum htracks
  have htotal : result = total := by
    refine ext_sample hmixed.whole (whole_frames_of_size (rfl : _ = 3 * 1)) hmixed.format
      (hmixed.frames.trans (hlongest.trans (frames_of_size rfl).symm)) ?_
    intro frame hframe channel hchannel
    have hframe : frame < 3 := (frames_of_size rfl : total.frames = 3) ▸ hframe
    obtain rfl : channel = 0 := Nat.lt_one_iff.mp hchannel
    rw [hmixed.sample_eq hchannel, mixture]
    simp only [List.filter_cons, List.filter_nil, hfirst, hsecond, hthird]
    interval_cases frame <;>
      norm_num [Scalar.sum, first, second, third, total, sample, Format.mono, Format.frameSize,
        Channels.count]
  rw [htotal] at hresult
  refine ⟨htracks, hresult, ?_, ?_⟩
  · rw [← hresult]
    refine hempty [empty (.mono 1000)] _ (by simp [empty, isEmpty]) ?_
    exact (List.reverse_perm _).symm.trans (.swap _ _ _)
  · rw [← hresult]
    refine hgroups _ ?_
    exact (List.reverse_perm [first, second, third]).symm

end Segment

end SingingVoice
