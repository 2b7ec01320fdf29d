import Mathlib
import SingingVoice.Proofs.Loop
import SingingVoice.Proofs.Resampling.Channels
import SingingVoice.Proofs.Segment.Frames

/-!
# Interleaving and back

Samples interleave channels if every frame of theirs has one sample of each channel, in the order
of the channels (`Interleaves`). Channels are determined by the samples that interleave them, and
these by the channels (`Interleaves.channels_unique`, `Interleaves.samples_unique`). Both splitting
and joining give what is interleaved, so each undoes the other (`interleaving_round_trip`). The
same is done by a loop over the frames that puts each sample at the end of its channel
(`splitByFrame`), and by one over the frames and the channels in which every access is checked
(`joinByFrame?`).
-/

namespace SingingVoice.Interleave

variable {α : Type}

/-- The sample of a frame in a list of channels. -/
def cell? (channels : Array (Array α)) (frame channel : Nat) : Option α :=
  channels[channel]?.bind (·[frame]?)

/-- The first frames of the samples hold the channels, one sample of each after another. -/
structure Interleaves (samples : Array α) (channels : Array (Array α)) (frames : Nat) : Prop where
  long : ∀ channel ∈ channels, channel.size = frames
  reach : frames * channels.size ≤ samples.size
  sample : ∀ frame < frames, ∀ channel < channels.size,
    cell? channels frame channel = samples[frame * channels.size + channel]?

variable {samples samples' : Array α} {channels channels' : Array (Array α)} {frames : Nat}

/-- Samples interleave only one list of so many channels. -/
theorem Interleaves.channels_unique (h : Interleaves samples channels frames)
    (h' : Interleaves samples channels' frames) (hsize : channels.size = channels'.size) :
    channels = channels' := by
  refine Array.ext hsize fun channel hchannel hchannel' => Array.ext_getElem? fun frame => ?_
  have hlong := h.long _ (Array.getElem_mem hchannel)
  have hlong' := h'.long _ (Array.getElem_mem hchannel')
  by_cases hframe : frame < frames
  · have hleft := h.sample frame hframe channel hchannel
    have hright := h'.sample frame hframe channel hchannel'
    rw [cell?, Array.getElem?_eq_getElem hchannel, Option.bind_some] at hleft
    rw [cell?, Array.getElem?_eq_getElem hchannel', Option.bind_some, ← hsize] at hright
    exact hleft.trans hright.symm
  · rw [Array.getElem?_eq_none (by omega), Array.getElem?_eq_none (by omega)]

/-- Channels are interleaved by only one list of samples of whole frames. -/
theorem Interleaves.samples_unique (h : Interleaves samples channels frames)
    (h' : Interleaves samples' channels frames) (hsize : samples.size = frames * channels.size)
    (hsize' : samples'.size = frames * channels.size) : samples = samples' := by
  refine Array.ext_getElem? fun place => ?_
  by_cases hplace : place < frames * channels.size
  · -- every place is that of a frame and a channel
    have hpos : 0 < channels.size := Nat.pos_of_mul_pos_left (Nat.zero_lt_of_lt hplace)
    have hchannel := Nat.mod_lt place hpos
    have hframe : place / channels.size < frames := by
      rw [← frame_index_lt_iff hchannel, Nat.div_add_mod']
      exact hplace
    have hleft := h.sample _ hframe _ hchannel
    have hright := h'.sample _ hframe _ hchannel
    rw [Nat.div_add_mod'] at hleft hright
    exact hleft.symm.trans hright
  · rw [Array.getElem?_eq_none (by omega), Array.getElem?_eq_none (by omega)]

/-- What comes after the frames does not count. -/
theorem Interleaves.extract (h : Interleaves samples channels frames) :
    Interleaves (samples.extract 0 (frames * channels.size)) channels frames where
  long := h.long
  reach := by
    rw [Array.size_extract, Nat.min_eq_left h.reach, Nat.sub_zero]
  sample frame hframe channel hchannel := by
    have hplace := (frame_index_lt_iff hchannel).mpr hframe
    rw [h.sample frame hframe channel hchannel, Array.getElem?_extract, Nat.min_eq_left h.reach,
      Nat.sub_zero, if_pos hplace, Nat.zero_add]

/-! ## Splitting -/

/-- The samples interleave the channels that they are split into, as far as they are whole
frames. -/
theorem interleaves_split (samples : Array α) (count : Nat) :
    Interleaves samples (split samples count) (samples.size / count) where
  long channel hchannel := by
    obtain ⟨place, hplace, rfl⟩ := Array.mem_iff_getElem.mp hchannel
    simp [split]
  reach := by
    rw [size_split]
    exact Nat.div_mul_le_self _ _
  sample frame hframe channel hchannel := by
    rw [size_split] at hchannel ⊢
    have hplace := (frame_index_lt_iff hchannel).mpr hframe
    have hle := Nat.div_mul_le_self samples.size count
    rw [cell?, split, Array.getElem?_ofFn, dif_pos hchannel, Option.bind_some, Array.getElem?_ofFn,
      dif_pos hframe, Array.getElem?_eq_getElem (by omega)]

/-- The samples of a frame. -/
def frameOf (samples : Array α) (count frame : Nat) : Array α :=
  samples.extract (frame * count) (frame * count + count)

/-- A frame has a sample for every channel. -/
theorem getElem?_frameOf (samples : Array α) {count frame channel : Nat}
    (hchannel : channel < count) (hreach : frame * count + count ≤ samples.size) :
    ∃ x, (frameOf samples count frame)[channel]? = some x ∧
      samples[frame * count + channel]? = some x := by
  have hplace : frame * count + channel < samples.size := by omega
  refine ⟨samples[frame * count + channel], ?_, Array.getElem?_eq_getElem hplace⟩
  rw [frameOf, Array.getElem?_extract, Nat.min_eq_left hreach, if_pos (by omega),
    Array.getElem?_eq_getElem hplace]

/-- Puts the samples of a frame at the ends of the channels, each in its turn. -/
def pushFrame (channels : Array (Array α)) (frame : Array α) : Array (Array α) :=
  channels.mapIdx fun channel samples => frame[channel]?.elim samples samples.push

/-- The channels of interleaved samples, frame after frame, without a partial frame at the end. -/
def splitByFrame (samples : Array α) (count : Nat) : Array (Array α) :=
  (List.range (samples.size / count)).foldl
    (fun channels frame => pushFrame channels (frameOf samples count frame))
    (Array.replicate count #[])

/-- Another frame is put after those before it. -/
theorem Interleaves.push_frameOf (h : Interleaves samples channels frames)
    (hreach : frames * channels.size + channels.size ≤ samples.size) :
    Interleaves samples (pushFrame channels (frameOf samples channels.size frames))
      (frames + 1) := by
  have hsize : (pushFrame channels (frameOf samples channels.size frames)).size = channels.size :=
    Array.size_mapIdx
  -- each channel gets the sample of the frame that is its own
  have hpushed : ∀ channel < channels.size, ∃ column x, channels[channel]? = some column ∧
      column.size = frames ∧ samples[frames * channels.size + channel]? = some x ∧
      (pushFrame channels (frameOf samples channels.size frames))[channel]? =
        some (column.push x) := by
    intro channel hchannel
    obtain ⟨x, hframe, hx⟩ := getElem?_frameOf samples hchannel hreach
    have hcolumn := Array.getElem?_eq_getElem hchannel
    refine ⟨_, x, hcolumn, h.long _ (Array.getElem_mem hchannel), hx, ?_⟩
    rw [pushFrame, Array.getElem?_mapIdx, hcolumn, hframe, Option.map_some, Option.elim_some]
  refine ⟨fun channel hchannel => ?_, ?_, fun frame hframe channel hchannel => ?_⟩
  · obtain ⟨place, hplace, rfl⟩ := Array.mem_iff_getElem.mp hchannel
    obtain ⟨column, x, -, hcolumn, -, hget⟩ := hpushed place (hsize ▸ hplace)
    rw [Array.getElem?_eq_getElem hplace, Option.some.injEq] at hget
    rw [hget, Array.size_push, hcolumn]
  · rw [hsize, Nat.succ_mul]
    exact hreach
  · rw [hsize] at hchannel ⊢
    obtain ⟨column, x, hcolumn, hlong, hx, hget⟩ := hpushed channel hchannel
    rw [cell?, hget, Option.bind_some, Array.getElem?_push, hlong]
    split
    · rename_i hlast
      rw [hlast, hx]
    · have hbefore := h.sample frame (by omega) channel hchannel
      rwa [cell?, hcolumn, Option.bind_some] at hbefore

/-- Frame after frame, the channels are those that the samples are split into. -/
theorem splitByFrame_eq (samples : Array α) (count : Nat) :
    splitByFrame samples count = split samples count := by
  have hfirst : ∀ frames ≤ samples.size / count,
      ∃ channels, (List.range frames).foldl
          (fun channels frame => pushFrame channels (frameOf samples count frame))
          (Array.replicate count #[]) = channels ∧
        channels.size = count ∧ Interleaves samples channels frames := by
    intro frames hframes
    induction frames with
    | zero =>
        refine ⟨_, rfl, Array.size_replicate, fun channel hchannel => ?_, ?_, nofun⟩
        · rw [Array.eq_of_mem_replicate hchannel]
          rfl
        · rw [Nat.zero_mul]
          exact Nat.zero_le _
    | succ frames ih =>
        obtain ⟨channels, hchannels, rfl, hinterleaves⟩ := ih (Nat.le_of_succ_le hframes)
        have hreach := (Nat.mul_le_mul_right channels.size hframes).trans (Nat.div_mul_le_self _ _)
        rw [Nat.succ_mul] at hreach
        rw [List.range_succ, List.foldl_append, hchannels]
        exact ⟨_, rfl, Array.size_mapIdx, hinterleaves.push_frameOf hreach⟩
  obtain ⟨channels, hchannels, hsize, hinterleaves⟩ := hfirst _ le_rfl
  exact hchannels.trans (hinterleaves.channels_unique (interleaves_split samples count)
    (hsize.trans (size_split samples count).symm))

/-! ## Joining -/

/-- Where nothing is left out, a filtered list has the same places. -/
theorem getElem?_filterMap_of_isSome {β : Type} {f : α → Option β} {xs : List α}
    (h : ∀ x ∈ xs, (f x).isSome = true) (place : Nat) :
    (xs.filterMap f)[place]? = xs[place]?.bind f := by
  induction xs generalizing place with
  | nil => rfl
  | cons x xs ih =>
      obtain ⟨y, hy⟩ := Option.isSome_iff_exists.mp (h x List.mem_cons_self)
      rw [List.filterMap_cons_some hy]
      cases place with
      | zero => exact hy.symm
      | succ place => exact ih (fun x hx => h x (List.mem_cons_of_mem _ hx)) place

/-- A frame of channels that are long enough has the samples of all of them. -/
theorem getElem?_row {frame : Nat} (hlong : ∀ channel ∈ channels, frame < channel.size)
    (channel : Nat) :
    (channels.filterMap (·[frame]?))[channel]? = cell? channels frame channel := by
  have hsome : ∀ channel ∈ channels.toList, (channel[frame]?).isSome = true := by
    intro channel hchannel
    rw [Array.getElem?_eq_getElem (hlong channel (Array.mem_toList_iff.mp hchannel))]
    rfl
  rw [← Array.getElem?_toList, Array.toList_filterMap, getElem?_filterMap_of_isSome hsome,
    Array.getElem?_toList, cell?]

/-- The first frames of a list of channels, one after another. -/
def joinFirst (channels : Array (Array α)) (frames : Nat) : Array α :=
  (Array.range frames).flatMap fun frame => channels.filterMap (·[frame]?)

/-- Another frame is put after those before it. -/
theorem joinFirst_succ (channels : Array (Array α)) (frames : Nat) :
    joinFirst channels (frames + 1) =
      joinFirst channels frames ++ channels.filterMap (·[frames]?) := by
  simp [joinFirst, Array.range_succ]

/-- Channels that are long enough are joined frame by frame. -/
theorem joinFirst_frames (hlong : ∀ channel ∈ channels, frames ≤ channel.size) :
    (joinFirst channels frames).size = frames * channels.size ∧
      ∀ frame < frames, ∀ channel < channels.size,
        (joinFirst channels frames)[frame * channels.size + channel]? =
          cell? channels frame channel := by
  induction frames with
  | zero =>
      have hnone : joinFirst channels 0 = #[] := rfl
      rw [hnone, Nat.zero_mul]
      exact ⟨rfl, nofun⟩
  | succ frames ih =>
      obtain ⟨hsize, hget⟩ := ih fun channel hchannel => Nat.le_of_succ_le (hlong channel hchannel)
      have hrow : (channels.filterMap (·[frames]?)).size = channels.size := by
        refine Array.filterMap_size_eq_size.mpr fun channel hchannel => ?_
        rw [Array.getElem?_eq_getElem (hlong channel hchannel)]
        rfl
      rw [joinFirst_succ]
      refine ⟨by rw [Array.size_append, hsize, hrow, Nat.succ_mul], ?_⟩
      intro frame hframe channel hchannel
      rw [Array.getElem?_append, hsize]
      simp only [frame_index_lt_iff hchannel]
      split
      · rename_i hbefore
        exact hget frame hbefore channel hchannel
      · rename_i hlast
        obtain rfl : frame = frames := by omega
        rw [Nat.add_sub_cancel_left]
        exact getElem?_row hlong channel

/-- Channels that are equally long are interleaved by joining them. -/
theorem interleaves_join (hpos : 0 < channels.size)
    (hlong : ∀ channel ∈ channels, channel.size = frames) :
    join channels = joinFirst channels frames ∧ Interleaves (join channels) channels frames := by
  have hfirst : channels[0].size = frames := hlong _ (Array.getElem_mem hpos)
  have hjoin : join channels = joinFirst channels frames := by
    rw [join, Array.getElem?_eq_getElem hpos, Option.map_some, Option.getD_some, hfirst]
    rfl
  obtain ⟨hsize, hget⟩ := joinFirst_frames fun channel hchannel => (hlong channel hchannel).ge
  refine ⟨hjoin, hlong, ?_, ?_⟩
  · rw [hjoin, hsize]
  · intro frame hframe channel hchannel
    rw [hjoin, hget frame hframe channel hchannel]

/-- Joins channels frame by frame and in each frame channel by channel. Every channel must have a
sample for every frame of the first. -/
def joinByFrame? (channels : Array (Array α)) : Option (Array α) :=
  (List.range ((channels[0]?.map Array.size).getD 0)).foldlM
    (fun joined frame =>
      channels.toList.foldlM (fun joined channel => channel[frame]?.map joined.push) joined)
    #[]

/-- The samples of a frame are put at the end one after another. -/
theorem foldlM_push {frame : Nat} {columns : List (Array α)}
    (hlong : ∀ column ∈ columns, frame < column.size) (joined : Array α) :
    columns.foldlM (fun joined column => column[frame]?.map joined.push) joined =
      some (joined ++ (columns.filterMap (·[frame]?)).toArray) := by
  induction columns generalizing joined with
  | nil => simp
  | cons column columns ih =>
      obtain ⟨x, hcolumn⟩ : ∃ x, column[frame]? = some x :=
        ⟨_, Array.getElem?_eq_getElem (hlong column List.mem_cons_self)⟩
      have hcons : (column :: columns).filterMap (·[frame]?) =
          x :: columns.filterMap (·[frame]?) :=
        List.filterMap_cons_some hcolumn
      rw [List.foldlM_cons, hcolumn, hcons]
      simp only [Option.map_some, Option.bind_eq_bind, Option.bind_some]
      rw [ih fun column hcolumn => hlong column (List.mem_cons_of_mem _ hcolumn)]
      simp

/-- No access is outside of a channel when channels are joined that are equally long. -/
theorem joinByFrame?_eq (hpos : 0 < channels.size)
    (hlong : ∀ channel ∈ channels, channel.size = frames) :
    joinByFrame? channels = some (join channels) := by
  have hfirst : channels[0].size = frames := hlong _ (Array.getElem_mem hpos)
  have hrun : ∃ joined, (List.range frames).foldlM
        (fun joined frame =>
          channels.toList.foldlM (fun joined channel => channel[frame]?.map joined.push) joined)
        #[] = some joined ∧ joined = joinFirst channels frames := by
    refine exists_foldlM_range (fun k joined => joined = joinFirst channels k) rfl ?_
    rintro frame hframe joined rfl
    have hcolumns : ∀ column ∈ channels.toList, frame < column.size := fun column hcolumn =>
      hlong column (Array.mem_toList_iff.mp hcolumn) ▸ hframe
    refine ⟨_, foldlM_push hcolumns _, ?_⟩
    rw [joinFirst_succ, ← Array.toList_filterMap, Array.toArray_toList]
  obtain ⟨joined, hjoined, rfl⟩ := hrun
  rw [joinByFrame?, Array.getElem?_eq_getElem hpos, Option.map_some, Option.getD_some, hfirst,
    hjoined, (interleaves_join hpos hlong).1]

/-! ## There and back -/

/-- Splitting gives each channel the samples of its own, and splitting and joining undo each other:
samples that are split and joined lose a partial frame at the end and nothing else, and channels
that are joined and split are the same again. The loops over the frames give the same, and no access
of theirs is outside. -/
theorem interleaving_round_trip {count : Nat} (hcount : 0 < count) :
    (∀ samples : Array α,
      join (split samples count) = samples.extract 0 (samples.size / count * count) ∧
      (count ∣ samples.size → join (split samples count) = samples) ∧
      (split samples count).size = count ∧
      (∀ channel < count, ∃ column, (split samples count)[channel]? = some column ∧
        column.size = samples.size / count ∧
        ∀ (frame : Nat) (h : frame < column.size),
          samples[frame * count + channel]? = some column[frame]) ∧
      splitByFrame samples count = split samples count ∧
      joinByFrame? (split samples count) = some (join (split samples count))) ∧
    ∀ (channels : Array (Array α)) (frames : Nat), channels.size = count →
      (∀ channel ∈ channels, channel.size = frames) →
      split (join channels) count = channels ∧ joinByFrame? channels = some (join channels) := by
  constructor
  · intro samples
    have hsplit := interleaves_split samples count
    have hsize := size_split samples count
    have hpos : 0 < (split samples count).size := hsize.symm ▸ hcount
    have hjoin := (interleaves_join hpos hsplit.long).2
    have hwhole : join (split samples count) =
        samples.extract 0 (samples.size / count * count) := by
      have hextract := hsplit.extract
      rw [hsize] at hextract
      refine hjoin.samples_unique hextract (size_join hsplit.long) ?_
      rw [hsize, Array.size_extract, Nat.min_eq_left (Nat.div_mul_le_self _ _), Nat.sub_zero]
    refine ⟨hwhole, ?_, hsize, ?_, splitByFrame_eq samples count, joinByFrame?_eq hpos hsplit.long⟩
    · intro hdvd
      rw [hwhole, Nat.div_mul_cancel hdvd, Array.extract_size]
    · intro channel hchannel
      have hlt : channel < (split samples count).size := hsize.symm ▸ hchannel
      have hlong := hsplit.long _ (Array.getElem_mem hlt)
      refine ⟨_, Array.getElem?_eq_getElem hlt, hlong, fun frame hframe => ?_⟩
      have hcell := hsplit.sample frame (hlong ▸ hframe) channel hlt
      rw [cell?, Array.getElem?_eq_getElem hlt, Option.bind_some, Array.getElem?_eq_getElem hframe,
        hsize] at hcell
      exact hcell.symm
  · rintro channels frames rfl hlong
    obtain ⟨-, hjoin⟩ := interleaves_join hcount hlong
    have hframes : (join channels).size / channels.size = frames := by
      rw [size_join hlong, Nat.mul_div_cancel _ hcount]
    have hsplit := interleaves_split (join channels) channels.size
    rw [hframes] at hsplit
    exact ⟨hsplit.channels_unique hjoin (size_split _ _), joinByFrame?_eq hcount hlong⟩

/-- Two channels of two frames are split from five samples and joined again, without the last. -/
theorem five_samples_split :
    0 < 2 ∧ split #[1, 2, 3, 4, 5] 2 = #[#[1, 3], #[2, 4]] ∧
      join (split #[1, 2, 3, 4, 5] 2) = #[1, 2, 3, 4] ∧
      split (join #[#[1, 3], #[2, 4]]) 2 = #[#[1, 3], #[2, 4]] := by
  obtain ⟨hsplit, hjoin⟩ := interleaving_round_trip (α := Nat) (by decide : 0 < 2)
  obtain ⟨hwhole, -⟩ := hsplit #[1, 2, 3, 4, 5]
  have hback := (hjoin #[#[1, 3], #[2, 4]] 2 rfl (by simp)).1
  exact ⟨by decide, by decide, hwhole, hback⟩

end SingingVoice.Interleave
