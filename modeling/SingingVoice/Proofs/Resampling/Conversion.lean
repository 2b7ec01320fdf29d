import Mathlib
import SingingVoice.Proofs.Resampling.Calls
import SingingVoice.Proofs.Exact.Rounding
import SingingVoice.Resampling.Sinc

/-!
# Whole conversions

Channels are fed into a resampler, the resampler is flushed, and what it has answered is trimmed
(`resampleChannels_eq`). `Converted` says what it is asked on the way and what becomes of its
answers, whatever these are, if only its buffers stay equally long (`InStep`). So they do for
windowed sinc interpolation (`Sinc.inStep_create`), which converts all channels that are equally
long (`Sinc.exists_resampleChannels`).
-/

namespace SingingVoice

namespace Resampler

variable {α : Type} {channels output : Array (Array α)} {channel count frames expected : Nat}

/-! ## The output -/

/-- Nothing is appended by a block without a frame. -/
theorem appendBlock_of_aligned_zero {last : Array (Array α)} (h : Aligned last count 0)
    (output : Array (Array α)) : appendBlock output last = output := by
  refine Array.ext (size_appendBlock output last) fun i hi hi' => ?_
  have hnothing : last[i]?.getD #[] = #[] := by
    cases hlast : last[i]? with
    | none => rfl
    | some samples =>
      exact Array.eq_empty_of_size_eq_zero (h.frames samples (Array.mem_of_getElem? hlast))
  simp [appendBlock, hnothing]

/-- A channel is trimmed: its first frames are dropped, and it is cut or filled up with zeros. -/
theorem ofChannel_map_trim [Scalar α] (h : channel < output.size) (delay expected : Nat) :
    ofChannel (output.map (trim delay expected)) channel =
      ((ofChannel output channel).drop delay ++
        List.replicate expected (0.0 : α)).take expected := by
  have hsize : channel < (output.map (trim delay expected)).size := by rwa [Array.size_map]
  rw [ofChannel_eq hsize, ofChannel_eq h, Array.getElem_map]
  simp only [trim, Array.toList_append, Array.toList_extract, Array.toList_replicate,
    List.extract_eq_take_drop, Nat.add_sub_cancel_left, List.take_append, List.take_replicate,
    Array.size_extract, List.length_drop, Array.length_toList]
  congr 2
  omega

variable [Resampler α] {ratio : α} {state : State α}

/-- Whatever a resampler is asked, it answers with so many channels, all of them equally long. -/
def InStep (state : State α) (count : Nat) : Prop :=
  ∀ calls outs next, converse state calls = .ok (outs, next) →
    ∀ out ∈ outs, ∃ frames, Aligned out count frames

/-! ## Flushing in step -/

/-- All answers are appended, as one without a frame changes nothing. -/
theorem Silenced.result_eq {target silences : Nat} {result : Except String (Array (Array α))}
    {outs : List (Array (Array α))} {next : State α}
    (h : Silenced target output state result silences) (hcount : 0 < count)
    (houts : converse state (List.replicate silences .silence) = .ok (outs, next))
    (haligned : ∀ out ∈ outs, ∃ frames, Aligned out count frames) :
    result = .ok (outs.foldl appendBlock output) ∧
      (target ≤ frameCount (outs.foldl appendBlock output) ∨
        ∃ last ∈ outs.getLast?, frameCount last = 0) := by
  rcases h.ended outs next houts with ⟨hlong, hresult⟩ | ⟨brought, last, rfl, hnothing, hresult⟩
  · exact ⟨hresult, .inl hlong⟩
  · obtain ⟨frames, hlast⟩ := haligned last (by simp)
    rw [hlast.frameCount hcount] at hnothing
    subst hnothing
    refine ⟨?_, .inr ⟨last, by simp, hlast.frameCount hcount⟩⟩
    rw [hresult, List.foldl_concat, appendBlock_of_aligned_zero hlast]

/-! ## Conversions -/

/-- What becomes of channels that are converted to so many frames by a resampler in a fresh state:
what it is asked, `calls` and then silence `silences` times, and what follows from its answers. -/
structure Converted [Scalar α] (channels : Array (Array α)) (expected : Nat) (state : State α)
    (result : Except String (Array (Array α))) (calls : List (Call α)) (silences : Nat) : Prop where
  /-- First it is asked for the frames of the channels. -/
  feeds : Feeds channels calls
  /-- Then it is asked for silence, finitely often. -/
  bounded : silences ≤ expected + delay state
  /-- It is asked for silence only while the output is too short and every silence has brought
  frames. -/
  wanted : ∀ asked < silences, ∃ outs next,
    converse state (calls ++ List.replicate asked .silence) = .ok (outs, next) ∧
    (joined outs 0).length < expected + delay state ∧
    ∀ out ∈ outs.drop calls.length, frameCount out ≠ 0
  /-- If a call fails, so does the conversion. -/
  failed : ∀ reason, converse state (calls ++ List.replicate silences .silence) = .error reason →
    result = .error reason
  /-- If none fails, the last answer makes the output long enough, or it is to silence and brings
  nothing. -/
  ended : ∀ outs next,
    converse state (calls ++ List.replicate silences .silence) = .ok (outs, next) →
    expected + delay state ≤ (joined outs 0).length ∨
      0 < silences ∧ ∃ last ∈ outs.getLast?, frameCount last = 0
  /-- Then every channel is what has been answered for it, without the frames that come before the
  signal, and cut or filled up with zeros to the expected length. -/
  succeeded : ∀ outs next,
    converse state (calls ++ List.replicate silences .silence) = .ok (outs, next) →
    ∃ output, result = .ok output ∧ Aligned output channels.size expected ∧
      ∀ channel < channels.size, ofChannel output channel =
        ((joined outs channel).drop (delay state) ++
          List.replicate expected (0.0 : α)).take expected

/-- Where no frame is converted, every channel becomes empty. -/
theorem resampleChannels_of_nothing [Scalar α] (hchannels : Aligned channels count frames)
    (hnothing : count = 0 ∨ frames = 0 ∨ outputFrames frames ratio = 0) :
    resampleChannels channels ratio = .ok (channels.map fun _ => #[]) := by
  unfold resampleChannels
  dsimp only
  refine if_pos ?_
  rcases Nat.eq_zero_or_pos count with hzero | hcount
  · exact .inl (hchannels.size.trans hzero)
  · rw [hchannels.frameCount hcount]
    unfold outputFrames at hnothing
    split_ifs at hnothing <;> omega

/-- A conversion feeds the channels in, flushes and trims. -/
theorem resampleChannels_eq [Scalar α] (hchannels : Aligned channels count frames)
    (hcount : 0 < count) (hframes : 0 < frames) (hexpected : 0 < outputFrames frames ratio) :
    resampleChannels channels ratio =
      create ratio count >>= fun state =>
        feed channels 0 (channels.map fun _ => #[]) state >>= fun fed =>
          (flush (outputFrames frames ratio + delay state) fed.1 fed.2).map fun output =>
            output.map (trim (delay state) (outputFrames frames ratio)) := by
  have hcount' := hchannels.frameCount hcount
  have hframes' : frames ≠ 0 := hframes.ne'
  unfold outputFrames at hexpected ⊢
  rw [if_neg hframes'] at hexpected ⊢
  unfold resampleChannels
  dsimp only
  rw [hcount', hchannels.size, if_neg (by omega)]
  refine bind_congr fun state => bind_congr fun fed => ?_
  show flush _ fed.1 fed.2 >>= _ = (flush _ fed.1 fed.2).map _
  cases flush _ fed.1 fed.2 <;> rfl

omit [Resampler α] in
/-- The output begins without a frame in any channel. -/
theorem ofChannel_blank (channels : Array (Array α)) (channel : Nat) :
    ofChannel (channels.map fun _ => (#[] : Array α)) channel = [] := by
  unfold ofChannel
  rw [Array.getElem?_map]
  cases channels[channel]? <;> rfl

omit [Resampler α] in
/-- The frames of the output are those that have been answered. -/
theorem frameCount_answered (hchannels : Aligned channels count frames) (hcount : 0 < count)
    (outs : List (Array (Array α))) :
    frameCount (outs.foldl appendBlock (channels.map fun _ => #[])) = (joined outs 0).length := by
  have hsize : 0 < (channels.map fun _ => (#[] : Array α)).size := by
    rw [Array.size_map, hchannels.size]
    exact hcount
  rw [frameCount_eq, ofChannel_foldl_appendBlock outs hsize, ofChannel_blank, List.nil_append]

/-- A conversion whose channels cannot be fed in fails. -/
theorem converted_of_unfed [Scalar α] {calls : List (Call α)} (hfeeds : Feeds channels calls)
    {reason : String} (hfed : converse state calls = .error reason) :
    Converted channels expected state (.error reason) calls 0 := by
  have hfed' : converse state (calls ++ List.replicate 0 .silence) = .error reason := by
    rw [List.replicate_zero, List.append_nil, hfed]
  refine ⟨hfeeds, Nat.zero_le _, nofun, ?_, ?_, ?_⟩
  · intro reason' hreason
    rw [hfed'] at hreason
    cases hreason
    rfl
  · intro outs next houts
    rw [hfed'] at houts
    cases houts
  · intro outs next houts
    rw [hfed'] at houts
    cases houts

/-- The answers to the silence after the channels have been fed in. -/
theorem answers_of_silence (hstep : InStep state count) {calls : List (Call α)}
    {outs all : List (Array (Array α))} {next final : State α}
    (hfed : converse state calls = .ok (outs, next)) {silences : Nat}
    (hall : converse state (calls ++ List.replicate silences .silence) = .ok (all, final)) :
    ∃ outs', converse next (List.replicate silences .silence) = .ok (outs', final) ∧
      (∀ out ∈ outs', ∃ frames, Aligned out count frames) ∧ all = outs ++ outs' := by
  have haligned := hstep _ _ _ hall
  rw [converse_append_ok hfed, Except.map_eq_ok] at hall
  obtain ⟨⟨outs', final'⟩, hanswers, hall⟩ := hall
  cases hall
  exact ⟨outs', hanswers, fun out hout => haligned out (List.mem_append_right outs hout), rfl⟩

/-- Once the channels are fed in, the silence that is asked for decides how a conversion ends. -/
theorem converted_of_silenced [Scalar α] (hchannels : Aligned channels count frames)
    (hcount : 0 < count) (hstep : InStep state count) {calls : List (Call α)}
    (hfeeds : Feeds channels calls) {outs : List (Array (Array α))} {next : State α}
    (hfed : converse state calls = .ok (outs, next)) {flushed : Except String (Array (Array α))}
    {silences : Nat} (hsilenced : Silenced (expected + delay state)
      (outs.foldl appendBlock (channels.map fun _ => #[])) next flushed silences) :
    Converted channels expected state
      (flushed.map fun output => output.map (trim (delay state) expected)) calls silences where
  feeds := hfeeds
  bounded := hsilenced.bounded.trans (Nat.sub_le _ _)
  wanted asked hasked := by
    obtain ⟨outs', final, hanswers, hshort, hall⟩ := hsilenced.wanted asked hasked
    refine ⟨outs ++ outs', final, ?_, ?_, ?_⟩
    · rw [converse_append_ok hfed, hanswers]
      rfl
    · rwa [← List.foldl_append, frameCount_answered hchannels hcount] at hshort
    · rwa [← length_of_converse hfed, List.drop_left]
  failed reason hreason := by
    rw [converse_append_ok hfed] at hreason
    rw [hsilenced.failed reason (Except.map_eq_error.mp hreason)]
    rfl
  ended all final hall := by
    obtain ⟨outs', hanswers, haligned, rfl⟩ := answers_of_silence hstep hfed hall
    obtain ⟨-, hended⟩ := hsilenced.result_eq hcount hanswers haligned
    rw [← List.foldl_append, frameCount_answered hchannels hcount] at hended
    refine hended.imp_right ?_
    rintro ⟨last, hlast, hnothing⟩
    have hsome : 0 < outs'.length := List.length_pos_of_mem (List.mem_of_getLast? hlast)
    rw [length_of_converse hanswers, List.length_replicate] at hsome
    refine ⟨hsome, last, ?_, hnothing⟩
    rw [List.getLast?_append, hlast]
    rfl
  succeeded all final hall := by
    obtain ⟨outs', hanswers, haligned, rfl⟩ := answers_of_silence hstep hfed hall
    obtain ⟨hflushed, -⟩ := hsilenced.result_eq hcount hanswers haligned
    rw [← List.foldl_append] at hflushed
    refine ⟨_, by rw [hflushed]; rfl, ⟨?_, ?_⟩, fun channel hchannel => ?_⟩
    · simp
    · intro samples hsamples
      obtain ⟨whole, -, rfl⟩ := Array.mem_map.mp hsamples
      exact size_trim _ _ _
    · have hblank : channel < (channels.map fun _ => (#[] : Array α)).size := by
        rwa [Array.size_map]
      rw [ofChannel_map_trim (by rwa [size_foldl_appendBlock]),
        ofChannel_foldl_appendBlock _ hblank, ofChannel_blank, List.nil_append]

/-- Channels that are equally long are converted in blocks. -/
theorem exists_converted [Scalar α] (hchannels : Aligned channels count frames) (hcount : 0 < count)
    (hframes : 0 < frames) (hexpected : 0 < outputFrames frames ratio)
    (hcreate : create ratio count = .ok state) (hstep : InStep state count) :
    ∃ calls silences, Converted channels (outputFrames frames ratio) state
      (resampleChannels channels ratio) calls silences := by
  have hfeeds := feeds_feeding hchannels hcount
  rw [resampleChannels_eq hchannels hcount hframes hexpected, hcreate, Except.ok_bind, feed_eq]
  cases hfed : converse state (feeding channels 0) with
  | error reason => exact ⟨_, 0, converted_of_unfed hfeeds hfed⟩
  | ok answered =>
    obtain ⟨outs, next⟩ := answered
    have hsize : (outs.foldl appendBlock (channels.map fun _ => (#[] : Array α))).size ≠ 0 := by
      rw [size_foldl_appendBlock, Array.size_map, hchannels.size]
      exact hcount.ne'
    obtain ⟨silences, hsilenced⟩ :=
      exists_silenced (outputFrames frames ratio + delay state) hsize next
    exact ⟨_, silences, converted_of_silenced hchannels hcount hstep hfeeds hfed hsilenced⟩

end Resampler

/-! ## Windowed sinc interpolation -/

namespace Sinc

open Resampler

variable {α : Type} [Scalar α] {channels : Array (Array α)} {count frames : Nat}

/-- Every buffer is evaluated at the same places. -/
theorem process_eq (state : State α) (block : Array (Array α)) :
    ∃ (buffers : Array (Array α)) (places : List α), buffers.size = state.buffers.size ∧
      (process state block).1 =
        buffers.map (fun buffer => (places.map (valueAt state.filters buffer)).toArray) ∧
      (process state block).2.buffers = buffers :=
  ⟨_, _, Array.size_mapIdx, rfl, rfl⟩

/-- A block is answered with equally many samples for each channel. -/
theorem aligned_process (state : State α) (block : Array (Array α)) :
    (process state block).2.buffers.size = state.buffers.size ∧
      ∃ frames, Aligned (process state block).1 state.buffers.size frames := by
  obtain ⟨buffers, places, hsize, hout, hnext⟩ := process_eq state block
  rw [hout, hnext]
  refine ⟨hsize, places.length, by rw [Array.size_map, hsize], fun samples hsamples => ?_⟩
  obtain ⟨buffer, -, rfl⟩ := Array.mem_map.mp hsamples
  rw [List.size_toArray, List.length_map]

/-- What is answered keeps the number of channels, and all channels equally long. -/
theorem aligned_answer {state next : State α} {call : Call α} {out : Array (Array α)}
    (h : answer state call = .ok (out, next)) :
    next.buffers.size = state.buffers.size ∧ ∃ frames, Aligned out state.buffers.size frames := by
  have hprocess : ∃ block, process state block = (out, next) := by
    cases call with
    | full block => exact ⟨block, Except.ok.inj h⟩
    | silence => exact ⟨#[], Except.ok.inj h⟩
    | rest block =>
      change processPartial state (some block) = _ at h
      unfold processPartial at h
      dsimp only at h
      split at h
      · exact ⟨block, Except.ok.inj h⟩
      · cases h
  obtain ⟨block, hblock⟩ := hprocess
  have haligned := aligned_process state block
  rwa [hblock] at haligned

/-- The channels stay in step. -/
theorem inStep (state : State α) : InStep (α := α) state state.buffers.size := by
  intro calls
  induction calls generalizing state with
  | nil =>
    intro outs next houts out hout
    cases houts
    cases hout
  | cons call calls ih =>
    intro outs next houts
    obtain ⟨out, between, rest, hanswer, hrest, rfl⟩ := converse_cons_eq_ok.mp houts
    obtain ⟨hsize, haligned⟩ := aligned_answer hanswer
    exact List.forall_mem_cons.mpr ⟨haligned, hsize ▸ ih between rest next hrest⟩

/-- A fresh state has the channels that it is made for. -/
theorem inStep_create (ratio : α) (count : Nat) : InStep (α := α) (create ratio count) count := by
  have hstep := inStep (create ratio count)
  rwa [show (create ratio count).buffers.size = count from Array.size_replicate] at hstep

/-- Only a shorter block in which a channel is empty is refused. -/
theorem exists_answer (state : State α) {call : Call α}
    (hcall : ∀ samples ∈ call.block, samples.size ≠ 0) :
    ∃ out next, answer state call = .ok (out, next) := by
  cases call with
  | full block => exact ⟨_, _, rfl⟩
  | silence => exact ⟨_, _, rfl⟩
  | rest block =>
    have hnone : block.findIdx? Array.isEmpty = none := by
      simpa [Array.findIdx?_eq_none_iff, Call.block] using hcall
    refine ⟨(process state block).1, (process state block).2, ?_⟩
    show processPartial state (some block) = .ok (process state block)
    unfold processPartial
    dsimp only
    rw [hnone]

/-- Calls without empty channels are answered. -/
theorem exists_converse (state : State α) {calls : List (Call α)}
    (hcalls : ∀ call ∈ calls, ∀ samples ∈ call.block, samples.size ≠ 0) :
    ∃ outs next, converse state calls = .ok (outs, next) := by
  induction calls generalizing state with
  | nil => exact ⟨[], state, rfl⟩
  | cons call calls ih =>
    obtain ⟨hfirst, hrest⟩ := List.forall_mem_cons.mp hcalls
    obtain ⟨out, between, hanswer⟩ := exists_answer state hfirst
    obtain ⟨outs, next, houts⟩ := ih between hrest
    exact ⟨out :: outs, next, converse_cons_eq_ok.mpr ⟨out, between, outs, hanswer, houts, rfl⟩⟩

/-- No conversion of channels that are equally long fails. -/
theorem exists_resampleChannels (hchannels : Aligned channels count frames) (ratio : α) :
    ∃ output, resampleChannels channels ratio = .ok output := by
  by_cases hempty : count = 0 ∨ frames = 0 ∨ outputFrames frames ratio = 0
  · exact ⟨_, resampleChannels_of_nothing hchannels hempty⟩
  · obtain ⟨hcount, hframes, hexpected⟩ :
        0 < count ∧ 0 < frames ∧ 0 < outputFrames frames ratio := by
      omega
    obtain ⟨calls, silences, hconverted⟩ :=
      exists_converted hchannels hcount hframes hexpected rfl (inStep_create ratio count)
    have hblocks : ∀ call ∈ calls ++ List.replicate silences Call.silence,
        ∀ samples ∈ call.block, samples.size ≠ 0 := by
      intro call hcall
      rcases List.mem_append.mp hcall with hmem | hmem
      · exact hconverted.feeds.size_ne_zero call hmem
      · rw [List.eq_of_mem_replicate hmem]
        exact nofun
    obtain ⟨outs, next, houts⟩ := exists_converse (create ratio count) hblocks
    obtain ⟨output, houtput, -⟩ := hconverted.succeeded outs next houts
    exact ⟨output, houtput⟩

end Sinc

namespace Resampler

variable {α : Type} [Scalar α] [Resampler α] {channels : Array (Array α)} {count frames : Nat}
  {ratio : α}

/-- In exact arithmetic the frames that are expected are counted from half a frame above the
product. -/
theorem outputFrames_eq_floor {frames : Nat} {ratio : ℝ} (hratio : 0 ≤ ratio) :
    outputFrames frames ratio = ⌊frames * ratio + 1 / 2⌋₊ := by
  unfold outputFrames
  split_ifs with hframes
  · rw [hframes]
    norm_num
  · rw [Exact.round_of_nonneg (by rw [Exact.ofNat_eq]; positivity), Exact.toNat_eq,
      ← Int.floor_toNat, Int.floor_intCast, Int.floor_toNat, Exact.ofNat_eq]

/-- Any resampler that answers with one buffer for each channel, all of them equally long, converts
channels of so many frames to exactly the number of frames that is expected, unless one of its calls
fails, and is asked finitely often. It is asked for the frames in consecutive full blocks and at
most one shorter block, and then for silence. -/
theorem channels_converted_in_blocks (hchannels : Aligned channels count frames)
    (hcount : 0 < count) (hframes : 0 < frames) (hexpected : 0 < outputFrames frames ratio)
    (hstep : ∀ state, create ratio count = .ok state → InStep state count) :
    (∀ reason, create ratio count = .error reason →
      resampleChannels channels ratio = .error reason) ∧
    ∀ state, create ratio count = .ok state → ∃ calls silences,
      Converted channels (outputFrames frames ratio) state (resampleChannels channels ratio)
        calls silences := by
  constructor
  · intro reason hcreate
    rw [resampleChannels_eq hchannels hcount hframes hexpected, hcreate]
    rfl
  · intro state hcreate
    exact exists_converted hchannels hcount hframes hexpected hcreate (hstep state hcreate)

/-- Two channels of 1500 frames, in a full block and a shorter one, become 750 frames at half the
rate. -/
theorem two_blocks_converted :
    let channels : Array (Array ℝ) := #[Array.replicate 1500 0.5, Array.replicate 1500 0.25]
    Aligned channels 2 1500 ∧ outputFrames 1500 (1 / 2 : ℝ) = 750 ∧
    InStep (α := ℝ) (Sinc.create (1 / 2) 2) 2 ∧
    (∃ calls silences, Converted channels 750 (Sinc.create (1 / 2) 2)
      (resampleChannels channels (1 / 2 : ℝ)) calls silences) ∧
    ∃ output, resampleChannels channels (1 / 2 : ℝ) = .ok output := by
  intro channels
  have haligned : Aligned channels 2 1500 := by
    refine ⟨rfl, fun samples hsamples => ?_⟩
    simp only [channels, List.mem_toArray, List.mem_cons, List.not_mem_nil, or_false] at hsamples
    rcases hsamples with rfl | rfl <;> exact Array.size_replicate
  have hexpected : outputFrames 1500 (1 / 2 : ℝ) = 750 := by
    rw [outputFrames_eq_floor (by norm_num), Nat.floor_eq_iff (by norm_num)]
    norm_num
  have hstep := Sinc.inStep_create (1 / 2 : ℝ) 2
  have hconverted := (channels_converted_in_blocks haligned (by decide) (by decide)
    (by rw [hexpected]; decide) (by
      intro state hcreate
      cases hcreate
      exact hstep)).2 _ rfl
  rw [hexpected] at hconverted
  exact ⟨haligned, hexpected, hstep, hconverted, Sinc.exists_resampleChannels haligned _⟩

end Resampler

end SingingVoice
