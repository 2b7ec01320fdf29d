import Mathlib
import SingingVoice.Proofs.Resampling.Channels

/-!
# What a resampler is asked

A conversion is a conversation: a resampler is asked for one block after another, and the
conversation ends when it fails (`converse`). `Resampler.feed` asks for the frames of the channels
in full blocks and one shorter block (`feed_eq`, `feeds_feeding`), and `Resampler.flush` asks for
silence until the output is long enough, but gives up after an answer without a frame
(`exists_silenced`).
-/

namespace SingingVoice.Resampler

variable {α : Type} {channels output : Array (Array α)} {position target channel : Nat}

/-! ## Channels of blocks -/

/-- A block has so many channels, each of so many frames. -/
structure Aligned (block : Array (Array α)) (count frames : Nat) : Prop where
  size : block.size = count
  frames : ∀ samples ∈ block, samples.size = frames

/-- The samples that a block has for a channel, none if it does not have the channel. -/
def ofChannel (block : Array (Array α)) (channel : Nat) : List α :=
  (block[channel]?.getD #[]).toList

/-- The samples that blocks have for a channel, one block after another. -/
def joined (blocks : List (Array (Array α))) (channel : Nat) : List α :=
  blocks.flatMap (ofChannel · channel)

@[simp] theorem joined_nil (channel : Nat) : joined ([] : List (Array (Array α))) channel = [] :=
  rfl

@[simp] theorem joined_cons (block : Array (Array α)) (blocks : List (Array (Array α)))
    (channel : Nat) :
    joined (block :: blocks) channel = ofChannel block channel ++ joined blocks channel := rfl

/-- The frames are counted in the first channel. -/
theorem frameCount_eq (block : Array (Array α)) :
    frameCount block = (ofChannel block 0).length := by
  unfold frameCount ofChannel
  cases block[0]? <;> simp

/-- The samples of a channel are in the block. -/
theorem ofChannel_eq (h : channel < channels.size) :
    ofChannel channels channel = channels[channel].toList := by
  simp [ofChannel, h]

/-- The channels of an aligned block are equally long. -/
theorem Aligned.length_ofChannel {count frames : Nat} (h : Aligned channels count frames)
    (hchannel : channel < count) : (ofChannel channels channel).length = frames := by
  have hlt : channel < channels.size := h.size.symm ▸ hchannel
  rw [ofChannel_eq hlt, Array.length_toList]
  exact h.frames _ (Array.getElem_mem hlt)

/-- The frames of an aligned block. -/
theorem Aligned.frameCount {count frames : Nat} (h : Aligned channels count frames)
    (hcount : 0 < count) : frameCount channels = frames := by
  rw [frameCount_eq, h.length_ofChannel hcount]

/-- A block is appended to every channel. -/
theorem ofChannel_appendBlock (h : channel < output.size) (block : Array (Array α)) :
    ofChannel (appendBlock output block) channel =
      ofChannel output channel ++ ofChannel block channel := by
  simp [ofChannel, appendBlock, h]

/-- Blocks are appended to every channel one after another. -/
theorem ofChannel_foldl_appendBlock (outs : List (Array (Array α))) (h : channel < output.size) :
    ofChannel (outs.foldl appendBlock output) channel =
      ofChannel output channel ++ joined outs channel := by
  induction outs generalizing output with
  | nil => simp
  | cons out outs ih =>
    have h' : channel < (appendBlock output out).size := by rwa [size_appendBlock]
    rw [List.foldl_cons, ih h', ofChannel_appendBlock h, joined_cons, List.append_assoc]

/-- Appending blocks keeps the number of channels. -/
@[simp] theorem size_foldl_appendBlock (outs : List (Array (Array α)))
    (output : Array (Array α)) : (outs.foldl appendBlock output).size = output.size := by
  induction outs generalizing output with
  | nil => rfl
  | cons out outs ih => rw [List.foldl_cons, ih, size_appendBlock]

/-- The frames of a part of every channel are those of the channel. -/
theorem ofChannel_block (channels : Array (Array α)) (start stop channel : Nat) :
    ofChannel (block channels start stop) channel =
      ((ofChannel channels channel).take stop).drop start := by
  unfold ofChannel block
  rw [Array.getElem?_map]
  cases channels[channel]? <;> simp [List.extract_eq_take_drop, List.drop_take]

/-- Parts of aligned channels are aligned. -/
theorem Aligned.block {count frames : Nat} (h : Aligned channels count frames) (start stop : Nat) :
    Aligned (block channels start stop) count (min stop frames - start) where
  size := by
    rw [Resampler.block, Array.size_map, h.size]
  frames samples hsamples := by
    obtain ⟨whole, hwhole, rfl⟩ := Array.mem_map.mp hsamples
    rw [Array.size_extract, h.frames whole hwhole]

/-! ## Conversations -/

/-- What a resampler is asked for. -/
inductive Call (α : Type) where
  /-- The output for a full block. -/
  | full (block : Array (Array α))
  /-- The output for a shorter block. -/
  | rest (block : Array (Array α))
  /-- The output for silence after the end. -/
  | silence

/-- The block that goes with a call. Silence has none. -/
def Call.block : Call α → Array (Array α)
  | full block => block
  | rest block => block
  | silence => #[]

variable [Resampler α] {state : State α}

/-- What a resampler answers: an error, or output and the state that it is in then. -/
def answer (state : State α) : Call α → Except String (Array (Array α) × State α)
  | .full block => process state block
  | .rest block => processPartial state (some block)
  | .silence => processPartial state none

/-- The answers to calls that are made one after another, and the state after them. The first call
that fails ends the conversation. -/
def converse (state : State α) :
    List (Call α) → Except String (List (Array (Array α)) × State α)
  | [] => .ok ([], state)
  | call :: calls =>
    match answer state call with
    | .error reason => .error reason
    | .ok (out, next) => (converse next calls).map (Prod.map (out :: ·) id)

theorem converse_cons_ok {call : Call α} {out : Array (Array α)} {next : State α}
    (h : answer state call = .ok (out, next)) (calls : List (Call α)) :
    converse state (call :: calls) = (converse next calls).map (Prod.map (out :: ·) id) := by
  rw [converse, h]

theorem converse_cons_error {call : Call α} {reason : String}
    (h : answer state call = .error reason) (calls : List (Call α)) :
    converse state (call :: calls) = .error reason := by
  rw [converse, h]

/-- The first call of a conversation is answered, and then the others are. -/
theorem converse_cons_eq_ok {call : Call α} {calls : List (Call α)}
    {outs : List (Array (Array α))} {final : State α} :
    converse state (call :: calls) = .ok (outs, final) ↔
      ∃ out next rest, answer state call = .ok (out, next) ∧
        converse next calls = .ok (rest, final) ∧ outs = out :: rest := by
  rw [converse]
  cases answer state call with
  | error reason => simp
  | ok answered =>
    rw [Except.map_eq_ok]
    constructor
    · rintro ⟨⟨rest, final'⟩, hrest, hfinal⟩
      cases hfinal
      exact ⟨answered.1, answered.2, rest, rfl, hrest, rfl⟩
    · rintro ⟨out, next, rest, hanswered, hrest, rfl⟩
      cases hanswered
      exact ⟨(rest, final), hrest, rfl⟩

/-- A conversation fails if its first call fails, or one after it. -/
theorem converse_cons_eq_error {call : Call α} {calls : List (Call α)} {reason : String} :
    converse state (call :: calls) = .error reason ↔
      answer state call = .error reason ∨
        ∃ out next, answer state call = .ok (out, next) ∧ converse next calls = .error reason := by
  rw [converse]
  cases answer state call with
  | error reason' => simp
  | ok answered =>
    obtain ⟨out, next⟩ := answered
    cases hrest : converse next calls <;> simp [hrest, Except.map]

/-- Calls after others are answered in the state that those leave. -/
theorem converse_append_ok {first : List (Call α)} {outs : List (Array (Array α))}
    {next : State α} (h : converse state first = .ok (outs, next)) (second : List (Call α)) :
    converse state (first ++ second) = (converse next second).map (Prod.map (outs ++ ·) id) := by
  induction first generalizing state outs with
  | nil =>
    cases h
    show converse next second = _
    cases converse next second <;> rfl
  | cons call first ih =>
    obtain ⟨out, between, rest, hanswer, hrest, rfl⟩ := converse_cons_eq_ok.mp h
    rw [List.cons_append, converse_cons_ok hanswer, ih hrest]
    cases converse next second <;> rfl

/-- There is an answer to every call. -/
theorem length_of_converse {calls : List (Call α)} {outs : List (Array (Array α))}
    {next : State α} (h : converse state calls = .ok (outs, next)) :
    outs.length = calls.length := by
  induction calls generalizing state outs with
  | nil =>
    cases h
    rfl
  | cons call calls ih =>
    obtain ⟨out, between, rest, -, hrest, rfl⟩ := converse_cons_eq_ok.mp h
    rw [List.length_cons, List.length_cons, ih hrest]

/-! ## Feeding -/

omit [Resampler α] in
/-- The calls for the frames of the channels from a position on: full blocks, and a shorter one if
frames are left. -/
def feeding (channels : Array (Array α)) (position : Nat) : List (Call α) :=
  if position + blockSize ≤ frameCount channels then
    .full (block channels position (position + blockSize)) ::
      feeding channels (position + blockSize)
  else if position < frameCount channels then
    [.rest (block channels position (position + blockSize))]
  else []
termination_by frameCount channels - position
decreasing_by simp [blockSize] at *; omega

/-- Feeding the channels in is asking for their blocks, one after another. -/
theorem feed_eq (channels : Array (Array α)) (position : Nat) (output : Array (Array α))
    (state : State α) :
    feed channels position output state =
      (converse state (feeding channels position)).map
        (Prod.map (List.foldl appendBlock output) id) := by
  fun_induction feed channels position output state with
  | case1 position output state hfull ih =>
    rw [feeding, if_pos hfull, converse, answer]
    cases process state (block channels position (position + blockSize)) with
    | error reason => rfl
    | ok answered =>
      obtain ⟨out, next⟩ := answered
      show feed channels (position + blockSize) (appendBlock output out) next =
        ((converse next (feeding channels (position + blockSize))).map _).map _
      rw [ih]
      cases converse next (feeding channels (position + blockSize)) <;> rfl
  | case2 position output state hfull hrest =>
    rw [feeding, if_neg hfull, if_pos hrest, converse, answer]
    cases processPartial state (some (block channels position (position + blockSize))) <;> rfl
  | case3 position output state hfull hrest =>
    rw [feeding, if_neg hfull, if_neg hrest]
    rfl

omit [Resampler α] in
/-- The blocks that are fed in follow each other without a gap. -/
theorem joined_feeding (channels : Array (Array α)) (position channel : Nat)
    (hlength : (ofChannel channels channel).length = frameCount channels) :
    joined ((feeding channels position).map Call.block) channel =
      (ofChannel channels channel).drop position := by
  fun_induction feeding channels position with
  | case1 position hfull ih =>
    rw [List.map_cons, joined_cons, ih, Call.block, ofChannel_block, List.drop_take,
      Nat.add_sub_cancel_left, ← List.drop_drop, List.take_append_drop]
  | case2 position hfull hrest =>
    rw [List.map_singleton, joined_cons, Call.block, ofChannel_block,
      List.take_of_length_le (by omega)]
    exact List.append_nil _
  | case3 position hfull hrest =>
    rw [List.drop_eq_nil_of_le (by omega)]
    rfl

/-- What is asked of a resampler to feed in channels: full blocks, then at most one shorter block,
which together hold the frames of every channel in their order. -/
structure Feeds (channels : Array (Array α)) (calls : List (Call α)) : Prop where
  shape : ∃ (full : List (Array (Array α))) (rest? : Option (Array (Array α))),
    calls = full.map .full ++ rest?.toList.map .rest ∧
    (∀ block ∈ full, Aligned block channels.size blockSize) ∧
    ∀ rest ∈ rest?, ∃ frames, 0 < frames ∧ frames < blockSize ∧ Aligned rest channels.size frames
  joined : ∀ channel < channels.size,
    joined (calls.map Call.block) channel = ofChannel channels channel

omit [Resampler α] in
/-- No block that is fed in has an empty channel. -/
theorem Feeds.size_ne_zero {calls : List (Call α)} (h : Feeds channels calls) :
    ∀ call ∈ calls, ∀ samples ∈ call.block, samples.size ≠ 0 := by
  obtain ⟨full, rest?, rfl, hfull, hrest⟩ := h.shape
  intro call hcall samples hsamples
  rcases List.mem_append.mp hcall with hmem | hmem
  · obtain ⟨block, hblock, rfl⟩ := List.mem_map.mp hmem
    rw [(hfull block hblock).frames samples hsamples]
    decide
  · obtain ⟨block, hblock, rfl⟩ := List.mem_map.mp hmem
    obtain ⟨frames, hpos, -, haligned⟩ := hrest block (Option.mem_toList.mp hblock)
    rw [haligned.frames samples hsamples]
    exact hpos.ne'

omit [Resampler α] in
/-- Only the last block that is fed in may be shorter than the others. -/
theorem feeding_shape {count frames : Nat} (h : Aligned channels count frames) (hcount : 0 < count)
    (position : Nat) : ∃ (full : List (Array (Array α))) (rest? : Option (Array (Array α))),
    feeding channels position = full.map .full ++ rest?.toList.map .rest ∧
    (∀ block ∈ full, Aligned block count blockSize) ∧
    ∀ rest ∈ rest?, ∃ frames, 0 < frames ∧ frames < blockSize ∧ Aligned rest count frames := by
  have hframes := h.frameCount hcount
  fun_induction feeding channels position with
  | case1 position hfull ih =>
    obtain ⟨full, rest?, hcalls, hblocks, hrest⟩ := ih
    have hblock := h.block position (position + blockSize)
    rw [show min (position + blockSize) frames - position = blockSize by omega] at hblock
    exact ⟨_ :: full, rest?, by rw [hcalls]; rfl, List.forall_mem_cons.mpr ⟨hblock, hblocks⟩, hrest⟩
  | case2 position hfull hrest =>
    refine ⟨[], some (block channels position (position + blockSize)), rfl, nofun, ?_⟩
    intro rest hmem
    cases hmem
    exact ⟨_, by omega, by omega, h.block position (position + blockSize)⟩
  | case3 position hfull hrest => exact ⟨[], none, rfl, nofun, nofun⟩

omit [Resampler α] in
/-- The calls that feed in aligned channels. -/
theorem feeds_feeding {count frames : Nat} (h : Aligned channels count frames)
    (hcount : 0 < count) :
    Feeds channels (feeding channels 0) where
  shape := by
    rw [h.size]
    exact feeding_shape h hcount 0
  joined channel hchannel := by
    rw [joined_feeding, List.drop_zero]
    rw [h.length_ofChannel (h.size ▸ hchannel), h.frameCount hcount]

/-! ## Flushing -/

/-- How often silence is asked for, and what comes of it, until the first channel of the output is
long enough. -/
structure Silenced (target : Nat) (output : Array (Array α)) (state : State α)
    (result : Except String (Array (Array α))) (silences : Nat) : Prop where
  /-- It ends: every answer but the last brings a frame. -/
  bounded : silences ≤ target - frameCount output
  /-- Silence is asked for as long as the output is too short and every answer brings frames. -/
  wanted : ∀ asked < silences, ∃ outs next,
    converse state (List.replicate asked .silence) = .ok (outs, next) ∧
    frameCount (outs.foldl appendBlock output) < target ∧ ∀ out ∈ outs, frameCount out ≠ 0
  /-- A call that fails ends it with its error. -/
  failed : ∀ reason, converse state (List.replicate silences .silence) = .error reason →
    result = .error reason
  /-- Otherwise it ends when the output is long enough, or with the first answer without a frame. -/
  ended : ∀ outs next, converse state (List.replicate silences .silence) = .ok (outs, next) →
    target ≤ frameCount (outs.foldl appendBlock output) ∧
      result = .ok (outs.foldl appendBlock output) ∨
    ∃ brought last, outs = brought ++ [last] ∧ frameCount last = 0 ∧
      result = .ok (brought.foldl appendBlock output)

/-- No silence is asked for if the output is long enough. -/
theorem silenced_of_long (hlong : target ≤ frameCount output) :
    Silenced target output state (.ok output) 0 where
  bounded := Nat.zero_le _
  wanted := nofun
  failed := nofun
  ended outs next houts := by
    cases houts
    exact .inl ⟨hlong, rfl⟩

/-- One call is made if it fails. -/
theorem silenced_of_error (hshort : frameCount output < target) {reason : String}
    (hanswer : answer state .silence = .error reason) :
    Silenced target output state (.error reason) 1 where
  bounded := by omega
  wanted asked hasked := by
    obtain rfl : asked = 0 := by omega
    exact ⟨[], state, rfl, hshort, nofun⟩
  failed reason' hreason := by
    rw [List.replicate_one, converse_cons_error hanswer] at hreason
    cases hreason
    rfl
  ended outs next houts := by
    rw [List.replicate_one, converse_cons_error hanswer] at houts
    cases houts

/-- One call is made if it brings no frame. -/
theorem silenced_of_nothing (hshort : frameCount output < target) {out : Array (Array α)}
    {next : State α} (hanswer : answer state .silence = .ok (out, next))
    (hnothing : frameCount out = 0) : Silenced target output state (.ok output) 1 where
  bounded := by omega
  wanted asked hasked := by
    obtain rfl : asked = 0 := by omega
    exact ⟨[], state, rfl, hshort, nofun⟩
  failed reason hreason := by
    rw [List.replicate_one, converse_cons_ok hanswer] at hreason
    cases hreason
  ended outs next' houts := by
    rw [List.replicate_one, converse_cons_ok hanswer] at houts
    cases houts
    exact .inr ⟨[], out, rfl, hnothing, rfl⟩

/-- One more call is made if it brings frames and the output was too short. -/
theorem Silenced.step {result : Except String (Array (Array α))} {silences : Nat}
    (hsize : output.size ≠ 0) (hshort : frameCount output < target) {out : Array (Array α)}
    {next : State α} (hanswer : answer state .silence = .ok (out, next))
    (hframes : frameCount out ≠ 0)
    (h : Silenced target (appendBlock output out) next result silences) :
    Silenced target output state result (silences + 1) where
  bounded := by
    have hlength := frameCount_appendBlock output out hsize
    have hbounded := h.bounded
    omega
  wanted asked hasked := by
    cases asked with
    | zero => exact ⟨[], state, rfl, hshort, nofun⟩
    | succ asked =>
      obtain ⟨outs, final, houts, hlength, hall⟩ := h.wanted asked (by omega)
      exact ⟨out :: outs, final, converse_cons_eq_ok.mpr ⟨out, next, outs, hanswer, houts, rfl⟩,
        hlength, List.forall_mem_cons.mpr ⟨hframes, hall⟩⟩
  failed reason hreason := by
    rcases converse_cons_eq_error.mp hreason with hfail | ⟨out', next', hanswer', hrest⟩
    · rw [hanswer] at hfail
      cases hfail
    · rw [hanswer] at hanswer'
      cases hanswer'
      exact h.failed reason hrest
  ended outs final houts := by
    obtain ⟨out', next', rest, hanswer', hrest, rfl⟩ := converse_cons_eq_ok.mp houts
    rw [hanswer] at hanswer'
    cases hanswer'
    refine (h.ended rest final hrest).imp_right ?_
    rintro ⟨brought, last, rfl, hnothing, hresult⟩
    exact ⟨out :: brought, last, rfl, hnothing, hresult⟩

/-- Flushing asks for silence finitely often. -/
theorem exists_silenced (target : Nat) (hsize : output.size ≠ 0) (state : State α) :
    ∃ silences, Silenced target output state (flush target output state) silences := by
  fun_induction flush target output state with
  | case1 output state hshort reason hanswer =>
    exact ⟨1, silenced_of_error hshort.1 hanswer⟩
  | case2 output state hshort out next hanswer hnothing =>
    exact ⟨1, silenced_of_nothing hshort.1 hanswer hnothing⟩
  | case3 output state hshort out next hanswer hframes _ _ ih =>
    obtain ⟨silences, h⟩ := ih (by rwa [size_appendBlock])
    exact ⟨silences + 1, h.step hsize hshort.1 hanswer hframes⟩
  | case4 output state hlong =>
    exact ⟨0, silenced_of_long (not_lt.mp fun hshort => hlong ⟨hshort, hsize⟩)⟩

end SingingVoice.Resampler
