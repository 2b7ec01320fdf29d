import Mathlib
import SingingVoice.Proofs.Segment.Overlays

/-!
# Positions of repetitions in words

The frames at which repetitions start are machine words. `Repetition.starts?` adds them up in words
and fails where a sum or a product is none. That never happens to a single repetition and to a loop
in a base that fits into memory (`Repetition.loopStarts?_eq`), and to counted ones exactly if the
last of them starts too late (`Repetition.starts?_times_eq`), which a late enough position makes
possible with two. What is computed then wraps around to the front of the base
(`Segment.overlayRepeat_times`).
-/

namespace SingingVoice

namespace Repetition

/-- A number, if it is a word. -/
def word? (n : Nat) : Option Nat :=
  if n < wordSize then some n else none

/-- The frames at which the repetitions of a loop start from a frame on, in a base of so many
frames, if the frame after each of them is a word. -/
def loopStarts? (step frames position : Nat) : Option (List Nat) :=
  if 0 < step ∧ position < frames then
    (word? (position + step)).bind fun _ =>
      (loopStarts? step frames (position + step)).map (position :: ·)
  else some []
termination_by frames - position
decreasing_by omega

/-- The frames at which the repetitions of a segment of `step` frames start, the first one at
`start`, in a base of so many frames, if all sums and products that lead to them are words. -/
def starts? (repetition : Repetition) (start step frames : Nat) : Option (List Nat) :=
  match repetition with
  | once => some [start]
  | times count => (List.range count).mapM fun i =>
      (word? (i * step)).bind fun offset => word? (start + offset)
  | loop => loopStarts? step frames start

variable {start step frames position : Nat}

/-- A start frame is computed exactly if it is a word. -/
theorem word?_start (start step i : Nat) :
    ((word? (i * step)).bind fun offset => word? (start + offset)) = word? (start + i * step) := by
  by_cases hword : start + i * step < wordSize
  · have hoffset : i * step < wordSize := by omega
    rw [word?, if_pos hoffset, Option.bind_some]
  · have hnone : word? (start + i * step) = none := if_neg hword
    rw [hnone]
    unfold word?
    split
    · simp only [Option.bind_some, hword, ↓reduceIte]
    · rfl

/-- The frames of counted repetitions are computed exactly if all of them are words. -/
theorem starts?_times (count start step frames : Nat) :
    (times count).starts? start step frames =
      if ∀ i < count, start + i * step < wordSize then
        some ((List.range count).map fun i => start + i * step)
      else none := by
  simp only [starts?, word?_start]
  -- by induction on the count: the last repetition is computed after those before it
  induction count with
  | zero => rfl
  | succ count ih =>
      rw [List.range_succ, List.mapM_append, ih]
      simp only [List.mapM_cons, List.mapM_nil, Nat.forall_lt_succ_right]
      by_cases hbefore : ∀ i < count, start + i * step < wordSize
      · rw [if_pos hbefore]
        by_cases hlast : start + count * step < wordSize
        · rw [if_pos ⟨hbefore, hlast⟩]
          simp [word?, hlast]
        · rw [if_neg fun h => hlast h.2]
          simp [word?, hlast]
      · rw [if_neg hbefore, if_neg fun h => hbefore h.1]
        rfl

/-- Counted repetitions start at words exactly if the last one does. -/
theorem forall_starts_iff (count start step : Nat) :
    (∀ i < count, start + i * step < wordSize) ↔
      (0 < count → start + (count - 1) * step < wordSize) := by
  constructor
  · intro h hcount
    exact h (count - 1) (by omega)
  · intro h i hi
    have hle : i * step ≤ (count - 1) * step := Nat.mul_le_mul_right _ (by omega)
    have hlast := h (by omega)
    omega

/-- A loop starts at the frames of its positions, if the base and the segment are not too long for
their sum to be a word. -/
theorem loopStarts?_eq (hstep : 0 < step) (hwords : frames + step ≤ wordSize) (position : Nat) :
    loopStarts? step frames position = some (loop.positions position step frames) := by
  fun_induction loopStarts? step frames position with
  | case1 position h ih =>
      have hnext : word? (position + step) = some (position + step) := if_pos (by omega)
      rw [hnext, Option.bind_some, ih, Option.map_some, positions_loop hstep h.2]
  | case2 position h =>
      have hend : frames ≤ position := by omega
      rw [positions_loop_of_le hstep hend]

/-- The positions in the base are all those of counted repetitions that fit into words, or wrap
around, up to what starts after the end of the base. -/
theorem filter_positions_times (hstep : 0 < step) (count start frames : Nat) :
    ((times count).positions start step frames).filter (· < frames) =
      ((List.range count).map fun i => (start + i * step) % wordSize).filter (· < frames) := by
  rw [positions]
  split
  · rename_i hwords
    -- nothing wraps around, and the two lists differ in what starts after the end
    have hsame : ((List.range count).map fun i => (start + i * step) % wordSize) =
        (List.range count).map fun i => start + i * step := by
      refine List.map_congr_left fun i hi => Nat.mod_eq_of_lt ?_
      have hlt : i * step < count * step :=
        Nat.mul_lt_mul_of_pos_right (List.mem_range.mp hi) hstep
      omega
    rw [hsame, List.filter_map, List.filter_map]
    congr 1
    refine List.Pairwise.eq_of_mem_iff (List.pairwise_lt_range.filter _)
      (List.pairwise_lt_range.filter _) fun i => ?_
    rw [List.mem_filter, List.mem_filter, List.mem_range, List.mem_range, lt_min_iff,
      lt_reach_iff hstep]
    simp only [Function.comp_apply, decide_eq_true_eq, and_assoc, and_self]
  · rfl

end Repetition

namespace Segment

variable {α : Type} [Scalar α] {base other : Segment α}

/-- The samples of the segment fit into memory: their bytes, eight for each, are less than half of
the words. -/
def InMemory (segment : Segment α) : Prop :=
  8 * segment.samples.size < Word.count 63

omit [Scalar α] in
/-- Two segments that fit into memory have fewer frames together than there are words. -/
theorem InMemory.frames_add_le (hbase : base.InMemory) (hother : other.InMemory) :
    base.frames + other.frames ≤ Repetition.wordSize := by
  have hframes : ∀ segment : Segment α, segment.frames ≤ segment.samples.size :=
    fun segment => Nat.div_le_self _ _
  have hdouble : Repetition.wordSize = Word.count 63 + Word.count 63 := rfl
  have hfirst := hframes base
  have hsecond := hframes other
  unfold InMemory at hbase hother
  omega

/-- What is added after the end of a segment changes nothing. -/
theorem mixedIn_filter (hbase : base.WholeFrames) (hother : other.WholeFrames)
    (hformat : other.format = base.format) (positions : List Nat) :
    base.mixedIn other (positions.filter (· < base.frames)) = base.mixedIn other positions := by
  refine ext_sample (whole_frames_mixedIn hbase _) (whole_frames_mixedIn hbase _) rfl
    ((frames_mixedIn _ _ _).trans (frames_mixedIn _ _ _).symm) ?_
  intro frame hframe channel hchannel
  rw [frames_mixedIn] at hframe
  rw [sample_mixedIn hbase hother hformat _ hframe hchannel,
    sample_mixedIn hbase hother hformat _ hframe hchannel, List.filter_filter]
  congr 1
  refine List.filter_congr fun position _ => ?_
  rw [← Bool.decide_and, decide_eq_decide]
  omega

/-- Nothing is added to a segment by repetitions that all start after its end. -/
theorem mixedIn_of_frames_le (hbase : base.WholeFrames) (hother : other.WholeFrames)
    (hformat : other.format = base.format) {positions : List Nat}
    (hpast : ∀ position ∈ positions, base.frames ≤ position) :
    base.mixedIn other positions = base := by
  have hnone : positions.filter (· < base.frames) = [] := by
    rw [List.filter_eq_nil_iff]
    intro position hposition
    rw [decide_eq_true_eq]
    exact Nat.not_lt.mpr (hpast position hposition)
  rw [← mixedIn_filter hbase hother hformat, hnone]
  rfl

variable [Resampler α]

/-- The frames of counted repetitions wrap around where they are no words. -/
theorem overlayRepeat_times (hbase : base.WholeFrames) (hother : other.WholeFrames)
    (hformat : other.format = base.format) (hsome : 0 < other.frames) (position : α)
    (count : Nat) :
    base.overlayRepeat other position (.times count) =
      .ok (base.mixedIn other ((List.range count).map fun i =>
        (base.format.framesIn position + i * other.frames) % Word.count 64)) := by
  rw [overlayRepeat_eq hbase hformat, ← mixedIn_filter hbase hother hformat,
    Repetition.filter_positions_times hsome, mixedIn_filter hbase hother hformat]
  rfl

/-- A segment is added at the frames that are computed for its repetitions, none of which is before
the first. -/
theorem overlayRepeat_starts (hbase : base.WholeFrames) (hother : other.WholeFrames)
    (hformat : other.format = base.format) (hsome : 0 < other.frames)
    (hwords : base.frames + other.frames ≤ Repetition.wordSize) (position : α)
    {repetition : Repetition} {starts : List Nat}
    (h : repetition.starts? (base.format.framesIn position) other.frames base.frames =
      some starts) :
    base.overlayRepeat other position repetition = .ok (base.mixedIn other starts) ∧
      ∀ start ∈ starts, base.format.framesIn position ≤ start := by
  cases repetition with
  | once =>
      cases h
      exact ⟨overlayRepeat_eq hbase hformat position .once, by simp⟩
  | times count =>
      rw [Repetition.starts?_times] at h
      split at h
      · rename_i hfits
        cases h
        have hsame : ((List.range count).map fun i =>
            (base.format.framesIn position + i * other.frames) % Word.count 64) =
              (List.range count).map fun i => base.format.framesIn position + i * other.frames :=
          List.map_congr_left fun i hi => Nat.mod_eq_of_lt (hfits i (List.mem_range.mp hi))
        rw [overlayRepeat_times hbase hother hformat hsome, hsame]
        exact ⟨rfl, by simp⟩
      · cases h
  | loop =>
      rw [Repetition.starts?, Repetition.loopStarts?_eq hsome hwords] at h
      cases h
      exact ⟨overlayRepeat_eq hbase hformat position .loop, by simp [Repetition.positions]⟩

/-- In an overlay of a segment that has frames, of the format of the base, no sum and no product
that leads to the frame of a repetition exceeds a word, unless repetitions are counted and the last
of them starts too late. The segment is then added at these frames, and those past the end of the
base change nothing; a repetition that starts after the end changes nothing at all. In any case
counted repetitions are added where their frames are when they wrap around. -/
theorem starts_are_words_iff (hbase : base.WholeFrames) (hother : other.WholeFrames)
    (hformat : other.format = base.format) (hsome : 0 < other.frames) (hmemory : base.InMemory)
    (hmemory' : other.InMemory) (position : α) :
    let start := base.format.framesIn position
    let step := other.frames
    (∀ repetition : Repetition, (repetition.starts? start step base.frames).isSome ↔
      ∀ count, repetition = .times count → 0 < count →
        start + (count - 1) * step < Word.count 64) ∧
    (∀ (repetition : Repetition) (starts : List Nat),
      repetition.starts? start step base.frames = some starts →
        base.overlayRepeat other position repetition = .ok (base.mixedIn other starts) ∧
        base.mixedIn other (starts.filter (· < base.frames)) = base.mixedIn other starts ∧
        (base.frames ≤ start → base.mixedIn other starts = base)) ∧
    ∀ count, base.overlayRepeat other position (.times count) =
      .ok (base.mixedIn other ((List.range count).map fun i =>
        (start + i * step) % Word.count 64)) := by
  intro start step
  have hwords := hmemory.frames_add_le hmemory'
  refine ⟨fun repetition => ?_, fun repetition starts h => ?_,
    overlayRepeat_times hbase hother hformat hsome position⟩
  · cases repetition with
    | once => simp [Repetition.starts?]
    | times count =>
        rw [Repetition.starts?_times, Option.isSome_ite, Repetition.forall_starts_iff]
        constructor
        · rintro h _ ⟨⟩
          exact h
        · exact fun h => h count rfl
    | loop => simp [Repetition.starts?, Repetition.loopStarts?_eq hsome hwords, step]
  · obtain ⟨hoverlay, hstarts⟩ := overlayRepeat_starts hbase hother hformat hsome hwords position h
    exact ⟨hoverlay, mixedIn_filter hbase hother hformat starts, fun hend =>
      mixedIn_of_frames_le hbase hother hformat fun position hposition =>
        hend.trans (hstarts position hposition)⟩

/-- Three repetitions after the end of a segment of two frames change nothing. -/
theorem repetitions_after_the_end :
    let base : Segment ℝ := ⟨#[1, 2], ⟨1000, .mono⟩⟩
    let other : Segment ℝ := ⟨#[5], ⟨1000, .mono⟩⟩
    base.WholeFrames ∧ other.WholeFrames ∧ 0 < other.frames ∧
      (Repetition.times 3).starts? (base.format.framesIn (7 : ℝ)) other.frames base.frames =
        some [7, 8, 9] ∧
      base.overlayRepeat other 7 (.times 3) = .ok base := by
  intro base other
  have hbase : base.WholeFrames := whole_frames_of_size (rfl : _ = 2 * 1)
  have hother : other.WholeFrames := whole_frames_of_size (rfl : _ = 1 * 1)
  have hframes : base.frames = 2 := frames_of_size rfl
  have hframes' : other.frames = 1 := frames_of_size rfl
  have hstart : base.format.framesIn (7 : ℝ) = 7 := by
    exact_mod_cast Format.framesIn_of_thousand 7
  have hsome : 0 < other.frames := by
    rw [hframes']
    decide
  have hmemory : base.InMemory := by
    show 8 * 2 < Word.count 63
    decide
  have hmemory' : other.InMemory := by
    show 8 * 1 < Word.count 63
    decide
  obtain ⟨-, hstarts, -⟩ :=
    starts_are_words_iff hbase hother rfl hsome hmemory hmemory' (7 : ℝ)
  have hthree : (Repetition.times 3).starts? (base.format.framesIn (7 : ℝ)) other.frames
      base.frames = some [7, 8, 9] := by
    rw [hstart, hframes', hframes]
    decide
  obtain ⟨hoverlay, -, hsame⟩ := hstarts (.times 3) [7, 8, 9] hthree
  refine ⟨hbase, hother, hsome, hthree, ?_⟩
  rw [hoverlay, hsame (by rw [hstart, hframes]; decide)]

/-- The second of two repetitions from the last word on is computed past the words, and is added at
the front of a segment that ends before both. -/
theorem second_repetition_wraps :
    let base : Segment ℝ := ⟨#[0, 0], ⟨1000, .mono⟩⟩
    let other : Segment ℝ := ⟨#[1], ⟨1000, .mono⟩⟩
    let position : ℝ := 18446744073709551615
    base.WholeFrames ∧ other.WholeFrames ∧ 0 < other.frames ∧ base.InMemory ∧ other.InMemory ∧
      base.format.framesIn position + 1 = Word.count 64 ∧
      base.frames ≤ base.format.framesIn position ∧
      (Repetition.times 2).starts? (base.format.framesIn position) other.frames base.frames =
        none ∧
      base.overlayRepeat other position (.times 2) = .ok ⟨#[1, 0], ⟨1000, .mono⟩⟩ ∧
      base.overlayRepeat other position (.times 2) ≠ .ok base := by
  intro base other position
  have hbase : base.WholeFrames := whole_frames_of_size (rfl : _ = 2 * 1)
  have hother : other.WholeFrames := whole_frames_of_size (rfl : _ = 1 * 1)
  have hframes : base.frames = 2 := frames_of_size rfl
  have hframes' : other.frames = 1 := frames_of_size rfl
  have hstart : base.format.framesIn position = 18446744073709551615 := by
    exact_mod_cast Format.framesIn_of_thousand 18446744073709551615
  have hsome : 0 < other.frames := by
    rw [hframes']
    decide
  have hmemory : base.InMemory := by
    show 8 * 2 < Word.count 63
    decide
  have hmemory' : other.InMemory := by
    show 8 * 1 < Word.count 63
    decide
  have hoverlay : base.overlayRepeat other position (.times 2) =
      .ok ⟨#[1, 0], ⟨1000, .mono⟩⟩ := by
    have hpositions : ((List.range 2).map fun i =>
        (18446744073709551615 + i * 1) % Word.count 64).filter (· < 2) = [0] := by
      decide
    rw [overlayRepeat_times hbase hother rfl hsome, hstart, hframes',
      ← mixedIn_filter hbase hother rfl, hframes, hpositions]
    simp [mixedIn, draft, Draft.mixAll, Draft.mixAt, Draft.addFrom, Draft.addFrom.go, base, other]
  refine ⟨hbase, hother, hsome, hmemory, hmemory', ?_, ?_, ?_, hoverlay, ?_⟩
  · rw [hstart]
    rfl
  · rw [hstart, hframes]
    decide
  · rw [hstart, hframes', hframes]
    decide
  · rw [hoverlay]
    simp [base]

end Segment

end SingingVoice
