/-!
# Counted loops

A loop over the numbers below a count, each step of which may fail, runs to its end if every step
succeeds that begins where the invariant of the loop holds.
-/

namespace SingingVoice

/-- A loop that can be run one step further wherever its invariant holds can be run to its end. -/
theorem exists_foldlM_range {State : Type} {step : State → Nat → Option State}
    (holds : Nat → State → Prop) {start : State} {count : Nat} (hstart : holds 0 start)
    (hstep : ∀ i < count, ∀ state, holds i state →
      ∃ following, step state i = some following ∧ holds (i + 1) following) :
    ∃ last, (List.range count).foldlM step start = some last ∧ holds count last := by
  induction count with
  | zero => exact ⟨start, rfl, hstart⟩
  | succ count ih =>
      obtain ⟨state, hrun, hstate⟩ := ih fun i hi => hstep i (Nat.lt_succ_of_lt hi)
      obtain ⟨last, hlast, hholds⟩ := hstep count (Nat.lt_succ_self count) state hstate
      refine ⟨last, ?_, hholds⟩
      rw [List.range_succ, List.foldlM_append, hrun]
      simpa using hlast

/-- A loop none of whose steps fails gives what the steps give one after another. -/
theorem foldlM_range_eq_some {State : Type} {step : State → Nat → Option State}
    {next : Nat → State → State} {start : State} {count : Nat}
    (hstep : ∀ i < count, ∀ state, step state i = some (next i state)) :
    (List.range count).foldlM step start =
      some (count.fold (fun i _ state => next i state) start) := by
  have hrun : ∃ last, (List.range count).foldlM step start = some last ∧
      last = count.fold (fun i _ state => next i state) start := by
    refine exists_foldlM_range
      (fun k state => state = k.fold (fun i _ state => next i state) start) rfl ?_
    rintro i hi state rfl
    refine ⟨_, hstep i hi _, ?_⟩
    rw [Nat.fold_succ]
  obtain ⟨_, hlast, rfl⟩ := hrun
  exact hlast

end SingingVoice
