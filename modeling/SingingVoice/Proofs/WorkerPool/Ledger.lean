import Mathlib
import SingingVoice.Proofs.WorkerPool.Interleaving

/-!
# The indices of a worker pool

A pool keeps its books: whatever the order in which its workers act, the indices that have been
handed out are the first ones, each of them is with exactly one worker, and a worker only stops when
the flag is raised or all indices are handed out (`Ledger`). So when all workers have stopped, the
records are those of the first indices (`Ledger.records_perm`), and none that matters is missing
(`Ledger.covers`).
-/

namespace SingingVoice.WorkerPool

variable {ε β : Type} {count : Nat} {result : Nat → Except ε β}

/-- The index that a worker has not recorded yet. -/
def Phase.index? : Phase ε β → Option Nat
  | working index | reporting index _ | recording index _ => some index
  | ready | claiming | stopped => none

/-- All indices that a worker has taken. -/
def Worker.indices (worker : Worker ε β) : List Nat :=
  worker.phase.index?.toList ++ worker.records.map Prod.fst

/-- What a worker has found out and what it has recorded are the results of the tasks. -/
structure Worker.Honest (result : Nat → Except ε β) (worker : Worker ε β) : Prop where
  reporting : ∀ index outcome, worker.phase = .reporting index outcome → outcome = result index
  recording : ∀ index outcome, worker.phase = .recording index outcome → outcome = result index
  records : ∀ entry ∈ worker.records, entry.2 = result entry.1

/-- All indices that the workers of a pool have taken. -/
def handedOut (pool : Pool ε β) : List Nat :=
  pool.workers.flatMap Worker.indices

/-- What holds of a pool at every moment of a run: the indices handed out are the first ones and
each has been taken once, the workers are honest, the flag stands for a failed index, and a worker
has stopped for a reason. -/
structure Ledger (count : Nat) (result : Nat → Except ε β) (pool : Pool ε β) : Prop where
  handed : (handedOut pool).Perm (List.range (min pool.next count))
  honest : ∀ worker ∈ pool.workers, worker.Honest result
  flag : pool.failed = true → ∃ index < min pool.next count, isError (result index) = true
  stopped : ∀ worker ∈ pool.workers, worker.phase = .stopped →
    pool.failed = true ∨ count ≤ pool.next

/-- Before a run no index is handed out. -/
theorem Ledger.initial (size : Nat) : Ledger count result (start size : Pool ε β) where
  handed := by
    have hnone : handedOut (start size : Pool ε β) = [] := by
      simp [handedOut, start, Worker.indices, Phase.index?]
    rw [hnone]
    simp [start]
  honest worker hworker := by
    obtain rfl := List.eq_of_mem_replicate hworker
    refine ⟨?_, ?_, ?_⟩
    · intro index outcome hphase
      cases hphase
    · intro index outcome hphase
      cases hphase
    · intro entry hentry
      cases hentry
  flag hfailed := by cases hfailed
  stopped worker hworker hphase := by
    obtain rfl := List.eq_of_mem_replicate hworker
    cases hphase

/-- An action either takes no index or the next one, which is then with the worker that acts. -/
theorem Action.indices {next next' : Nat} {failed failed' : Bool} {worker worker' : Worker ε β}
    (h : Action count result (next, failed, worker) (next', failed', worker')) :
    (worker'.indices.Perm worker.indices ∧ min next' count = min next count) ∨
    (next < count ∧ next' = next + 1 ∧ worker'.indices = next :: worker.indices) := by
  cases h with
  | claim _ _ _ hlt => exact .inr ⟨hlt, rfl, rfl⟩
  | exhaust _ _ _ hle =>
      refine .inl ⟨.refl _, ?_⟩
      omega
  | record _ _ index outcome records => exact .inl ⟨.refl _, rfl⟩
  | stop | proceed | work | report => exact .inl ⟨.refl _, rfl⟩

section Actions

variable {next next' : Nat} {failed failed' : Bool} {worker worker' : Worker ε β}

/-- The counter never goes back and the flag is never lowered. -/
theorem Action.mono (h : Action count result (next, failed, worker) (next', failed', worker')) :
    next ≤ next' ∧ (failed = true → failed' = true) := by
  cases h with
  | report => exact ⟨Nat.le_refl _, fun hfailed => by rw [hfailed, Bool.true_or]⟩
  | claim | exhaust => exact ⟨Nat.le_succ _, id⟩
  | stop | proceed | work | record => exact ⟨Nat.le_refl _, id⟩

/-- A worker stays honest. -/
theorem Action.honest (h : Action count result (next, failed, worker) (next', failed', worker'))
    (hworker : worker.Honest result) : worker'.Honest result := by
  cases h with
  | work _ _ index records =>
      refine ⟨?_, nofun, hworker.records⟩
      intro index' outcome hphase
      cases hphase
      rfl
  | report _ _ index outcome records =>
      refine ⟨nofun, ?_, hworker.records⟩
      intro index' outcome' hphase
      cases hphase
      exact hworker.reporting index outcome rfl
  | record _ _ index outcome records =>
      refine ⟨nofun, nofun, ?_⟩
      intro entry hentry
      rcases List.mem_cons.mp hentry with rfl | hentry
      · exact hworker.recording index outcome rfl
      · exact hworker.records entry hentry
  | stop | proceed | claim | exhaust => exact ⟨nofun, nofun, hworker.records⟩

/-- An honest worker raises the flag only for an index whose task has failed. -/
theorem Action.flag (h : Action count result (next, failed, worker) (next', failed', worker'))
    (hworker : worker.Honest result) (hfailed : failed' = true) :
    failed = true ∨ ∃ index ∈ worker.indices, isError (result index) = true := by
  cases h with
  | report _ _ index outcome records =>
      rcases (Bool.or_eq_true _ _).mp hfailed with hfailed | herror
      · exact .inl hfailed
      · rw [hworker.reporting index outcome rfl] at herror
        exact .inr ⟨index, List.mem_cons_self, herror⟩
  | stop | proceed | claim | exhaust | work | record => exact .inl hfailed

/-- A worker stops because the flag is raised or no index is left. -/
theorem Action.stopped (h : Action count result (next, failed, worker) (next', failed', worker'))
    (hphase : worker'.phase = .stopped) : failed' = true ∨ count ≤ next' := by
  cases h with
  | stop => exact .inl rfl
  | exhaust _ _ _ hle => exact .inr (Nat.le_succ_of_le hle)
  | proceed | claim | work | report | record => cases hphase

end Actions

/-- After an action every worker is the one that has acted or was there before. -/
theorem eq_or_mem_of_acted {before after : List (Worker ε β)} {worker worker' other : Worker ε β}
    (h : other ∈ before ++ worker' :: after) :
    other = worker' ∨ other ∈ before ++ worker :: after := by
  rcases List.mem_append.mp h with hbefore | hafter
  · exact .inr (List.mem_append_left _ hbefore)
  · rcases List.mem_cons.mp hafter with rfl | hafter
    · exact .inl rfl
    · exact .inr (List.mem_append_right _ (List.mem_cons_of_mem _ hafter))

/-- The books of a pool stay in order when any of its workers acts. -/
theorem Ledger.step {pool pool' : Pool ε β} (h : Ledger count result pool)
    (hstep : Step count result pool pool') : Ledger count result pool' := by
  cases hstep with
  | @act before after next next' failed failed' worker worker' haction =>
      have hmem : worker ∈ before ++ worker :: after := by simp
      have hmono := haction.mono
      have hmin : min next count ≤ min next' count := by omega
      have hworker := h.honest worker hmem
      refine ⟨?_, ?_, ?_, ?_⟩
      · -- the index a worker takes is the next one, so what is handed out stays a first stretch
        have hhanded := h.handed
        simp only [handedOut, List.flatMap_append, List.flatMap_cons] at hhanded ⊢
        rcases haction.indices with ⟨hperm, hsame⟩ | ⟨hlt, rfl, hnext⟩
        · rw [hsame]
          exact ((hperm.append_right _).append_left _).trans hhanded
        · have hnew : min (next + 1) count = min next count + 1 := by omega
          rw [hnew, List.range_succ, Nat.min_eq_left (Nat.le_of_lt hlt), hnext, List.cons_append]
          rw [Nat.min_eq_left (Nat.le_of_lt hlt)] at hhanded
          exact (List.perm_middle.trans (hhanded.cons next)).trans
            (List.perm_append_singleton next _).symm
      · intro other hother
        rcases eq_or_mem_of_acted hother with rfl | hother
        · exact haction.honest hworker
        · exact h.honest other hother
      · -- the failed index has been handed out, since the worker that reports it has taken it
        intro hfailed
        rcases haction.flag hworker hfailed with hfailed | ⟨index, hindex, herror⟩
        · obtain ⟨index, hlt, herror⟩ := h.flag hfailed
          exact ⟨index, Nat.lt_of_lt_of_le hlt hmin, herror⟩
        · have hhanded : index ∈ handedOut ⟨next, failed, before ++ worker :: after⟩ :=
            List.mem_flatMap.mpr ⟨worker, hmem, hindex⟩
          have hlt := List.mem_range.mp (h.handed.mem_iff.mp hhanded)
          exact ⟨index, Nat.lt_of_lt_of_le hlt hmin, herror⟩
      · intro other hother hphase
        rcases eq_or_mem_of_acted hother with rfl | hother
        · exact haction.stopped hphase
        · rcases h.stopped other hother hphase with hfailed | hcount
          · exact .inl (hmono.2 hfailed)
          · exact .inr (Nat.le_trans hcount hmono.1)

/-- The books of a pool are in order throughout a run. -/
theorem Ledger.steps {pool pool' : Pool ε β} (h : Ledger count result pool)
    (hsteps : Steps count result pool pool') : Ledger count result pool' := by
  induction hsteps with
  | refl => exact h
  | tail _ hstep ih => exact ih.step hstep

/-- When all workers have stopped, the records are the results of the indices handed out. -/
theorem Ledger.records_perm {pool : Pool ε β} (h : Ledger count result pool)
    (hstopped : Stopped pool) :
    (records pool).Perm
      ((List.range (min pool.next count)).map fun index => (index, result index)) := by
  have hindices : handedOut pool = (records pool).map Prod.fst := by
    rw [handedOut, records, List.map_flatMap, List.flatMap_def, List.flatMap_def]
    apply congrArg List.flatten
    apply List.map_congr_left
    intro worker hworker
    rw [Worker.indices, hstopped worker hworker]
    rfl
  have hentries : (records pool).map (fun entry => (entry.1, result entry.1)) = records pool := by
    refine Eq.trans (List.map_congr_left ?_) (List.map_id (records pool))
    intro entry hentry
    obtain ⟨worker, hworker, hentry⟩ := List.mem_flatMap.mp hentry
    exact Prod.ext rfl ((h.honest worker hworker).records entry hentry).symm
  have hperm := h.handed.map fun index => (index, result index)
  rw [hindices, List.map_map] at hperm
  rw [← hentries]
  exact hperm

/-- When all workers have stopped, a task has failed or all indices have been handed out. -/
theorem Ledger.covers {pool : Pool ε β} (h : Ledger count result pool) (hstopped : Stopped pool)
    (hworkers : pool.workers ≠ []) :
    (∃ index < min pool.next count, isError (result index) = true) ∨ count ≤ pool.next := by
  obtain ⟨worker, hworker⟩ := List.exists_mem_of_ne_nil _ hworkers
  rcases h.stopped worker hworker (hstopped worker hworker) with hfailed | hcount
  · exact .inl (h.flag hfailed)
  · exact .inr hcount

end SingingVoice.WorkerPool
