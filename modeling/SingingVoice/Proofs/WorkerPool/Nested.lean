import Mathlib
import SingingVoice.Proofs.WorkerPool.Outcome

/-!
# Pools within a pool

A task of a pool may itself be performed by a pool, whose workers take the parts of the task. The
actions of all these pools interleave: a worker of the outer pool that performs a task lets the pool
of the task work, and reports its value when it has stopped. Every interleaving comes to an end
(`Nest.Step.wellFounded`), at which all workers of the outer pool have stopped
(`Nest.exists_step`). The main theorem is `Nest.outcome_of_steps`: the value of the outer pool is
then that of all parts of all tasks done one after another.
-/

namespace SingingVoice.WorkerPool

variable {ε β γ : Type}

/-- How many workers a run starts for so many tasks, of those that are allowed. -/
def poolSize (count workers : Nat) : Nat :=
  max 1 (min workers (max count 1))

/-- A pool is never without a worker. -/
theorem poolSize_pos (count workers : Nat) : 0 < poolSize count workers :=
  Nat.le_max_left _ _

/-- A worker that has not stopped acts again. -/
theorem isLive_of_ne_stopped {phase : Phase ε β} (h : phase ≠ .stopped) : phase.isLive = true := by
  cases phase with
  | stopped => exact absurd rfl h
  | ready | claiming | working | reporting | recording => rfl

/-- A pool that has not stopped takes a step. -/
theorem exists_step_of_not_stopped {count : Nat} {result : Nat → Except ε β} {pool : Pool ε β}
    (h : ¬ Stopped pool) : ∃ pool', Step count result pool pool' := by
  obtain ⟨number, hnumber⟩ := List.exists_mem_of_ne_nil _ (mt stopped_of_live_eq_nil h)
  exact ⟨_, step_iff.mpr ⟨number, hnumber, rfl⟩⟩

/-- Tasks that are performed in parts. -/
structure Division (ε β γ : Type) where
  /-- How many parts a task has. -/
  parts : Nat → Nat
  /-- The result of a part of a task. -/
  part : Nat → Nat → Except ε β
  /-- The result of a task, from the value of its parts. -/
  finish : Nat → Except ε (List β) → Except ε γ

/-- The result of a task whose parts are done one after another. -/
def Division.result (tasks : Division ε β γ) (index : Nat) : Except ε γ :=
  tasks.finish index (inOrder (tasks.parts index) (tasks.part index))

/-- A pool and the pools of its tasks. -/
structure Nest (ε β γ : Type) where
  /-- The pool that performs the tasks. -/
  outer : Pool ε γ
  /-- The pool that performs the parts of a task. -/
  inner : Nat → Pool ε β

namespace Nest

/-- The pools before a run, with so many workers. -/
def start (size : Nat) (innerSize : Nat → Nat) : Nest ε β γ :=
  ⟨WorkerPool.start size, fun index => WorkerPool.start (innerSize index)⟩

/-- The result of a task as its pool has left it. -/
def reported (tasks : Division ε β γ) (inner : Nat → Pool ε β) (index : Nat) : Except ε γ :=
  tasks.finish index (outcome (tasks.parts index) (records (inner index)))

/-- One worker acts. A worker of the outer pool that performs a task goes on when the pool of the
task has stopped; the pool of a task works only while the task is performed. -/
inductive Step (count : Nat) (tasks : Division ε β γ) : Nest ε β γ → Nest ε β γ → Prop where
  | outer (before after : List (Worker ε γ)) (inner : Nat → Pool ε β) {next next' : Nat}
      {failed failed' : Bool} {worker worker' : Worker ε γ} :
      (∀ index, worker.phase = .working index → Stopped (inner index)) →
      Action count (reported tasks inner) (next, failed, worker) (next', failed', worker') →
      Step count tasks ⟨⟨next, failed, before ++ worker :: after⟩, inner⟩
        ⟨⟨next', failed', before ++ worker' :: after⟩, inner⟩
  | inner (outer : Pool ε γ) (inner : Nat → Pool ε β) (worker : Worker ε γ) (index : Nat)
      {pool : Pool ε β} :
      worker ∈ outer.workers → worker.phase = .working index →
      WorkerPool.Step (tasks.parts index) (tasks.part index) (inner index) pool →
      Step count tasks ⟨outer, inner⟩ ⟨outer, Function.update inner index pool⟩

/-- Any number of steps, in any order of the workers of all pools. -/
abbrev Steps (count : Nat) (tasks : Division ε β γ) : Nest ε β γ → Nest ε β γ → Prop :=
  Relation.ReflTransGen (Step count tasks)

variable {count size : Nat} {innerSize : Nat → Nat} {tasks : Division ε β γ}

/-! ## The value of nested pools -/

/-- A worker acts alike on results that agree where it works. -/
theorem action_congr {result result' : Nat → Except ε γ} {next : Nat} {failed : Bool}
    {worker : Worker ε γ} {acted : Nat × Bool × Worker ε γ}
    (h : Action count result (next, failed, worker) acted)
    (hresult : ∀ index, worker.phase = .working index → result index = result' index) :
    Action count result' (next, failed, worker) acted := by
  cases h with
  | work _ _ index records =>
      rw [hresult index rfl]
      exact .work next failed index records
  | claim _ _ records hlt => exact .claim next failed records hlt
  | exhaust _ _ records hle => exact .exhaust next failed records hle
  | stop _ records => exact .stop next records
  | proceed _ records => exact .proceed next records
  | report _ _ index outcome records => exact .report next failed index outcome records
  | record _ _ index outcome records => exact .record next failed index outcome records

/-- What holds of nested pools throughout a run: each of them is where its own steps can lead, the
outer one as if every task had its result at once. -/
structure Separable (count size : Nat) (innerSize : Nat → Nat) (tasks : Division ε β γ)
    (nest : Nest ε β γ) : Prop where
  outer : WorkerPool.Steps count tasks.result (WorkerPool.start size) nest.outer
  inner : ∀ index, WorkerPool.Steps (tasks.parts index) (tasks.part index)
    (WorkerPool.start (innerSize index)) (nest.inner index)

/-- The pool of a task that has stopped reports the result of the task. -/
theorem Separable.reported_eq {nest : Nest ε β γ}
    (h : Separable count size innerSize tasks nest) (hsize : ∀ index, 0 < innerSize index)
    {index : Nat} (hstopped : Stopped (nest.inner index)) :
    reported tasks nest.inner index = tasks.result index :=
  congrArg (tasks.finish index)
    (WorkerPool.outcome_of_steps (hsize index) (h.inner index) hstopped)

/-- A step of one pool leaves every pool where its own steps can lead. -/
theorem Separable.step {nest nest' : Nest ε β γ} (h : Separable count size innerSize tasks nest)
    (hsize : ∀ index, 0 < innerSize index) (hstep : Step count tasks nest nest') :
    Separable count size innerSize tasks nest' := by
  cases hstep with
  | outer before after inner hfinished haction =>
      refine ⟨h.outer.tail (.act before after ?_), h.inner⟩
      -- only a worker that performs a task looks at results, and then its pool has stopped
      exact action_congr haction fun index hworking =>
        h.reported_eq hsize (hfinished index hworking)
  | inner outer inner worker index hworker hworking hinner =>
      refine ⟨h.outer, fun other => ?_⟩
      by_cases hother : other = index
      · subst hother
        simp only [Function.update_self]
        exact (h.inner other).tail hinner
      · simp only [Function.update_of_ne hother]
        exact h.inner other

/-- Every interleaving leaves every pool where its own steps can lead. -/
theorem separable_of_steps (hsize : ∀ index, 0 < innerSize index) {nest : Nest ε β γ}
    (hsteps : Steps count tasks (start size innerSize) nest) :
    Separable count size innerSize tasks nest := by
  induction hsteps with
  | refl => exact ⟨.refl, fun _ => .refl⟩
  | tail _ hstep ih => exact ih.step hsize hstep

/-- When the workers of the outer pool have stopped, its value is that of all parts of all tasks
done one after another, whatever the numbers of workers and the interleaving. -/
theorem outcome_of_steps (hpos : 0 < size) (hsize : ∀ index, 0 < innerSize index)
    {nest : Nest ε β γ} (hsteps : Steps count tasks (start size innerSize) nest)
    (hstopped : Stopped nest.outer) :
    outcome count (records nest.outer) = inOrder count tasks.result :=
  WorkerPool.outcome_of_steps hpos (separable_of_steps hsize hsteps).outer hstopped

/-! ## Termination -/

/-- The most actions that the pool of the task of a worker still takes. -/
def innerRemaining (tasks : Division ε β γ) (inner : Nat → Pool ε β) (worker : Worker ε γ) : Nat :=
  match worker.phase with
  | .working index => remaining (tasks.parts index) (inner index)
  | _ => 0

/-- What becomes less with every step: the actions left to the outer pool, and among as many the
actions left to the pools of the tasks that are performed. -/
def measure (count : Nat) (tasks : Division ε β γ) (nest : Nest ε β γ) : Nat ×ₗ Nat :=
  toLex (remaining count nest.outer, (nest.outer.workers.map (innerRemaining tasks nest.inner)).sum)

/-- A pool that acts leaves less to be done to those who wait for it and as much to the others. -/
theorem innerRemaining_update {inner : Nat → Pool ε β} {index : Nat} {pool : Pool ε β}
    (h : WorkerPool.Step (tasks.parts index) (tasks.part index) (inner index) pool)
    (worker : Worker ε γ) :
    innerRemaining tasks (Function.update inner index pool) worker ≤
        innerRemaining tasks inner worker ∧
      (worker.phase = .working index →
        innerRemaining tasks (Function.update inner index pool) worker <
          innerRemaining tasks inner worker) := by
  unfold innerRemaining
  cases hphase : worker.phase with
  | working other =>
      by_cases hother : other = index
      · subst hother
        have hlt := h.remaining_lt
        simp only [Function.update_self]
        exact ⟨hlt.le, fun _ => hlt⟩
      · simp only [Function.update_of_ne hother]
        refine ⟨le_rfl, fun hindex => absurd ?_ hother⟩
        exact Phase.working.inj hindex
  | ready | claiming | reporting | recording | stopped => exact ⟨le_rfl, nofun⟩

/-- Every step makes the measure less. -/
theorem Step.measure_lt {nest nest' : Nest ε β γ} (h : Step count tasks nest nest') :
    measure count tasks nest' < measure count tasks nest := by
  refine Prod.Lex.toLex_lt_toLex.mpr ?_
  -- the pool of a task may act any number of times before the outer pool acts once
  cases h with
  | outer before after inner _ haction =>
      exact .inl (WorkerPool.Step.act before after haction).remaining_lt
  | inner outer inner worker index hworker hworking hinner =>
      refine .inr ⟨rfl, List.sum_lt_sum _ _ ?_ ⟨worker, hworker, ?_⟩⟩
      · intro other _
        exact (innerRemaining_update hinner other).1
      · exact (innerRemaining_update hinner worker).2 hworking

/-- No interleaving goes on for ever. -/
theorem Step.wellFounded :
    WellFounded fun nest' nest : Nest ε β γ => Step count tasks nest nest' :=
  Subrelation.wf Step.measure_lt (InvImage.wf (measure count tasks) wellFounded_lt)

/-- As long as a worker of the outer pool has not stopped, some worker can act. -/
theorem exists_step {nest : Nest ε β γ} (h : ¬ Stopped nest.outer) :
    ∃ nest', Step count tasks nest nest' := by
  obtain ⟨⟨next, failed, workers⟩, inner⟩ := nest
  simp only [Stopped, not_forall] at h
  obtain ⟨worker, hworker, hphase⟩ := h
  by_cases hfinished : ∀ index, worker.phase = .working index → Stopped (inner index)
  · have hlive : worker.phase.isLive = true := isLive_of_ne_stopped hphase
    obtain ⟨before, after, rfl⟩ := List.append_of_mem hworker
    exact ⟨_, .outer before after inner hfinished (action_act next failed hlive)⟩
  · -- the worker waits for the pool of its task, which has not stopped
    simp only [not_forall] at hfinished
    obtain ⟨index, hworking, hinner⟩ := hfinished
    obtain ⟨pool, hstep⟩ := exists_step_of_not_stopped hinner
    exact ⟨_, .inner _ inner worker index hworker hworking hstep⟩

/-- Nested pools can always be run until the workers of the outer one have stopped. -/
theorem exists_stopped (count : Nat) (tasks : Division ε β γ) (nest : Nest ε β γ) :
    ∃ nest', Steps count tasks nest nest' ∧ Stopped nest'.outer := by
  have hwellFounded : WellFounded fun after before => Step count tasks before after :=
    Step.wellFounded
  -- by induction on what is left to be done: some worker can act as long as one has not stopped
  induction nest using hwellFounded.induction with
  | _ nest ih =>
      by_cases hstopped : Stopped nest.outer
      · exact ⟨nest, .refl, hstopped⟩
      · obtain ⟨next, hstep⟩ := exists_step hstopped
        obtain ⟨last, hsteps, hlast⟩ := ih next hstep
        exact ⟨last, .head hstep hsteps, hlast⟩

end Nest

end SingingVoice.WorkerPool
