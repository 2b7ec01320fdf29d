import Mathlib
import SingingVoice.Proofs.Determinism
import SingingVoice.WorkerPool

/-!
# Interleavings of a worker pool

The actions of a pool as a relation. `Action` is one atomic action of one worker, `Step` lets any
worker of the pool that has not stopped act, and a run is a sequence of steps in any order. Tasks
are known by their results. `step_iff` says that the relation allows exactly the steps of the
running pool, and `run_complete` that the running pool follows it until all workers have stopped,
whatever the schedule.
-/

namespace SingingVoice.WorkerPool

variable {ε β : Type} {count : Nat} {result : Nat → Except ε β}

/-- One atomic action of a worker, with the counter, the flag and the worker before and after. -/
inductive Action (count : Nat) (result : Nat → Except ε β) :
    Nat × Bool × Worker ε β → Nat × Bool × Worker ε β → Prop where
  | stop (next records) :
      Action count result (next, true, ⟨.ready, records⟩) (next, true, ⟨.stopped, records⟩)
  | proceed (next records) :
      Action count result (next, false, ⟨.ready, records⟩) (next, false, ⟨.claiming, records⟩)
  | claim (next failed records) : next < count →
      Action count result (next, failed, ⟨.claiming, records⟩)
        (next + 1, failed, ⟨.working next, records⟩)
  | exhaust (next failed records) : count ≤ next →
      Action count result (next, failed, ⟨.claiming, records⟩)
        (next + 1, failed, ⟨.stopped, records⟩)
  | work (next failed index records) :
      Action count result (next, failed, ⟨.working index, records⟩)
        (next, failed, ⟨.reporting index (result index), records⟩)
  | report (next failed index outcome records) :
      Action count result (next, failed, ⟨.reporting index outcome, records⟩)
        (next, failed || isError outcome, ⟨.recording index outcome, records⟩)
  | record (next failed index outcome records) :
      Action count result (next, failed, ⟨.recording index outcome, records⟩)
        (next, failed, ⟨.ready, (index, outcome) :: records⟩)

/-- One worker of a pool acts. -/
inductive Step (count : Nat) (result : Nat → Except ε β) : Pool ε β → Pool ε β → Prop where
  | act (before after : List (Worker ε β)) {next next' : Nat} {failed failed' : Bool}
      {worker worker' : Worker ε β} :
      Action count result (next, failed, worker) (next', failed', worker') →
      Step count result ⟨next, failed, before ++ worker :: after⟩
        ⟨next', failed', before ++ worker' :: after⟩

/-- Any number of steps, in any order of the workers. -/
abbrev Steps (count : Nat) (result : Nat → Except ε β) : Pool ε β → Pool ε β → Prop :=
  Relation.ReflTransGen (Step count result)

/-- A step changes no worker but the one that acts. -/
theorem Step.length_workers {pool pool' : Pool ε β} (h : Step count result pool pool') :
    pool'.workers.length = pool.workers.length := by
  cases h with
  | act before after haction => simp

/-- Workers neither join nor leave a pool. -/
theorem length_workers_of_steps {pool pool' : Pool ε β} (h : Steps count result pool pool') :
    pool'.workers.length = pool.workers.length := by
  induction h with
  | refl => rfl
  | tail _ hstep ih => exact hstep.length_workers.trans ih

/-- No worker acts again. -/
def Stopped (pool : Pool ε β) : Prop :=
  ∀ worker ∈ pool.workers, worker.phase = .stopped

/-! ## The running pool -/

/-- Tasks without effects that have these results. -/
def known (result : Nat → Except ε β) (index : Nat) : ExceptT ε Id β :=
  ExceptT.mk (result index)

/-- A worker that has not stopped acts as the relation says. -/
theorem action_act (next : Nat) (failed : Bool) {worker : Worker ε β}
    (hlive : worker.phase.isLive = true) :
    Action count result (next, failed, worker) (act count (known result) next failed worker) := by
  obtain ⟨phase, records⟩ := worker
  cases phase with
  | ready =>
      cases failed with
      | true => exact .stop next records
      | false => exact .proceed next records
  | claiming =>
      by_cases h : next < count
      · simp only [act, h, ↓reduceIte]
        exact .claim next failed records h
      · simp only [act, h, ↓reduceIte]
        exact .exhaust next failed records (Nat.not_lt.mp h)
  | working index => exact .work next failed index records
  | reporting index outcome => exact .report next failed index outcome records
  | recording index outcome => exact .record next failed index outcome records
  | stopped => cases hlive

/-- Every action of the relation is that of a worker that has not stopped. -/
theorem Action.eq_act {next : Nat} {failed : Bool} {worker : Worker ε β}
    {after : Nat × Bool × Worker ε β} (h : Action count result (next, failed, worker) after) :
    worker.phase.isLive = true ∧ act count (known result) next failed worker = after := by
  cases h with
  | claim _ _ _ hlt => exact ⟨rfl, by simp only [act, hlt, ↓reduceIte]; rfl⟩
  | exhaust _ _ _ hle => exact ⟨rfl, by simp only [act, Nat.not_lt.mpr hle, ↓reduceIte]; rfl⟩
  | stop | proceed | work | report | record => exact ⟨rfl, rfl⟩

/-- The workers that act again are those that have not stopped. -/
theorem mem_live_iff {pool : Pool ε β} {number : Nat} :
    number ∈ live pool ↔
      ∃ worker, pool.workers[number]? = some worker ∧ worker.phase.isLive = true := by
  unfold live
  rw [List.mem_filter, List.mem_range]
  constructor
  · rintro ⟨hlt, hlive⟩
    rw [List.getElem?_eq_getElem hlt] at hlive ⊢
    exact ⟨_, rfl, hlive⟩
  · rintro ⟨worker, hworker, hlive⟩
    refine ⟨(List.getElem?_eq_some_iff.mp hworker).1, ?_⟩
    rw [hworker]
    exact hlive

/-- A pool in which no worker acts again has stopped. -/
theorem stopped_of_live_eq_nil {pool : Pool ε β} (h : live pool = []) : Stopped pool := by
  intro worker hworker
  obtain ⟨number, hnumber⟩ := List.mem_iff_getElem?.mp hworker
  cases hphase : worker.phase with
  | stopped => rfl
  | ready | claiming | working | reporting | recording =>
      have hmem : number ∈ live pool := mem_live_iff.mpr ⟨worker, hnumber, by rw [hphase]; rfl⟩
      rw [h] at hmem
      exact absurd hmem List.not_mem_nil

/-- Replacing the worker with a number leaves those before and after it. -/
theorem exists_split_of_getElem? {workers : List (Worker ε β)} {number : Nat}
    {worker : Worker ε β} (h : workers[number]? = some worker) (worker' : Worker ε β) :
    ∃ before after, workers = before ++ worker :: after ∧
      workers.set number worker' = before ++ worker' :: after := by
  obtain ⟨hlt, rfl⟩ := List.getElem?_eq_some_iff.mp h
  obtain ⟨before, after, hworkers, -, hset⟩ :
      ∃ before after, workers = before ++ workers[number] :: after ∧
        before.length = number ∧ workers.set number worker' = before ++ worker' :: after :=
    List.exists_of_set hlt
  exact ⟨before, after, hworkers, hset⟩

/-- The steps of the relation are those of the running pool, where any worker that has not stopped
may act next. -/
theorem step_iff {pool pool' : Pool ε β} :
    Step count result pool pool' ↔
      ∃ number ∈ live pool, step count (known result) pool number = pool' := by
  constructor
  · intro h
    cases h with
    | act before after haction =>
        obtain ⟨hlive, hact⟩ := haction.eq_act
        refine ⟨before.length, mem_live_iff.mpr ⟨_, by simp, hlive⟩, ?_⟩
        simp only [step, List.getElem?_append_right (Nat.le_refl _), Nat.sub_self,
          List.getElem?_cons_zero, hact]
        simp [bind, pure]
  · rintro ⟨number, hnumber, rfl⟩
    obtain ⟨worker, hworker, hlive⟩ := mem_live_iff.mp hnumber
    have haction : Action count result (pool.next, pool.failed, worker)
        (act count (known result) pool.next pool.failed worker) := action_act _ _ hlive
    generalize hact : act count (known result) pool.next pool.failed worker = acted at haction
    obtain ⟨next', failed', worker'⟩ := acted
    obtain ⟨before, after, hworkers, hset⟩ := exists_split_of_getElem? hworker worker'
    have hstep := Step.act before after haction
    rw [← hworkers, ← hset] at hstep
    simp only [step, hworker, hact]
    exact hstep

/-! ## Termination -/

/-- The most actions that a worker takes before it asks for another index or stops. -/
def Phase.remaining : Phase ε β → Nat
  | ready => 2
  | claiming => 1
  | working _ => 5
  | reporting .. => 4
  | recording .. => 3
  | stopped => 0

/-- The most actions that a pool still takes: five for each index that has not been handed out, and
those that its workers have begun. -/
def remaining (count : Nat) (pool : Pool ε β) : Nat :=
  5 * (count - pool.next) + (pool.workers.map (·.phase.remaining)).sum

/-- Every step leaves fewer actions to be taken, so no interleaving goes on for ever. -/
theorem Step.remaining_lt {pool pool' : Pool ε β} (h : Step count result pool pool') :
    remaining count pool' < remaining count pool := by
  cases h with
  | act before after haction =>
      simp only [remaining, List.map_append, List.map_cons, List.sum_append, List.sum_cons]
      cases haction <;> simp only [Phase.remaining] <;> omega

/-- A pool before a run takes at most the actions that are allowed for. -/
theorem remaining_start (size : Nat) :
    remaining count (start size : Pool ε β) = maxSteps count size := by
  simp [remaining, start, maxSteps, Phase.remaining, Nat.mul_comm]

/-- A pool that takes no more actions has stopped. -/
theorem stopped_of_remaining_eq_zero {pool : Pool ε β} (h : remaining count pool = 0) :
    Stopped pool := by
  intro worker hworker
  have hsum : (pool.workers.map (·.phase.remaining)).sum = 0 := by
    unfold remaining at h
    omega
  have hzero : worker.phase.remaining = 0 :=
    List.sum_eq_zero_iff_forall_eq_nat.mp hsum _ (List.mem_map_of_mem hworker)
  cases hphase : worker.phase with
  | stopped => rfl
  | ready | claiming | working | reporting | recording =>
      rw [hphase] at hzero
      cases hzero

/-- A running pool follows the relation until all workers have stopped, whatever the schedule. -/
theorem run_complete (schedule : Schedule) (fuel : Nat) (pool : Pool ε β)
    (hfuel : remaining count pool ≤ fuel) :
    Steps count result pool (run (m := Id) count (known result) schedule fuel pool) ∧
      Stopped (run (m := Id) count (known result) schedule fuel pool) := by
  induction fuel generalizing pool with
  | zero => exact ⟨.refl, stopped_of_remaining_eq_zero (Nat.le_zero.mp hfuel)⟩
  | succ fuel ih =>
      cases hlive : live pool with
      | nil =>
          simp only [run, hlive]
          exact ⟨.refl, stopped_of_live_eq_nil hlive⟩
      | cons number rest =>
          simp only [run, hlive]
          generalize hpicked : (number :: rest).getD
            (schedule fuel % (number :: rest).length) number = picked
          have hmem : picked ∈ live pool := by
            have hlt : schedule fuel % (number :: rest).length < (number :: rest).length :=
              Nat.mod_lt _ (Nat.succ_pos _)
            rw [hlive, ← hpicked, List.getD_eq_getElem?_getD, List.getElem?_eq_getElem hlt]
            exact List.getElem_mem hlt
          have hstep : Step count result pool (step (m := Id) count (known result) pool picked) :=
            step_iff.mpr ⟨picked, hmem, rfl⟩
          have hlt := hstep.remaining_lt
          obtain ⟨hsteps, hstopped⟩ :=
            ih (step (m := Id) count (known result) pool picked) (by omega)
          exact ⟨.head hstep hsteps, hstopped⟩

/-! ## Effects of tasks -/

variable {m : Type → Type} [Monad m] {task : Nat → ExceptT ε m β} (results : Results m)
  (htask : ∀ index, results.Has (task index).run (result index))

include htask

/-- If the results of the tasks are known, so is that of the action of a worker. -/
theorem has_act (next : Nat) (failed : Bool) (worker : Worker ε β) :
    results.Has (act count task next failed worker)
      (act (m := Id) count (known result) next failed worker) := by
  obtain ⟨phase, records⟩ := worker
  cases phase with
  | working index => exact results.bind (htask index) (results.of_pure _)
  | ready | claiming | reporting | recording | stopped => exact results.of_pure _

/-- If the results of the tasks are known, so is that of a step of the pool. -/
theorem has_step (pool : Pool ε β) (number : Nat) :
    results.Has (step count task pool number)
      (step (m := Id) count (known result) pool number) := by
  unfold step
  cases pool.workers[number]? with
  | none => exact results.of_pure pool
  | some worker =>
      exact results.bind (has_act results htask pool.next pool.failed worker) (results.of_pure _)

/-- If the results of the tasks are known, so is the end of a run. -/
theorem has_run (schedule : Schedule) (fuel : Nat) (pool : Pool ε β) :
    results.Has (run count task schedule fuel pool)
      (run (m := Id) count (known result) schedule fuel pool) := by
  induction fuel generalizing pool with
  | zero => exact results.of_pure pool
  | succ fuel ih =>
      unfold run
      cases live pool with
      | nil => exact results.of_pure pool
      | cons number rest => exact results.bind (has_step results htask pool _) (ih _)

end SingingVoice.WorkerPool
