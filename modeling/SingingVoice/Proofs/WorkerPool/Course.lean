import Mathlib
import SingingVoice.Proofs.WorkerPool.Ledger

/-!
# The course of a worker pool

What the workers of a pool do with the indices, event by event. `Acts` is a step of the pool with
the number of the worker that acts and the event that this is, and `Traced` is a run with the list
of its events. Indices are claimed in their order, by one worker each, which performs the task once
and records it once (`Traced.accounted`); and once the flag is raised, every other worker claims at
most one more index, and performs at most one more task (`Traced.slack`).
-/

namespace SingingVoice.WorkerPool

variable {ε β : Type} {count : Nat} {result : Nat → Except ε β}

/-! ## Events -/

/-- What a worker does with an index, in this order. -/
inductive Deed where
  /-- It takes the index from the counter. -/
  | claim
  /-- It performs the task of the index. -/
  | perform
  /-- It records the result of the task. -/
  | record
deriving DecidableEq

/-- A worker does something with an index. -/
structure Event where
  deed : Deed
  /-- The number of the worker. -/
  worker : Nat
  index : Nat
deriving DecidableEq

/-- The indices of the events of one kind. -/
def indicesOf (deed : Deed) (trace : List Event) : List Nat :=
  (trace.filter (·.deed = deed)).map Event.index

/-- The workers of the events of one kind. -/
def workersOf (deed : Deed) (trace : List Event) : List Nat :=
  (trace.filter (·.deed = deed)).map Event.worker

@[simp] theorem indicesOf_append (deed : Deed) (trace events : List Event) :
    indicesOf deed (trace ++ events) = indicesOf deed trace ++ indicesOf deed events := by
  simp [indicesOf]

@[simp] theorem workersOf_append (deed : Deed) (trace events : List Event) :
    workersOf deed (trace ++ events) = workersOf deed trace ++ workersOf deed events := by
  simp [workersOf]

/-- An index has an event of a kind if one of the workers has done so. -/
theorem mem_indicesOf_iff {deed : Deed} {trace : List Event} {index : Nat} :
    index ∈ indicesOf deed trace ↔ ∃ number, ⟨deed, number, index⟩ ∈ trace := by
  simp only [indicesOf, List.mem_map, List.mem_filter, decide_eq_true_eq]
  constructor
  · rintro ⟨event, ⟨hevent, rfl⟩, rfl⟩
    exact ⟨event.worker, hevent⟩
  · rintro ⟨number, hevent⟩
    exact ⟨_, ⟨hevent, rfl⟩, rfl⟩

/-- A worker has an event of a kind if it has done so with some index. -/
theorem mem_workersOf_iff {deed : Deed} {trace : List Event} {number : Nat} :
    number ∈ workersOf deed trace ↔ ∃ index, ⟨deed, number, index⟩ ∈ trace := by
  simp only [workersOf, List.mem_map, List.mem_filter, decide_eq_true_eq]
  constructor
  · rintro ⟨event, ⟨hevent, rfl⟩, rfl⟩
    exact ⟨event.index, hevent⟩
  · rintro ⟨index, hevent⟩
    exact ⟨_, ⟨hevent, rfl⟩, rfl⟩

/-! ## Runs with their events -/

/-- The event that the next action of a worker is, if it does something with an index. -/
def Worker.event? (count next number : Nat) (worker : Worker ε β) : Option Event :=
  match worker.phase with
  | .claiming => if next < count then some ⟨.claim, number, next⟩ else none
  | .working index => some ⟨.perform, number, index⟩
  | .recording index _ => some ⟨.record, number, index⟩
  | .ready | .reporting .. | .stopped => none

/-- The event of an action is one of the worker that acts. -/
theorem worker_of_mem_event? {next number : Nat} {worker : Worker ε β} {event : Event}
    (h : event ∈ (worker.event? count next number).toList) : event.worker = number := by
  rw [Option.mem_toList] at h
  unfold Worker.event? at h
  split at h
  · split at h <;> cases h
    rfl
  · cases h
    rfl
  · cases h
    rfl
  · cases h
  · cases h
  · cases h

/-- An action is an event with an index if it is one of the worker that acts. -/
theorem mem_event?_iff {next number : Nat} {worker : Worker ε β} {event : Event} :
    event ∈ (worker.event? count next number).toList ↔ event.worker = number ∧
      event.index ∈ indicesOf event.deed (worker.event? count next number).toList := by
  rw [mem_indicesOf_iff]
  constructor
  · exact fun h => ⟨worker_of_mem_event? h, event.worker, h⟩
  · rintro ⟨rfl, actor, h⟩
    have hactor : actor = event.worker := worker_of_mem_event? h
    rwa [hactor] at h

/-- The worker with a number acts, and what it does are the events. -/
inductive Acts (count : Nat) (result : Nat → Except ε β) (number : Nat) :
    Pool ε β → List Event → Pool ε β → Prop where
  | act {pool : Pool ε β} {next' : Nat} {failed' : Bool} {worker worker' : Worker ε β} :
      pool.workers[number]? = some worker →
      Action count result (pool.next, pool.failed, worker) (next', failed', worker') →
      Acts count result number pool (worker.event? count pool.next number).toList
        ⟨next', failed', pool.workers.set number worker'⟩

/-- Any number of steps, in any order of the workers, with their events in this order. -/
inductive Traced (count : Nat) (result : Nat → Except ε β) (pool : Pool ε β) :
    List Event → Pool ε β → Prop where
  | refl : Traced count result pool [] pool
  | tail {trace events : List Event} {mid pool' : Pool ε β} {number : Nat} :
      Traced count result pool trace mid → Acts count result number mid events pool' →
      Traced count result pool (trace ++ events) pool'

/-- An action changes one worker of the pool, and no other. -/
theorem Acts.split {number : Nat} {events : List Event} {pool pool' : Pool ε β}
    (h : Acts count result number pool events pool') :
    ∃ before after worker worker', pool.workers = before ++ worker :: after ∧
      pool'.workers = before ++ worker' :: after ∧
      events = (worker.event? count pool.next number).toList ∧
      Action count result (pool.next, pool.failed, worker) (pool'.next, pool'.failed, worker') := by
  cases h with
  | @act next' failed' worker worker' hworker haction =>
      obtain ⟨before, after, hworkers, hset⟩ := exists_split_of_getElem? hworker worker'
      exact ⟨before, after, _, worker', hworkers, hset, rfl, haction⟩

/-- The steps of a pool are the actions of its workers. -/
theorem step_iff_exists_acts {pool pool' : Pool ε β} :
    Step count result pool pool' ↔ ∃ number events, Acts count result number pool events pool' := by
  constructor
  · intro h
    cases h with
    | @act before after next next' failed failed' worker worker' haction =>
        have hworker : (before ++ worker :: after)[before.length]? = some worker := by simp
        have hset : (before ++ worker :: after).set before.length worker' =
            before ++ worker' :: after := by simp
        have hacts :
            Acts count result before.length ⟨next, failed, before ++ worker :: after⟩ _ _ :=
          .act hworker haction
        rw [hset] at hacts
        exact ⟨_, _, hacts⟩
  · rintro ⟨number, events, h⟩
    obtain ⟨next, failed, workers⟩ := pool
    obtain ⟨next', failed', workers'⟩ := pool'
    obtain ⟨before, after, worker, worker', rfl, rfl, -, haction⟩ := h.split
    exact .act before after haction

/-- Every run has its events. -/
theorem steps_iff_exists_traced {pool pool' : Pool ε β} :
    Steps count result pool pool' ↔ ∃ trace, Traced count result pool trace pool' := by
  constructor
  · intro h
    induction h with
    | refl => exact ⟨[], .refl⟩
    | tail _ hstep ih =>
        obtain ⟨trace, htraced⟩ := ih
        obtain ⟨number, events, hacts⟩ := step_iff_exists_acts.mp hstep
        exact ⟨_, htraced.tail hacts⟩
  · rintro ⟨trace, h⟩
    induction h with
    | refl => exact .refl
    | tail _ hacts ih => exact ih.tail (step_iff_exists_acts.mpr ⟨_, _, hacts⟩)

/-- A worker that has not stopped acts as in the running pool. -/
theorem acts_step (count : Nat) (result : Nat → Except ε β) (pool : Pool ε β) (number : Nat)
    {worker : Worker ε β} (hworker : pool.workers[number]? = some worker)
    (hlive : worker.phase.isLive = true) :
    Acts count result number pool (worker.event? count pool.next number).toList
      (step (m := Id) count (known result) pool number) := by
  have haction : Action count result (pool.next, pool.failed, worker)
      (act count (known result) pool.next pool.failed worker) := action_act _ _ hlive
  generalize hact : act count (known result) pool.next pool.failed worker = acted at haction
  obtain ⟨next', failed', worker'⟩ := acted
  simp only [step, hworker, hact]
  exact .act hworker haction

/-- A run goes on as the running pool does when a worker acts that has not stopped. -/
theorem Traced.step {trace : List Event} {pool pool' : Pool ε β}
    (h : Traced count result pool trace pool') (number : Nat) {worker : Worker ε β}
    (hworker : pool'.workers[number]? = some worker) (hlive : worker.phase.isLive = true) :
    Traced count result pool (trace ++ (worker.event? count pool'.next number).toList)
      (WorkerPool.step (m := Id) count (known result) pool' number) :=
  h.tail (acts_step count result pool' number hworker hlive)

/-- The running pool has a course that ends when all its workers have stopped, whatever the
schedule. -/
theorem exists_traced_run (schedule : Schedule) (size : Nat) :
    ∃ trace, Traced count result (start size) trace
        (run (m := Id) count (known result) schedule (maxSteps count size) (start size)) ∧
      Stopped (run (m := Id) count (known result) schedule (maxSteps count size) (start size)) := by
  obtain ⟨hsteps, hstopped⟩ :=
    run_complete schedule (maxSteps count size) (start size) (remaining_start size).le
  obtain ⟨trace, htraced⟩ := steps_iff_exists_traced.mp hsteps
  exact ⟨trace, htraced, hstopped⟩

/-! ## What has been done with each index -/

/-- The index that a worker has in its hands, if it has done so much with it. -/
def Phase.done? : Deed → Phase ε β → Option Nat
  | .claim, working index | .claim, reporting index _ | .claim, recording index _ => some index
  | .perform, reporting index _ | .perform, recording index _ => some index
  | _, _ => none

/-- All indices that a worker has done so much with, the latest first. -/
def Worker.done (deed : Deed) (worker : Worker ε β) : List Nat :=
  (worker.phase.done? deed).toList ++ worker.records.map Prod.fst

/-- All indices that the workers of a pool have done so much with. -/
def handled (deed : Deed) (pool : Pool ε β) : List Nat :=
  pool.workers.flatMap (Worker.done deed)

/-- An action adds what it does. -/
theorem Action.done_eq {next next' : Nat} {failed failed' : Bool} {worker worker' : Worker ε β}
    (h : Action count result (next, failed, worker) (next', failed', worker')) (number : Nat)
    (deed : Deed) :
    worker'.done deed =
      indicesOf deed (worker.event? count next number).toList ++ worker.done deed := by
  cases h with
  | claim _ _ _ hlt => cases deed <;> simp [Worker.done, Phase.done?, Worker.event?, indicesOf, hlt]
  | exhaust _ _ _ hle =>
      cases deed <;> simp [Worker.done, Phase.done?, Worker.event?, indicesOf, Nat.not_lt.mpr hle]
  | stop | proceed | work | report | record =>
      cases deed <;> simp [Worker.done, Phase.done?, Worker.event?, indicesOf]

/-- An action claims the next index, if it claims one. -/
theorem Action.claims {next next' : Nat} {failed failed' : Bool} {worker worker' : Worker ε β}
    (h : Action count result (next, failed, worker) (next', failed', worker')) (number : Nat) :
    List.range (min next count) ++ indicesOf .claim (worker.event? count next number).toList =
      List.range (min next' count) := by
  cases h with
  | claim _ _ _ hlt =>
      have hnew : min (next + 1) count = next + 1 := by omega
      rw [hnew, List.range_succ, Nat.min_eq_left (Nat.le_of_lt hlt)]
      simp [Worker.event?, indicesOf, hlt]
  | exhaust _ _ _ hle =>
      have hsame : min (next + 1) count = min next count := by omega
      rw [hsame]
      simp [Worker.event?, indicesOf, Nat.not_lt.mpr hle]
  | stop | proceed | work | report | record => simp [Worker.event?, indicesOf]

/-- What the workers have done with the indices grows by the events of an action. -/
theorem Acts.handled_perm {number : Nat} {events : List Event} {pool pool' : Pool ε β}
    (h : Acts count result number pool events pool') (deed : Deed) :
    (indicesOf deed events ++ handled deed pool).Perm (handled deed pool') := by
  obtain ⟨before, after, worker, worker', hworkers, hworkers', rfl, haction⟩ := h.split
  simp only [handled, hworkers, hworkers', List.flatMap_append, List.flatMap_cons,
    haction.done_eq number deed, List.append_assoc]
  exact List.perm_append_comm_assoc _ _ _

section Traced

variable {size : Nat} {trace : List Event} {pool : Pool ε β}

/-- A run from the start is one that the books are kept of. -/
theorem Traced.ledger (h : Traced count result (start size) trace pool) :
    Ledger count result pool :=
  (Ledger.initial size).steps (steps_iff_exists_traced.mpr ⟨trace, h⟩)

/-- Workers neither join nor leave in a run. -/
theorem Traced.length_workers {pool' : Pool ε β} (h : Traced count result pool trace pool') :
    pool'.workers.length = pool.workers.length :=
  length_workers_of_steps (steps_iff_exists_traced.mpr ⟨trace, h⟩)

/-- The indices that have been handed out are the first ones, in their order. -/
theorem Traced.claims (h : Traced count result (start size) trace pool) :
    indicesOf .claim trace = List.range (min pool.next count) := by
  induction h with
  | refl => simp [indicesOf, start]
  | @tail trace events mid pool' number _ hacts ih =>
      obtain ⟨before, after, worker, worker', -, -, rfl, haction⟩ := hacts.split
      rw [indicesOf_append, ih]
      exact haction.claims number

/-- The events of a run are what the workers have done with the indices. -/
theorem Traced.handled_perm (h : Traced count result (start size) trace pool) (deed : Deed) :
    (indicesOf deed trace).Perm (handled deed pool) := by
  induction h with
  | refl =>
      have hnone : handled deed (start size : Pool ε β) = [] := by
        cases deed <;> simp [handled, start, Worker.done, Phase.done?]
      rw [hnone]
      exact .refl _
  | tail _ hacts ih =>
      rw [indicesOf_append]
      exact (List.perm_append_comm.trans (ih.append_left _)).trans (hacts.handled_perm deed)

/-- A worker has an event with an index exactly if it has done so much with the index. -/
theorem Traced.mem_iff (h : Traced count result (start size) trace pool) {event : Event} :
    event ∈ trace ↔ ∃ worker,
      pool.workers[event.worker]? = some worker ∧ event.index ∈ worker.done event.deed := by
  induction h with
  | refl =>
      refine iff_of_false List.not_mem_nil ?_
      rintro ⟨worker, hworker, hindex⟩
      obtain rfl := List.eq_of_mem_replicate (List.mem_of_getElem? hworker)
      cases hdeed : event.deed <;> rw [hdeed] at hindex <;> cases hindex
  | @tail trace events mid pool' actor _ hacts ih =>
      rw [List.mem_append, ih]
      cases hacts with
      | @act next' failed' worker worker' hworker haction =>
          rw [mem_event?_iff]
          by_cases hactor : event.worker = actor
          · subst hactor
            have hlt := (List.getElem?_eq_some_iff.mp hworker).1
            simp only [List.getElem?_set_self hlt, hworker, Option.some.injEq, exists_eq_left',
              haction.done_eq event.worker event.deed, List.mem_append, true_and]
            exact or_comm
          · simp only [List.getElem?_set_ne (Ne.symm hactor), hactor, false_and, or_false]

/-- What a worker has recorded it has performed, and what it has performed it has claimed. -/
theorem Worker.sublist_done (deed : Deed) (worker : Worker ε β) :
    (worker.done deed).Sublist (worker.done .claim) := by
  refine List.Sublist.append_right ?_ _
  cases deed <;> cases worker.phase <;> simp [Phase.done?]

/-- Nothing is done twice with an index. -/
theorem Traced.nodup (h : Traced count result (start size) trace pool) (deed : Deed) :
    (indicesOf deed trace).Nodup := by
  have hclaims : (handled .claim pool).Nodup := by
    rw [← (h.handled_perm .claim).nodup_iff, h.claims]
    exact List.nodup_range
  have hsublist : (handled deed pool).Sublist (handled .claim pool) :=
    .flatMap_right _ fun worker _ => worker.sublist_done deed
  exact (h.handled_perm deed).nodup_iff.mpr (hclaims.sublist hsublist)

end Traced

/-! ## What still happens after a failure -/

/-- How often a worker that has taken its index, or is about to, still does something with it. -/
def Phase.ahead : Deed → Phase ε β → Nat
  | .claim, claiming | .perform, claiming | .perform, working _ => 1
  | .record, claiming | .record, working _ | .record, reporting .. | .record, recording .. => 1
  | _, _ => 0

/-- How often the worker with a number still does something with its index. -/
def ahead (deed : Deed) (pool : Pool ε β) (number : Nat) : Nat :=
  pool.workers[number]?.elim 0 (·.phase.ahead deed)

theorem Phase.ahead_le_one (deed : Deed) (phase : Phase ε β) : phase.ahead deed ≤ 1 := by
  unfold Phase.ahead
  split <;> decide

theorem ahead_le_one (deed : Deed) (pool : Pool ε β) (number : Nat) :
    ahead deed pool number ≤ 1 := by
  unfold ahead
  cases pool.workers[number]? with
  | none => exact Nat.zero_le 1
  | some worker => exact worker.phase.ahead_le_one deed

/-- When the flag is raised, a worker does only what is still ahead of it. -/
theorem Action.ahead_le {next next' : Nat} {failed' : Bool} {worker worker' : Worker ε β}
    (h : Action count result (next, true, worker) (next', failed', worker')) (number : Nat)
    (deed : Deed) :
    (workersOf deed (worker.event? count next number).toList).count number +
      worker'.phase.ahead deed ≤ worker.phase.ahead deed := by
  cases h with
  | claim _ _ _ hlt => cases deed <;> simp [Phase.ahead, Worker.event?, workersOf, hlt]
  | exhaust _ _ _ hle =>
      cases deed <;> simp [Phase.ahead, Worker.event?, workersOf, Nat.not_lt.mpr hle]
  | stop | work | report | record =>
      cases deed <;> simp [Phase.ahead, Worker.event?, workersOf]

/-- When the flag is raised, each worker does only what is still ahead of it. -/
theorem Acts.ahead_le {actor : Nat} {events : List Event} {pool pool' : Pool ε β}
    (h : Acts count result actor pool events pool') (hfailed : pool.failed = true) (deed : Deed)
    (number : Nat) :
    (workersOf deed events).count number + ahead deed pool' number ≤ ahead deed pool number := by
  cases h with
  | @act next' failed' worker worker' hworker haction =>
      rw [hfailed] at haction
      by_cases hnumber : number = actor
      · subst hnumber
        have hlt := (List.getElem?_eq_some_iff.mp hworker).1
        simp only [ahead, hworker, List.getElem?_set_self hlt, Option.elim_some]
        exact haction.ahead_le number deed
      · have hnone : (workersOf deed (worker.event? count pool.next actor).toList).count number =
            0 := by
          refine List.count_eq_zero.mpr fun hmem => hnumber ?_
          obtain ⟨index, hevent⟩ := mem_workersOf_iff.mp hmem
          exact worker_of_mem_event? hevent
        rw [hnone, Nat.zero_add]
        simp only [ahead, List.getElem?_set_ne (Ne.symm hnumber), le_refl]

/-- The flag stays raised. -/
theorem Traced.failed {trace : List Event} {pool pool' : Pool ε β}
    (h : Traced count result pool trace pool') (hfailed : pool.failed = true) :
    pool'.failed = true := by
  induction h with
  | refl => exact hfailed
  | tail _ hacts ih =>
      obtain ⟨_, _, _, _, -, -, -, haction⟩ := hacts.split
      exact haction.mono.2 ih

/-- From when the flag is raised each worker does in all only what was still ahead of it. -/
theorem Traced.ahead_le {trace : List Event} {pool pool' : Pool ε β}
    (h : Traced count result pool trace pool') (hfailed : pool.failed = true) (deed : Deed)
    (number : Nat) :
    (workersOf deed trace).count number + ahead deed pool' number ≤ ahead deed pool number := by
  induction h with
  | refl => simp [workersOf]
  | @tail trace events mid pool' actor hmid hacts ih =>
      have hstep := hacts.ahead_le (hmid.failed hfailed) deed number
      rw [workersOf_append, List.count_append]
      omega

/-- The worker that raises the flag goes on to record its index and claims no other. -/
theorem Acts.ahead_of_raise {number : Nat} {events : List Event} {pool pool' : Pool ε β}
    (h : Acts count result number pool events pool') (hbefore : pool.failed = false)
    (hafter : pool'.failed = true) {deed : Deed} (hdeed : deed ≠ .record) :
    ahead deed pool' number = 0 := by
  cases h with
  | @act next' failed' worker worker' hworker haction =>
      have hlt := (List.getElem?_eq_some_iff.mp hworker).1
      simp only [ahead, List.getElem?_set_self hlt, Option.elim_some]
      rw [hbefore] at haction
      cases haction with
      | report _ _ index outcome records => cases deed <;> simp [Phase.ahead] at hdeed ⊢
      | proceed | claim | exhaust | work | record => cases hafter

/-- Which workers still do something when one of a pool of `size` workers has raised the flag: each
of the others at most once. -/
structure Slack (size raiser : Nat) (workers : List Nat) : Prop where
  once : workers.Nodup
  others : raiser ∉ workers
  bound : workers.length ≤ size - 1

/-- After a worker has raised the flag, every other worker claims at most one more index and
performs at most one more task. -/
theorem Traced.slack {number : Nat} {events trace : List Event} {pool raised pool' : Pool ε β}
    (hraise : Acts count result number pool events raised) (hbefore : pool.failed = false)
    (hafter : raised.failed = true) (h : Traced count result raised trace pool') (deed : Deed)
    (hdeed : deed ≠ .record) : Slack pool.workers.length number (workersOf deed trace) := by
  have hsize : raised.workers.length = pool.workers.length :=
    (step_iff_exists_acts.mpr ⟨_, _, hraise⟩).length_workers
  have hcount : ∀ other, (workersOf deed trace).count other ≤ ahead deed raised other :=
    fun other => Nat.le_of_add_right_le (h.ahead_le hafter deed other)
  have honce : (workersOf deed trace).Nodup := List.nodup_iff_count_le_one.mpr fun other =>
    (hcount other).trans (ahead_le_one deed raised other)
  have hothers : number ∉ workersOf deed trace :=
    List.count_eq_zero.mp
      (Nat.le_zero.mp ((hcount number).trans_eq (hraise.ahead_of_raise hbefore hafter hdeed)))
  have hlt : number < pool.workers.length := by
    cases hraise with
    | act hworker _ => exact (List.getElem?_eq_some_iff.mp hworker).1
  refine ⟨honce, hothers, ?_⟩
  have hsubset : workersOf deed trace ⊆ (List.range pool.workers.length).erase number := by
    intro other hother
    have hne : other ≠ number := fun heq => hothers (heq ▸ hother)
    refine (List.mem_erase_of_ne hne).mpr (List.mem_range.mpr ?_)
    -- only workers of the pool have anything ahead of them
    by_contra hge
    have hnone : ahead deed raised other = 0 := by
      rw [ahead, List.getElem?_eq_none (by omega), Option.elim_none]
    have hpos := List.count_pos_iff.mpr hother
    have hle := hcount other
    omega
  have hlength := (honce.subperm hsubset).length_le
  rwa [List.length_erase_of_mem (List.mem_range.mpr hlt), List.length_range] at hlength

/-! ## The account of a run -/

/-- The indices that the workers have in their hands and have done so much with. -/
def inHand (deed : Deed) (pool : Pool ε β) : List Nat :=
  pool.workers.flatMap fun worker => (worker.phase.done? deed).toList

/-- What the workers have done so much with is in their hands or recorded. -/
theorem handled_perm_inHand (deed : Deed) (pool : Pool ε β) :
    (handled deed pool).Perm (inHand deed pool ++ (records pool).map Prod.fst) := by
  rw [records, List.map_flatMap]
  exact (List.flatMap_append_perm _ _ _).symm

/-- What a run does with the indices, up to a state of the pool. -/
structure Accounted (count : Nat) (result : Nat → Except ε β) (trace : List Event)
    (pool : Pool ε β) : Prop where
  /-- The indices handed out are the first ones, in their order. -/
  claims : indicesOf .claim trace = List.range (min pool.next count)
  /-- Each of them is with exactly one worker. -/
  owner : ∀ index < min pool.next count,
    ∃! number, number < pool.workers.length ∧ ⟨.claim, number, index⟩ ∈ trace
  /-- No task is performed twice, -/
  once : (indicesOf .perform trace).Nodup
  /-- and the worker that performs a task has claimed its index. -/
  performer : ∀ number index, ⟨.perform, number, index⟩ ∈ trace → ⟨.claim, number, index⟩ ∈ trace
  /-- An index whose task has been performed is with one worker, which has not recorded it yet, or
  it is recorded, once. -/
  finished : ∀ index ∈ indicesOf .perform trace,
    (inHand .perform pool).count index + ((records pool).map Prod.fst).count index = 1
  /-- An index is recorded as often as a worker has done so, -/
  recorded : (indicesOf .record trace).Perm ((records pool).map Prod.fst)
  /-- and with the result of its task. -/
  honest : ∀ entry ∈ records pool, entry.2 = result entry.1

/-- Every run from the start is in order. -/
theorem Traced.accounted {size : Nat} {trace : List Event} {pool : Pool ε β}
    (h : Traced count result (start size) trace pool) : Accounted count result trace pool where
  claims := h.claims
  owner := by
    intro index hindex
    have hclaimed : index ∈ indicesOf .claim trace := h.claims ▸ List.mem_range.mpr hindex
    obtain ⟨number, hevent⟩ := mem_indicesOf_iff.mp hclaimed
    obtain ⟨worker, hworker, -⟩ := h.mem_iff.mp hevent
    refine ⟨number, ⟨(List.getElem?_eq_some_iff.mp hworker).1, hevent⟩, ?_⟩
    rintro other ⟨-, hother⟩
    -- two claims of one index would be listed twice
    have heq := List.inj_on_of_nodup_map (h.nodup .claim)
      (List.mem_filter.mpr ⟨hother, decide_eq_true rfl⟩)
      (List.mem_filter.mpr ⟨hevent, decide_eq_true rfl⟩) rfl
    exact congrArg Event.worker heq
  once := h.nodup .perform
  performer := by
    intro number index hevent
    obtain ⟨worker, hworker, hindex⟩ := h.mem_iff.mp hevent
    exact h.mem_iff.mpr ⟨worker, hworker, (worker.sublist_done .perform).subset hindex⟩
  finished := by
    intro index hindex
    have hperm := (h.handled_perm .perform).trans (handled_perm_inHand .perform pool)
    rw [← List.count_append, ← hperm.count_eq]
    exact List.count_eq_one_of_mem (h.nodup .perform) hindex
  recorded := by
    have hnone : inHand .record pool = [] := by simp [inHand, Phase.done?]
    have hperm := (h.handled_perm .record).trans (handled_perm_inHand .record pool)
    rwa [hnone, List.nil_append] at hperm
  honest := by
    intro entry hentry
    obtain ⟨worker, hworker, hentry⟩ := List.mem_flatMap.mp hentry
    exact (h.ledger.honest worker hworker).records entry hentry

/-- When all workers have stopped, the tasks performed are those of the indices handed out, and each
of them is recorded. -/
theorem Traced.performed_of_stopped {size : Nat} {trace : List Event} {pool : Pool ε β}
    (h : Traced count result (start size) trace pool) (hstopped : Stopped pool) :
    (indicesOf .perform trace).Perm ((records pool).map Prod.fst) ∧
      (indicesOf .perform trace).Perm (List.range (min pool.next count)) := by
  have hnone : inHand .perform pool = [] := by
    refine List.flatMap_eq_nil_iff.mpr fun worker hworker => ?_
    rw [hstopped worker hworker]
    rfl
  have hperm := (h.handled_perm .perform).trans (handled_perm_inHand .perform pool)
  rw [hnone, List.nil_append] at hperm
  have hrecords := (h.ledger.records_perm hstopped).map Prod.fst
  rw [List.map_map] at hrecords
  refine ⟨hperm, hperm.trans (hrecords.trans ?_)⟩
  rw [show Prod.fst ∘ (fun index => (index, result index)) = id from rfl, List.map_id]

/-- In every run of a pool, in whatever order its workers act, the indices handed out are the first
ones, each with exactly one worker, no task is performed twice, and what has been performed is
recorded once. After a worker has first raised the flag, every other worker claims at most one more
index and performs at most one more task. When all workers have stopped, the tasks performed are
those recorded, and they are all tasks if none of them fails. -/
theorem tasks_handed_out_once {size : Nat} (hsize : 0 < size) {trace : List Event} {pool : Pool ε β}
    (h : Traced count result (start size) trace pool) :
    Accounted count result trace pool ∧
    (∀ number events raised, Acts count result number pool events raised → pool.failed = false →
      raised.failed = true → ∀ later pool', Traced count result raised later pool' →
        Slack size number (workersOf .claim later) ∧
          Slack size number (workersOf .perform later)) ∧
    (Stopped pool →
      (indicesOf .perform trace).Perm ((records pool).map Prod.fst) ∧
        ((∀ index < count, isError (result index) = false) →
          (indicesOf .perform trace).Perm (List.range count))) := by
  have hlength : pool.workers.length = size := by
    rw [h.length_workers, start, List.length_replicate]
  refine ⟨h.accounted, ?_, ?_⟩
  · intro number events raised hraise hbefore hafter later pool' hlater
    have hclaims := Traced.slack hraise hbefore hafter hlater .claim (by decide)
    have hperforms := Traced.slack hraise hbefore hafter hlater .perform (by decide)
    rw [hlength] at hclaims hperforms
    exact ⟨hclaims, hperforms⟩
  · intro hstopped
    obtain ⟨hrecorded, hperformed⟩ := h.performed_of_stopped hstopped
    refine ⟨hrecorded, fun hfine => ?_⟩
    have hworkers : pool.workers ≠ [] := List.ne_nil_of_length_pos (hlength ▸ hsize)
    rcases h.ledger.covers hstopped hworkers with ⟨index, hindex, herror⟩ | hcount
    · rw [hfine index (by omega)] at herror
      cases herror
    · rwa [Nat.min_eq_right hcount] at hperformed

/-- The first of two tasks fails while the other worker is about to take an index. That worker still
performs the second task, and no other is performed. -/
theorem task_performed_after_failure :
    let result : Nat → Except Unit Nat := fun index => if index = 0 then .error () else .ok index
    let pool : Pool Unit Nat := ⟨1, false, [⟨.reporting 0 (.error ()), []⟩, ⟨.claiming, []⟩]⟩
    let raised : Pool Unit Nat := ⟨1, true, [⟨.recording 0 (.error ()), []⟩, ⟨.claiming, []⟩]⟩
    let trace : List Event := [⟨.claim, 0, 0⟩, ⟨.perform, 0, 0⟩]
    let later : List Event := [⟨.claim, 1, 1⟩, ⟨.perform, 1, 1⟩]
    0 < 2 ∧ Traced 2 result (start 2) trace pool ∧ Accounted 2 result trace pool ∧
      Acts 2 result 0 pool [] raised ∧
      (∃ pool', Traced 2 result raised later pool') ∧ Slack 2 0 (workersOf .perform later) := by
  intro result pool raised trace later
  have hstart : Traced 2 result (start 2) [] (start 2) := .refl
  have hpool : Traced 2 result (start 2) trace pool :=
    (((hstart.step 0 rfl rfl).step 1 rfl rfl).step 0 rfl rfl).step 0 rfl rfl
  have hraise : Acts 2 result 0 pool [] raised := acts_step 2 result pool 0 rfl rfl
  have hraised : Traced 2 result raised [] raised := .refl
  have hlater : ∃ pool', Traced 2 result raised later pool' :=
    ⟨_, (hraised.step 1 rfl rfl).step 1 rfl rfl⟩
  obtain ⟨haccounted, hslack, -⟩ := tasks_handed_out_once (by decide : 0 < 2) hpool
  obtain ⟨pool', hlater'⟩ := hlater
  exact ⟨by decide, hpool, haccounted, hraise, ⟨pool', hlater'⟩,
    (hslack 0 [] raised hraise rfl rfl later pool' hlater').2⟩

end SingingVoice.WorkerPool
