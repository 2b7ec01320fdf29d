/-!
# Worker pools

A pool of workers performs the tasks 0, 1, 2, … up to a count. The workers share a counter, from
which each takes the next index, and a flag that is raised when a task fails; a worker stops when it
sees the flag or when the indices are used up. `WorkerPool.step` is one atomic action of one worker,
and a `Schedule` says which worker acts next. `WorkerPool.runIndexed` is a whole run: its value is
the list of all results in the order of the indices, or the error of the lowest index that failed,
so it is the same for every schedule.
-/

namespace SingingVoice.WorkerPool

/-- What a worker is about to do. -/
inductive Phase (ε β : Type) where
  /-- It looks at the flag. -/
  | ready
  /-- It takes the next index. -/
  | claiming
  /-- It performs the task of an index. -/
  | working (index : Nat)
  /-- It raises the flag if its task has failed. -/
  | reporting (index : Nat) (result : Except ε β)
  /-- It records the result of its task. -/
  | recording (index : Nat) (result : Except ε β)
  /-- Nothing more. -/
  | stopped

namespace Phase

variable {ε β : Type}

/-- Whether the worker acts again. -/
def isLive : Phase ε β → Bool
  | stopped => false
  | _ => true

end Phase

/-- A worker and the results it has recorded, the latest first. -/
structure Worker (ε β : Type) where
  phase : Phase ε β
  records : List (Nat × Except ε β)

/-- A pool of workers in the middle of a run. -/
structure Pool (ε β : Type) where
  /-- The next index to be handed out. -/
  next : Nat
  /-- Whether a failure has been reported. -/
  failed : Bool
  /-- The workers. -/
  workers : List (Worker ε β)

variable {ε β : Type} {m : Type → Type} [Monad m]

/-- The pool before a run. -/
def start (workers : Nat) : Pool ε β :=
  ⟨0, false, List.replicate workers ⟨.ready, []⟩⟩

/-- Whether a result is an error. -/
def isError : Except ε β → Bool
  | .error _ => true
  | .ok _ => false

/-- One action of a worker. Gives the counter, the flag and the worker after it. -/
def act (count : Nat) (task : Nat → ExceptT ε m β) (next : Nat) (failed : Bool)
    (worker : Worker ε β) : m (Nat × Bool × Worker ε β) :=
  match worker.phase with
  | .ready => pure (next, failed, { worker with phase := if failed then .stopped else .claiming })
  | .claiming =>
    pure (next + 1, failed,
      { worker with phase := if next < count then .working next else .stopped })
  | .working index => do
    let result ← (task index).run
    pure (next, failed, { worker with phase := .reporting index result })
  | .reporting index result =>
    pure (next, failed || isError result, { worker with phase := .recording index result })
  | .recording index result =>
    pure (next, failed, ⟨.ready, (index, result) :: worker.records⟩)
  | .stopped => pure (next, failed, worker)

/-- One action of the worker with a number. -/
def step (count : Nat) (task : Nat → ExceptT ε m β) (pool : Pool ε β) (number : Nat) :
    m (Pool ε β) :=
  match pool.workers[number]? with
  | none => pure pool
  | some worker => do
    let (next, failed, worker) ← act count task pool.next pool.failed worker
    return ⟨next, failed, pool.workers.set number worker⟩

/-- The numbers of the workers that act again. -/
def live (pool : Pool ε β) : List Nat :=
  (List.range pool.workers.length).filter fun number =>
    (pool.workers[number]?.map (·.phase.isLive)).getD false

/-- Which of the workers that act again acts next, for every moment of a run. -/
abbrev Schedule := Nat → Nat

/-- The schedule that always picks the first worker. -/
def Schedule.first : Schedule :=
  fun _ => 0

/-- The number of actions after which all workers have stopped: five for each index, and two for
each worker that finds none. -/
def maxSteps (count workers : Nat) : Nat :=
  5 * count + 2 * workers

/-- Runs a pool until all workers have stopped, or for so many actions. -/
def run (count : Nat) (task : Nat → ExceptT ε m β) (schedule : Schedule) :
    Nat → Pool ε β → m (Pool ε β)
  | 0, pool => pure pool
  | fuel + 1, pool =>
    match live pool with
    | [] => pure pool
    | number :: rest => do
      let numbers := number :: rest
      let pool ← step count task pool (numbers.getD (schedule fuel % numbers.length) number)
      run count task schedule fuel pool

/-- All results that the workers have recorded. -/
def records (pool : Pool ε β) : List (Nat × Except ε β) :=
  pool.workers.flatMap Worker.records

/-- The error with the lowest index. -/
def firstError? (records : List (Nat × Except ε β)) : Option (Nat × ε) :=
  records.foldl
    (fun found (index, result) =>
      match result, found with
      | .ok _, _ => found
      | .error error, none => some (index, error)
      | .error error, some (lowest, _) => if index < lowest then some (index, error) else found)
    none

/-- The values of so many indices, in order. -/
def values (count : Nat) (records : List (Nat × Except ε β)) : List β :=
  let slots := records.foldl
    (fun slots (index, result) => slots.setIfInBounds index result.toOption)
    (Array.replicate count none)
  slots.toList.filterMap id

/-- The value of a run. -/
def outcome (count : Nat) (records : List (Nat × Except ε β)) : Except ε (List β) :=
  match firstError? records with
  | some (_, error) => .error error
  | none => .ok (values count records)

/-- Performs the tasks one after another and stops at the first that fails. -/
def runSequential (count : Nat) (task : Nat → ExceptT ε m β) : ExceptT ε m (List β) :=
  (List.range count).mapM task

/-- Performs the tasks of the indices below `count` with at most `workers` workers: at least one and
not more than there are tasks. A single worker needs no pool. -/
def runIndexed (count workers : Nat) (task : Nat → ExceptT ε m β)
    (schedule : Schedule := Schedule.first) : ExceptT ε m (List β) :=
  let workers := max 1 (min workers (max count 1))
  if workers = 1 then runSequential count task
  else ExceptT.mk do
    let pool ← run count task schedule (maxSteps count workers) (start workers)
    return outcome count (records pool)

end SingingVoice.WorkerPool
