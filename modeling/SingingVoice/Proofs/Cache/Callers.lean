import Mathlib
import SingingVoice.Proofs.Cache.Slots

/-!
# Callers of a cache

Any number of callers share a cache. A call for the value of a key looks up the cell of the key in
one step and goes on with the cell alone: it runs its own computation if the cell is empty and no
other call is filling it, and it finds the value if the cell is filled; as long as another call is
filling the cell it waits. Between these steps other callers look up, fill, read and clear the
cache. `Step` is one step of one caller, and `Reachable` are the states that an empty cache can be
brought to, in which every call stays on record. `steps_of_getOrFill` says that a call that is not
disturbed takes these steps.
-/

namespace SingingVoice.Cache

variable {ε V : Type}

/-- How far a call has come. -/
inductive Progress (ε V : Type) where
  /-- It has a cell and waits. -/
  | waiting
  /-- It runs its own computation, begun after so many clears. -/
  | filling (begun : Nat)
  /-- Its own computation, begun after so many clears, has filled the cell. -/
  | filled (begun : Nat) (value : V)
  /-- Its own computation has failed. -/
  | failed (error : ε)
  /-- It has found the cell filled. -/
  | found (value : V)

namespace Progress

/-- When the call's own computation began, unless that has failed. -/
def begun? : Progress ε V → Option Nat
  | filling begun | filled begun _ => some begun
  | _ => none

/-- What the call's own computation has put into the cell. -/
def stored? : Progress ε V → Option V
  | filled _ value => some value
  | _ => none

/-- The result of the call, if it has returned. -/
def outcome? : Progress ε V → Option (Except ε V)
  | filled _ value | found value => some (.ok value)
  | failed error => some (.error error)
  | waiting | filling _ => none

end Progress

/-- What a call has from looking up its key. -/
structure Ticket where
  key : String
  /-- The cell that the key led to. -/
  cell : Nat
  /-- How often the cache had been cleared. -/
  era : Nat
deriving DecidableEq, Repr

/-- A call for the value of a key. -/
structure Call (ε V : Type) extends Ticket where
  progress : Progress ε V

/-- A cache that callers share, and the calls so far. -/
structure Shared (ε V : Type) where
  cache : Cache V
  /-- How often the cache has been cleared. -/
  clears : Nat
  /-- The calls, in the order in which they have looked up their keys. -/
  calls : List (Call ε V)

/-- What a caller does, and what it sees. -/
inductive Event (ε V : Type) where
  | lookUp (key : String)
  | begin (call : Call ε V)
  | succeed (call : Call ε V) (value : V)
  | fail (call : Call ε V) (error : ε)
  | find (call : Call ε V) (value : V)
  | get (key : String) (seen : Option V)
  | count (seen : Nat)
  | clear

namespace Shared

/-- A cache without cells, before any call. -/
def start : Shared ε V :=
  ⟨.empty, 0, []⟩

/-- No call is filling a cell. -/
def Idle (shared : Shared ε V) (cell : Nat) : Prop :=
  ∀ call ∈ shared.calls, call.cell = cell → ∀ begun, call.progress ≠ .filling begun

/-- A step of a call that has its cell: what it does, how far it comes and what becomes of the
cache. -/
inductive Action (shared : Shared ε V) (call : Call ε V) :
    Event ε V → Progress ε V → Cache V → Prop where
  | begin : call.progress = .waiting → shared.cache.cell? call.cell = none →
      shared.Idle call.cell →
      Action shared call (.begin call) (.filling shared.clears) shared.cache
  | succeed (begun : Nat) (value : V) : call.progress = .filling begun →
      Action shared call (.succeed call value) (.filled begun value)
        (shared.cache.store call.cell value)
  | fail (begun : Nat) (error : ε) : call.progress = .filling begun →
      Action shared call (.fail call error) (.failed error) shared.cache
  | find (value : V) : call.progress = .waiting → shared.cache.cell? call.cell = some value →
      Action shared call (.find call value) (.found value) shared.cache

/-- The state after a key has been looked up. -/
def lookUp (shared : Shared ε V) (key : String) : Shared ε V :=
  { shared with
    cache := (shared.cache.claim key).2
    calls := shared.calls ++ [⟨⟨key, (shared.cache.claim key).1, shared.clears⟩, .waiting⟩] }

/-- The state after the cache has been cleared. -/
def clear (shared : Shared ε V) : Shared ε V :=
  { shared with cache := shared.cache.clear, clears := shared.clears + 1 }

/-- One step of one caller. -/
inductive Step : Shared ε V → Event ε V → Shared ε V → Prop where
  | lookUp (shared : Shared ε V) (key : String) : Step shared (.lookUp key) (shared.lookUp key)
  | act (clears : Nat) (before after : List (Call ε V)) {cache cache' : Cache V}
      {call : Call ε V} {event : Event ε V} {progress : Progress ε V} :
      Action ⟨cache, clears, before ++ call :: after⟩ call event progress cache' →
      Step ⟨cache, clears, before ++ call :: after⟩ event
        ⟨cache', clears, before ++ { call with progress } :: after⟩
  | get (shared : Shared ε V) (key : String) :
      Step shared (.get key (shared.cache.get? key)) shared
  | count (shared : Shared ε V) : Step shared (.count shared.cache.size) shared
  | clear (shared : Shared ε V) : Step shared .clear shared.clear

/-- Any number of steps, in any order of the callers. -/
abbrev Steps : Shared ε V → Shared ε V → Prop :=
  Relation.ReflTransGen fun shared shared' => ∃ event, Step shared event shared'

/-- A state that callers can bring an empty cache to. -/
def Reachable (shared : Shared ε V) : Prop :=
  Steps start shared

/-- A call that has its cell takes a step. -/
theorem exists_step_of_action {shared : Shared ε V} {call : Call ε V} {event : Event ε V}
    {progress : Progress ε V} {cache : Cache V} (hcall : call ∈ shared.calls)
    (h : Action shared call event progress cache) : ∃ shared', Step shared event shared' := by
  obtain ⟨before, after, hcalls⟩ := List.append_of_mem hcall
  obtain ⟨cache, clears, calls⟩ := shared
  subst hcalls
  exact ⟨_, .act clears before after h⟩

/-! ## The running cache -/

/-- The operations of a cache in a program that has nothing else to change. -/
def direct {β : Type} (f : Cache V → β × Cache V) : StateM (Cache V) β :=
  f

/-- A computation with this result. -/
def known (result : Except ε V) : ExceptT ε (StateM (Cache V)) V :=
  ExceptT.mk (pure result)

/-- What a call does with a cache while no one else does: it finds the value in the cell of its key,
or else computes it and stores it in the cell if that succeeds. -/
theorem run_undisturbed (cache : Cache V) (key : String) (result : Except ε V) :
    (getOrFill direct key (known result)).run cache =
      match cache.cell? (cache.claim key).1, result with
      | some value, _ => (.ok value, (cache.claim key).2)
      | none, .ok value => (.ok value, (cache.claim key).2.store (cache.claim key).1 value)
      | none, .error error => (.error error, (cache.claim key).2) := by
  have hdirect {β : Type} (f : Cache V → β × Cache V) (cache : Cache V) :
      (direct f).run cache = pure (f cache) := rfl
  rw [run_getOrFill, ← cell?_claim key]
  show StateT.run _ cache = _
  simp only [StateT.run_bind, hdirect, pure_bind]
  cases (cache.claim key).2.cell? (cache.claim key).1 with
  | some value => rfl
  | none => cases result <;> rfl

/-- A call that is not disturbed, and whose cell no other call is filling, takes the steps of the
relation: it ends with the cache and the result of the running cache. -/
theorem steps_of_getOrFill (shared : Shared ε V) (key : String) (result : Except ε V)
    (hidle : shared.Idle (shared.cache.claim key).1) :
    ∃ progress, Steps shared
        ⟨((getOrFill direct key (known result)).run shared.cache).2, shared.clears,
          shared.calls ++ [⟨⟨key, (shared.cache.claim key).1, shared.clears⟩, progress⟩]⟩ ∧
      progress.outcome? = some ((getOrFill direct key (known result)).run shared.cache).1 := by
  obtain ⟨cache, clears, calls⟩ := shared
  let looked (progress : Progress ε V) : Call ε V :=
    ⟨⟨key, (cache.claim key).1, clears⟩, progress⟩
  have hlook : Steps ⟨cache, clears, calls⟩
      ⟨(cache.claim key).2, clears, calls ++ [looked .waiting]⟩ :=
    .single ⟨_, .lookUp _ key⟩
  have hcell : (cache.claim key).2.cell? (cache.claim key).1 = cache.cell? (cache.claim key).1 :=
    cell?_claim key _
  rw [run_undisturbed]
  cases hseen : cache.cell? (cache.claim key).1 with
  | some value =>
      exact ⟨.found value,
        hlook.tail ⟨_, .act clears calls [] (.find value rfl (hcell.trans hseen))⟩, rfl⟩
  | none =>
      have hnew : Idle ⟨(cache.claim key).2, clears, calls ++ [looked .waiting]⟩
          (cache.claim key).1 := by
        intro call hcall hsame begun
        rcases List.mem_append.mp hcall with hcall | hcall
        · exact hidle call hcall hsame begun
        · rw [List.mem_singleton.mp hcall]
          exact nofun
      have hbegun := hlook.tail ⟨_, .act clears calls [] (.begin rfl (hcell.trans hseen) hnew)⟩
      cases result with
      | ok value =>
          exact ⟨.filled clears value,
            hbegun.tail ⟨_, .act clears calls [] (.succeed clears value rfl)⟩, rfl⟩
      | error error =>
          exact ⟨.failed error, hbegun.tail ⟨_, .act clears calls [] (.fail clears error rfl)⟩, rfl⟩

end Shared

end SingingVoice.Cache
