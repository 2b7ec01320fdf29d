import Std.Data.HashMap

/-!
# Caches

A cache holds one value for each key, and computes it at most once. A key leads to a cell, and the
cell is filled when a computation succeeds; a computation that fails leaves the cell empty for the
next one. Clearing a cache forgets which keys lead to which cells. A computation that has already
been given a cell still fills that cell, but no key leads to it any more.

`Cache.claim` and `Cache.store` are the atomic steps, and `Cache.getOrFill` puts them together
around a computation that runs between them.
-/

namespace SingingVoice

/-- A table from keys to cells that are filled at most once. -/
structure Cache (V : Type) where
  /-- The number of the cell of a key. -/
  slots : Std.HashMap String Nat
  /-- The cells that have been made so far. -/
  cells : Array (Option V)

namespace Cache

variable {V : Type}

/-- The cache without cells. -/
def empty : Cache V :=
  ⟨∅, #[]⟩

/-- The value in a cell, if it has been filled. -/
def cell? (cache : Cache V) (cell : Nat) : Option V :=
  cache.cells[cell]?.join

/-- The cell of a key, which is made if there is none. -/
def claim (cache : Cache V) (key : String) : Nat × Cache V :=
  match cache.slots[key]? with
  | some cell => (cell, cache)
  | none =>
    (cache.cells.size, ⟨cache.slots.insert key cache.cells.size, cache.cells.push none⟩)

/-- Fills a cell. -/
def store (cache : Cache V) (cell : Nat) (value : V) : Cache V :=
  { cache with cells := cache.cells.setIfInBounds cell (some value) }

/-- The value of a key, if its cell has been filled. -/
def get? (cache : Cache V) (key : String) : Option V :=
  cache.slots[key]?.bind cache.cell?

/-- The number of keys whose cell has been filled. -/
def size (cache : Cache V) : Nat :=
  cache.slots.toList.countP fun (_, cell) => (cache.cell? cell).isSome

/-- Whether no key has a value. -/
def isEmpty (cache : Cache V) : Bool :=
  cache.size = 0

/-- The cache in which no key leads to a cell. -/
def clear (cache : Cache V) : Cache V :=
  { cache with slots := ∅ }

/-- The value of a key, computed on a miss. The cache is reached through `step`, which performs one
atomic operation on it, and `fill` runs between two such operations. -/
def getOrFill {m : Type → Type} [Monad m] {ε : Type}
    (step : {β : Type} → (Cache V → β × Cache V) → m β) (key : String) (fill : ExceptT ε m V) :
    ExceptT ε m V := do
  let cell ← ExceptT.lift (step (·.claim key))
  match ← ExceptT.lift (step fun cache => (cache.cell? cell, cache)) with
  | some value => return value
  | none =>
    let value ← fill
    ExceptT.lift (step fun cache => (value, cache.store cell value))

/-- A cache in words. -/
def text (cache : Cache V) : String :=
  "Cache \x7b len: " ++ toString cache.size ++ " \x7d"

end Cache

end SingingVoice
