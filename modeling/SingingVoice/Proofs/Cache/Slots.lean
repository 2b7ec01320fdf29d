import Mathlib
import SingingVoice.Cache

/-!
# The keys and the cells of a cache

What each operation of a cache changes and what it leaves alone: which cell a key leads to, what is
in a cell, and what `get?` and `size` show of it. `Tidy` says that different keys lead to different
cells, all of which have been made; every operation keeps it.
-/

namespace SingingVoice.Cache

variable {V : Type} {cache : Cache V} {key other : String} {cell place : Nat} {value : V}

/-! ## Cells -/

/-- A cell that has been made and that is filled holds the value. -/
theorem cell?_store_self (h : cell < cache.cells.size) (value : V) :
    (cache.store cell value).cell? cell = some value := by
  simp [cell?, store, h]

/-- Filling a cell leaves the other cells alone. -/
theorem cell?_store_of_ne (h : place ≠ cell) (value : V) :
    (cache.store cell value).cell? place = cache.cell? place := by
  simp [cell?, store, h.symm]

/-- A cell that is made when a key is looked up is empty, and the others stay as they are. -/
@[simp] theorem cell?_claim (key : String) (place : Nat) :
    (cache.claim key).2.cell? place = cache.cell? place := by
  unfold claim
  cases cache.slots[key]? with
  | some cell => rfl
  | none =>
      simp only [cell?, Array.getElem?_push]
      split
      · next h => rw [h, Array.getElem?_eq_none (Nat.le_refl _)]; rfl
      · rfl

/-- Clearing leaves the cells alone. -/
@[simp] theorem cell?_clear (place : Nat) : cache.clear.cell? place = cache.cell? place := rfl

/-! ## Slots -/

/-- Looking up a key that leads to a cell gives the cell. -/
theorem claim_of_slot (h : cache.slots[key]? = some cell) : cache.claim key = (cell, cache) := by
  simp only [claim, h]

/-- Looking up a key that leads nowhere makes the next cell. -/
theorem claim_of_no_slot (h : cache.slots[key]? = none) :
    cache.claim key = (cache.cells.size,
      ⟨cache.slots.insert key cache.cells.size, cache.cells.push none⟩) := by
  simp only [claim, h]

/-- After a key has been looked up it leads to its cell. -/
theorem slot_claim (cache : Cache V) (key : String) :
    (cache.claim key).2.slots[key]? = some (cache.claim key).1 := by
  cases h : cache.slots[key]? with
  | some cell => rw [claim_of_slot h, h]
  | none => rw [claim_of_no_slot h, Std.HashMap.getElem?_insert_self]

/-- Looking up a key leaves the others alone. -/
theorem slot_claim_of_ne (h : other ≠ key) :
    (cache.claim key).2.slots[other]? = cache.slots[other]? := by
  cases hslot : cache.slots[key]? with
  | some cell => rw [claim_of_slot hslot]
  | none =>
      rw [claim_of_no_slot hslot, Std.HashMap.getElem?_insert]
      simp [h.symm]

/-- Filling a cell leaves the keys alone. -/
@[simp] theorem slots_store (cell : Nat) (value : V) :
    (cache.store cell value).slots = cache.slots := rfl

/-- Filling makes no cell. -/
@[simp] theorem size_cells_store (cell : Nat) (value : V) :
    (cache.store cell value).cells.size = cache.cells.size :=
  Array.size_setIfInBounds

/-- After clearing no key leads to a cell. -/
@[simp] theorem slot_clear (key : String) : cache.clear.slots[key]? = none :=
  Std.HashMap.getElem?_empty

/-- Keys lead to cells that have been made, and different keys to different cells. -/
structure Tidy (cache : Cache V) : Prop where
  bound : ∀ (key : String) (cell : Nat), cache.slots[key]? = some cell → cell < cache.cells.size
  apart : ∀ (key other : String) (cell : Nat), cache.slots[key]? = some cell →
    cache.slots[other]? = some cell → key = other

namespace Tidy

/-- A cache without cells is tidy. -/
theorem empty : Tidy (Cache.empty : Cache V) where
  bound key cell h := by simp [Cache.empty] at h
  apart key other cell h := by simp [Cache.empty] at h

/-- Looking up a key keeps a cache tidy. -/
theorem claim (h : cache.Tidy) (key : String) : (cache.claim key).2.Tidy := by
  cases hslot : cache.slots[key]? with
  | some cell => rwa [claim_of_slot hslot]
  | none =>
      rw [claim_of_no_slot hslot]
      constructor
      · intro other cell hother
        rw [Std.HashMap.getElem?_insert] at hother
        rw [Array.size_push]
        split at hother
        · obtain rfl := Option.some.inj hother
          exact Nat.lt_succ_self _
        · exact Nat.lt_succ_of_lt (h.bound other cell hother)
      · -- the new cell is none of those that keys have led to
        intro first second cell hfirst hsecond
        rw [Std.HashMap.getElem?_insert] at hfirst hsecond
        split at hfirst <;> split at hsecond
        · next hkey hkey' => exact (LawfulBEq.eq_of_beq hkey).symm.trans (LawfulBEq.eq_of_beq hkey')
        · obtain rfl := Option.some.inj hfirst
          exact absurd (h.bound second _ hsecond) (Nat.lt_irrefl _)
        · obtain rfl := Option.some.inj hsecond
          exact absurd (h.bound first _ hfirst) (Nat.lt_irrefl _)
        · exact h.apart first second cell hfirst hsecond

/-- Filling a cell keeps a cache tidy. -/
theorem store (h : cache.Tidy) (cell : Nat) (value : V) : (cache.store cell value).Tidy where
  bound key place hslot := by
    rw [size_cells_store]
    exact h.bound key place hslot
  apart := h.apart

/-- Clearing keeps a cache tidy. -/
theorem clear (cache : Cache V) : cache.clear.Tidy where
  bound key cell h := by simp at h
  apart key other cell h := by simp at h

end Tidy

/-! ## What a cache shows -/

/-- A key has the value that is in the cell it leads to. -/
theorem get?_eq_some_iff :
    cache.get? key = some value ↔
      ∃ cell, cache.slots[key]? = some cell ∧ cache.cell? cell = some value :=
  Option.bind_eq_some_iff

/-- A cache without cells shows no value. -/
@[simp] theorem get?_empty (key : String) : (Cache.empty : Cache V).get? key = none := by
  simp [get?, empty]

/-- Looking up a key changes no value. -/
@[simp] theorem get?_claim (key other : String) :
    (cache.claim key).2.get? other = cache.get? other := by
  by_cases h : other = key
  · subst h
    cases hslot : cache.slots[other]? with
    | some cell => rw [claim_of_slot hslot]
    | none =>
        -- the key leads to a cell now, but the cell is empty
        have hempty : cache.cell? cache.cells.size = none := by simp [cell?]
        rw [get?, slot_claim, get?, hslot, Option.bind_some, cell?_claim, claim_of_no_slot hslot]
        exact hempty
  · simp only [get?, slot_claim_of_ne h]
    cases cache.slots[other]? with
    | none => rfl
    | some cell => exact cell?_claim key cell

/-- Filling the cell of a key gives the key the value. -/
theorem get?_store_self (h : cache.Tidy) (hslot : cache.slots[key]? = some cell) (value : V) :
    (cache.store cell value).get? key = some value :=
  get?_eq_some_iff.mpr ⟨cell, hslot, cell?_store_self (h.bound key cell hslot) value⟩

/-- Filling a cell changes nothing for keys that do not lead to it. -/
theorem get?_store_of_ne (h : cache.slots[key]? ≠ some cell) (value : V) :
    (cache.store cell value).get? key = cache.get? key := by
  simp only [get?, slots_store]
  cases hslot : cache.slots[key]? with
  | none => rfl
  | some place =>
      have hne : place ≠ cell := fun heq => h (heq ▸ hslot)
      exact cell?_store_of_ne hne value

/-- A cleared cache shows no value. -/
@[simp] theorem get?_clear (key : String) : cache.clear.get? key = none := by
  simp [get?]

/-- The cell of a key holds its value. -/
theorem cell?_claim_self (key : String) :
    (cache.claim key).2.cell? (cache.claim key).1 = cache.get? key := by
  rw [← get?_claim key key, get?, slot_claim, Option.bind_some]

/-- Looking up a key and filling its cell changes the value of this key only. -/
theorem get?_store_claim (h : cache.Tidy) (key other : String) (value : V) :
    ((cache.claim key).2.store (cache.claim key).1 value).get? other =
      if other = key then some value else cache.get? other := by
  split
  case isTrue heq => rw [heq, get?_store_self (h.claim key) (slot_claim cache key)]
  case isFalse hne =>
    have hslot : (cache.claim key).2.slots[other]? ≠ some (cache.claim key).1 := fun hother =>
      hne ((h.claim key).apart other key _ hother (slot_claim cache key))
    rw [get?_store_of_ne hslot, get?_claim]

/-- `Holds right cache`: different keys lead to different cells, and every value is right for its
key. -/
structure Holds (right : String → V → Prop) (cache : Cache V) : Prop where
  tidy : cache.Tidy
  value : ∀ (key : String) (value : V), cache.get? key = some value → right key value

namespace Holds

variable {right : String → V → Prop}

theorem empty : Holds right Cache.empty where
  tidy := .empty
  value key value h := by simp at h

theorem claim (h : Holds right cache) (key : String) : Holds right (cache.claim key).2 where
  tidy := h.tidy.claim key
  value other value hvalue := h.value other value (by rwa [get?_claim] at hvalue)

theorem clear (cache : Cache V) : Holds right cache.clear where
  tidy := .clear cache
  value key value h := by simp at h

/-- A right value may be computed for a key. -/
theorem store_claim (h : Holds right cache) (hvalue : right key value) :
    Holds right ((cache.claim key).2.store (cache.claim key).1 value) where
  tidy := (h.tidy.claim key).store _ value
  value other found hfound := by
    rw [get?_store_claim h.tidy] at hfound
    split at hfound
    case isTrue heq => rwa [heq, ← Option.some.inj hfound]
    case isFalse => exact h.value other found hfound

end Holds

/-- The keys that have a value are finitely many, and a cache counts each of them once. -/
theorem size_eq_ncard (cache : Cache V) :
    {key | (cache.get? key).isSome}.Finite ∧
      cache.size = {key | (cache.get? key).isSome}.ncard := by
  let full : List (String × Nat) :=
    cache.slots.toList.filter fun entry => (cache.cell? entry.2).isSome
  have hnodup : (full.map Prod.fst).Nodup := by
    have hdistinct := Std.HashMap.distinct_keys_toList (m := cache.slots)
    refine List.pairwise_map.mpr (List.Pairwise.filter _ (hdistinct.imp ?_))
    intro first second hne heq
    simp [heq] at hne
  have hkeys : {key | (cache.get? key).isSome} = ((full.map Prod.fst).toFinset : Set String) := by
    ext key
    simp only [Set.mem_ofPred_eq, Option.isSome_iff_exists, get?_eq_some_iff, List.coe_toFinset,
      List.mem_map, full, List.mem_filter]
    constructor
    · rintro ⟨value, cell, hslot, hcell⟩
      have hmem := Std.HashMap.mem_toList_iff_getElem?_eq_some.mpr hslot
      exact ⟨(key, cell), ⟨hmem, value, hcell⟩, rfl⟩
    · rintro ⟨⟨_, cell⟩, ⟨hslot, value, hcell⟩, rfl⟩
      exact ⟨value, cell, Std.HashMap.mem_toList_iff_getElem?_eq_some.mp hslot, hcell⟩
  rw [hkeys]
  refine ⟨Finset.finite_toSet _, ?_⟩
  rw [Set.ncard_coe_finset, List.toFinset_card_of_nodup hnodup, List.length_map, size,
    List.countP_eq_length_filter]

/-! ## Calls -/

/-- A call looks up its cell and looks into it, computes the value if there is none, and stores what
it has computed. -/
theorem run_getOrFill {ε : Type} {m : Type → Type} [Monad m] [LawfulMonad m]
    (step : {β : Type} → (Cache V → β × Cache V) → m β) (key : String) (fill : ExceptT ε m V) :
    (getOrFill step key fill).run = do
      let cell ← step (·.claim key)
      match ← step fun cache => (cache.cell? cell, cache) with
      | some value => return .ok value
      | none =>
        match ← fill.run with
        | .ok value => Except.ok <$> step fun cache => (value, cache.store cell value)
        | .error error => return .error error := by
  unfold getOrFill
  simp only [ExceptT.run_bind, ExceptT.run_lift, bind_map_left]
  refine bind_congr fun cell => bind_congr fun seen => ?_
  cases seen with
  | some value => rfl
  | none =>
      simp only [ExceptT.run_bind, ExceptT.run_lift]
      refine bind_congr fun result => ?_
      cases result <;> simp

end SingingVoice.Cache
