import Mathlib

/-!
# Results of computations that may fail

When a computation in `Except` succeeds and when it fails, read off its parts: for one computation
after another and for a changed error.
-/

namespace Except

variable {ε ε' β γ : Type}

/-- What follows a success is given its value. -/
@[simp] theorem ok_bind (value : β) (next : β → Except ε γ) :
    (.ok value >>= next) = next value := rfl

/-- Nothing follows a failure. -/
@[simp] theorem error_bind (error : ε) (next : β → Except ε γ) :
    (.error error >>= next) = .error error := rfl

/-- One computation after another succeeds if the first does and what follows it. -/
theorem bind_eq_ok {first : Except ε β} {next : β → Except ε γ} {final : γ} :
    first >>= next = .ok final ↔ ∃ value, first = .ok value ∧ next value = .ok final := by
  cases first <;> simp

/-- One computation after another fails if the first does or what follows it. -/
theorem bind_eq_error {first : Except ε β} {next : β → Except ε γ} {error : ε} :
    first >>= next = .error error ↔
      first = .error error ∨ ∃ value, first = .ok value ∧ next value = .error error := by
  cases first <;> simp

/-- A changed value comes from a success. -/
theorem map_eq_ok {change : β → γ} {result : Except ε β} {final : γ} :
    result.map change = .ok final ↔ ∃ value, result = .ok value ∧ change value = final := by
  cases result <;> simp [Except.map]

/-- An error stays as it is when values are changed. -/
@[simp] theorem map_eq_error {change : β → γ} {result : Except ε β} {error : ε} :
    result.map change = .error error ↔ result = .error error := by
  cases result with
  | ok value => exact ⟨nofun, nofun⟩
  | error error => simp [Except.map]

/-- A success stays as it is when errors are changed. -/
@[simp] theorem mapError_eq_ok {change : ε → ε'} {result : Except ε β} {value : β} :
    result.mapError change = .ok value ↔ result = .ok value := by
  cases result with
  | ok value => simp [Except.mapError]
  | error error => exact ⟨nofun, nofun⟩

/-- A changed error comes from an error. -/
theorem mapError_eq_error {change : ε → ε'} {result : Except ε β} {error' : ε'} :
    result.mapError change = .error error' ↔
      ∃ error, result = .error error ∧ change error = error' := by
  cases result with
  | ok value => exact ⟨nofun, nofun⟩
  | error error => simp [Except.mapError]

/-- Computations for all elements succeed together if each of them does. -/
theorem mapM_eq_ok_iff {f : β → Except ε γ} {xs : List β} {ys : List γ} :
    xs.mapM f = .ok ys ↔ List.Forall₂ (fun x y => f x = .ok y) xs ys := by
  induction xs generalizing ys with
  | nil =>
    rw [List.mapM_nil, List.forall₂_nil_left_iff]
    exact ⟨fun h => (Except.ok.inj h).symm, fun h => congrArg Except.ok h.symm⟩
  | cons x xs ih =>
    rw [List.mapM_cons, bind_eq_ok, List.forall₂_cons_left_iff]
    constructor
    · rintro ⟨y, hy, h⟩
      obtain ⟨rest, hrest, h⟩ := bind_eq_ok.mp h
      exact ⟨y, rest, hy, ih.mp hrest, (Except.ok.inj h).symm⟩
    · rintro ⟨y, rest, hy, hrest, rfl⟩
      exact ⟨y, hy, bind_eq_ok.mpr ⟨rest, ih.mpr hrest, rfl⟩⟩

/-- Computations for all elements succeed if each of them does. -/
theorem exists_mapM_eq_ok {f : β → Except ε γ} {xs : List β} (h : ∀ x ∈ xs, ∃ y, f x = .ok y) :
    ∃ ys, xs.mapM f = .ok ys := by
  induction xs with
  | nil => exact ⟨[], rfl⟩
  | cons x xs ih =>
    obtain ⟨y, hy⟩ := h x List.mem_cons_self
    obtain ⟨ys, hys⟩ := ih fun x' hx' => h x' (List.mem_cons_of_mem _ hx')
    exact ⟨y :: ys, mapM_eq_ok_iff.mpr (.cons hy (mapM_eq_ok_iff.mp hys))⟩

/-- Every value is that of an element. -/
theorem exists_of_mem_mapM {f : β → Except ε γ} {xs : List β} {ys : List γ} {y : γ}
    (h : xs.mapM f = .ok ys) (hmem : y ∈ ys) : ∃ x ∈ xs, f x = .ok y := by
  induction mapM_eq_ok_iff.mp h with
  | nil => cases hmem
  | cons hhead htail ih =>
    rcases List.mem_cons.mp hmem with rfl | hmem
    · exact ⟨_, List.mem_cons_self, hhead⟩
    · obtain ⟨x, hx, hy⟩ := ih (mapM_eq_ok_iff.mpr htail) hmem
      exact ⟨x, List.mem_cons_of_mem _ hx, hy⟩

/-- The order of the elements decides only the order of the values. -/
theorem mapM_perm {f : β → Except ε γ} {xs xs' : List β} {ys : List γ} (hperm : xs.Perm xs')
    (h : xs.mapM f = .ok ys) : ∃ ys', xs'.mapM f = .ok ys' ∧ ys.Perm ys' := by
  obtain ⟨ys', hys', hperm'⟩ := List.perm_comp_forall₂ hperm.symm (mapM_eq_ok_iff.mp h)
  exact ⟨ys', mapM_eq_ok_iff.mpr hys', hperm'.symm⟩

end Except
