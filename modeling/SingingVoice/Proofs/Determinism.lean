/-!
# Actions with a determined result

Engines may keep state and read files while they work. `Gives action result` says that an action has
the same result from every state, whatever it changes. This may be too much to ask of an action that
relies on what it has kept, and whose result is determined only as long as that is right. `Results`
is any sense in which actions have results that agrees with putting one after another. What holds in
every such sense is proved once, by `Results.bind_except` and `Results.adapt` for actions that may
fail, and holds of what actions give (`Results.given`).
-/

namespace SingingVoice

variable {m : Type → Type} [Monad m] {β γ ε ε' : Type}

/-- The action always has this result: to put it in the place of the action's own changes
nothing. -/
def Gives (action : m β) (result : β) : Prop :=
  (action >>= fun _ => pure result) = action

/-- An action on a state gives what it returns from every state. -/
theorem gives_state_iff {σ : Type} {action : StateM σ β} {result : β} :
    Gives action result ↔ ∀ state, (action.run state).1 = result := by
  constructor
  · intro h state
    exact (congrArg (fun action : StateM σ β => (action.run state).1) h).symm
  · intro h
    funext state
    exact Prod.ext (h state).symm rfl

namespace Gives

variable [LawfulMonad m]

/-- An action that only returns a value gives it. -/
theorem of_pure (value : β) : Gives (pure value : m β) value := by
  unfold Gives
  rw [pure_bind]

/-- What follows an action with a determined result need only know that result. -/
theorem bind_eq {action : m β} {result : β} (h : Gives action result) (next : β → m γ) :
    action >>= next = action >>= fun _ => next result :=
  calc
    action >>= next
      = (action >>= fun _ => pure result) >>= next := by rw [h]
    _ = action >>= fun _ => next result := by simp only [bind_assoc, pure_bind]

/-- One action after another gives what the second gives after the result of the first. -/
theorem bind {action : m β} {next : β → m γ} {result : β} {final : γ}
    (haction : Gives action result) (hnext : Gives (next result) final) :
    Gives (action >>= next) final := by
  unfold Gives
  rw [haction.bind_eq next, bind_assoc]
  exact congrArg (action >>= ·) (funext fun _ => hnext)

end Gives

/-- A sense in which actions have results. -/
structure Results (m : Type → Type) [Monad m] where
  /-- The action has this result. -/
  Has {β : Type} : m β → β → Prop
  /-- An action that only returns a value has it as its result. -/
  of_pure {β : Type} (value : β) : Has (pure value) value
  /-- One action after another has the result of the second after that of the first. -/
  bind {β γ : Type} {action : m β} {next : β → m γ} {result : β} {final : γ} :
    Has action result → Has (next result) final → Has (action >>= next) final

namespace Results

/-- The sense in which actions have the results that they give from every state. -/
def given [LawfulMonad m] : Results m where
  Has := Gives
  of_pure := Gives.of_pure
  bind := Gives.bind

variable (results : Results m)

/-- An action that may fail and one that follows if it does not. -/
theorem bind_except {action : ExceptT ε m β} {next : β → ExceptT ε m γ} {result : Except ε β}
    {final : β → Except ε γ} (haction : results.Has action.run result)
    (hnext : ∀ value, results.Has (next value).run (final value)) :
    results.Has (action >>= next).run (result >>= final) := by
  apply results.bind haction
  cases result with
  | error error => exact results.of_pure _
  | ok value => exact hnext value

/-- A result that is there before the action. -/
theorem of_except (result : Except ε β) :
    results.Has (MonadExcept.ofExcept result : ExceptT ε m β).run result := by
  cases result <;> exact results.of_pure _

/-- An action whose errors are changed has the result with its error changed. -/
theorem adapt [LawfulMonad m] {action : ExceptT ε m β} {result : Except ε β} (change : ε → ε')
    (h : results.Has action.run result) :
    results.Has (ExceptT.adapt change action).run (result.mapError change) := by
  show results.Has (Except.mapError change <$> action.run) (result.mapError change)
  rw [← bind_pure_comp]
  exact results.bind h (results.of_pure _)

/-- An action that cannot fail, among those that may. -/
theorem lift [LawfulMonad m] {action : m β} {result : β} (h : results.Has action result) :
    results.Has (ExceptT.lift action : ExceptT ε m β).run (.ok result) := by
  show results.Has (Except.ok <$> action) (.ok result)
  rw [← bind_pure_comp]
  exact results.bind h (results.of_pure _)

end Results

end SingingVoice
