import Mathlib
import SingingVoice.Proofs.WorkerPool.Ledger

/-!
# The value of a worker pool

The value of a pool is that of its tasks done one after another, whatever the number of workers, the
order of their actions and the effects of the tasks: all values in the order of the indices, or the
error of the lowest index that fails. The main theorem is `value_independent_of_schedule`.
-/

namespace SingingVoice.WorkerPool

variable {ε β : Type} {count : Nat} {result : Nat → Except ε β}

/-! ## Tasks in order -/

/-- The values of the first tasks, or the error of the first one that fails. -/
def inOrder (count : Nat) (result : Nat → Except ε β) : Except ε (List β) :=
  (List.range count).mapM result

/-- The last task only counts if none before it fails. -/
theorem inOrder_succ (count : Nat) (result : Nat → Except ε β) :
    inOrder (count + 1) result = do
      let values ← inOrder count result
      let value ← result count
      return values ++ [value] := by
  rw [inOrder, List.range_succ, List.mapM_append]
  simp [inOrder]

/-- Either all of the first tasks have values, or there is a first one that fails. -/
theorem inOrder_cases (count : Nat) (result : Nat → Except ε β) :
    (∃ values, inOrder count result = .ok values ∧ values.length = count ∧
      ∀ index (h : index < values.length), result index = .ok values[index]) ∨
    ∃ index < count, ∃ error, inOrder count result = .error error ∧
      result index = .error error ∧ ∀ earlier < index, ∃ value, result earlier = .ok value := by
  induction count with
  | zero => exact .inl ⟨[], rfl, rfl, nofun⟩
  | succ count ih =>
      rw [inOrder_succ]
      rcases ih with ⟨values, hvalues, hlength, hget⟩ | ⟨index, hindex, error, herror, hfirst⟩
      · subst hlength
        rw [hvalues]
        cases hlast : result values.length with
        | ok value =>
            refine .inl ⟨values ++ [value], rfl, by simp, ?_⟩
            intro index hindex
            rw [List.length_append, List.length_singleton] at hindex
            rcases Nat.lt_succ_iff_lt_or_eq.mp hindex with hlt | rfl
            · rw [List.getElem_append_left hlt]
              exact hget index hlt
            · rw [List.getElem_concat_length rfl]
              exact hlast
        | error error =>
            refine .inr ⟨values.length, Nat.lt_succ_self _, error, rfl, hlast, ?_⟩
            intro earlier hearlier
            exact ⟨_, hget earlier hearlier⟩
      · rw [herror]
        exact .inr ⟨index, Nat.lt_succ_of_lt hindex, error, rfl, hfirst⟩

/-- Tasks in order have values exactly if each of them has one. -/
theorem inOrder_eq_ok_iff {values : List β} :
    inOrder count result = .ok values ↔
      values.length = count ∧
        ∀ index (h : index < values.length), result index = .ok values[index] := by
  rcases inOrder_cases count result with ⟨found, hfound, hlength, hget⟩ |
    ⟨index, hindex, error, hfails, herror, _⟩
  · rw [hfound]
    constructor
    · intro h
      cases h
      exact ⟨hlength, hget⟩
    · rintro ⟨hlength', hget'⟩
      refine congrArg Except.ok (List.ext_getElem (hlength.trans hlength'.symm) ?_)
      intro index hindex hindex'
      exact Except.ok.inj ((hget index hindex).symm.trans (hget' index hindex'))
  · rw [hfails]
    constructor
    · intro h
      cases h
    · rintro ⟨hlength, hget⟩
      rw [hget index (hlength ▸ hindex)] at herror
      cases herror

/-- Tasks in order fail with the error of the first one that fails. -/
theorem inOrder_eq_error_iff {error : ε} :
    inOrder count result = .error error ↔
      ∃ index < count, result index = .error error ∧
        ∀ earlier < index, ∃ value, result earlier = .ok value := by
  rcases inOrder_cases count result with ⟨values, hvalues, hlength, hget⟩ |
    ⟨index, hindex, error', hfails, herror, hfirst⟩
  · rw [hvalues]
    constructor
    · intro h
      cases h
    · rintro ⟨index, hindex, herror, _⟩
      rw [hget index (hlength ▸ hindex)] at herror
      cases herror
  · rw [hfails]
    constructor
    · intro h
      cases h
      exact ⟨index, hindex, herror, hfirst⟩
    · rintro ⟨other, _, hother, hfirst'⟩
      rcases Nat.lt_trichotomy index other with hlt | rfl | hgt
      · obtain ⟨value, hvalue⟩ := hfirst' index hlt
        rw [hvalue] at herror
        cases herror
      · rw [Except.error.inj (herror.symm.trans hother)]
      · obtain ⟨value, hvalue⟩ := hfirst other hgt
        rw [hvalue] at hother
        cases hother

/-! ## The value of records -/

/-- An error found among records is the one with the lowest index; there is none only if no record
is an error. -/
def Lowest (entries : List (Nat × Except ε β)) : Option (Nat × ε) → Prop
  | none => ∀ entry ∈ entries, isError entry.2 = false
  | some (index, error) =>
      (index, .error error) ∈ entries ∧ ∀ entry ∈ entries, isError entry.2 = true → index ≤ entry.1

/-- The error with the lowest index is found. -/
theorem firstError?_lowest (entries : List (Nat × Except ε β)) :
    Lowest entries (firstError? entries) := by
  induction entries using List.reverseRecOn with
  | nil => exact nofun
  | append_singleton entries entry ih =>
      obtain ⟨index, outcome⟩ := entry
      unfold firstError? at ih ⊢
      rw [List.foldl_append]
      generalize List.foldl _ none entries = found at ih ⊢
      cases outcome with
      | ok value =>
          cases found with
          | none => exact List.forall_mem_append.mpr ⟨ih, List.forall_mem_singleton.mpr rfl⟩
          | some lowest =>
              exact ⟨List.mem_append_left _ ih.1,
                List.forall_mem_append.mpr ⟨ih.2, List.forall_mem_singleton.mpr nofun⟩⟩
      | error error =>
          have hlast : (index, Except.error error) ∈ entries ++ [(index, .error error)] :=
            List.mem_append_right _ (List.mem_singleton_self _)
          cases found with
          | none =>
              refine ⟨hlast, List.forall_mem_append.mpr
                ⟨?_, List.forall_mem_singleton.mpr fun _ => Nat.le_refl _⟩⟩
              intro entry hentry herror
              rw [ih entry hentry] at herror
              cases herror
          | some lowest =>
              show Lowest _ (if index < lowest.1 then some (index, error) else some lowest)
              by_cases hlt : index < lowest.1
              · rw [if_pos hlt]
                refine ⟨hlast, List.forall_mem_append.mpr
                  ⟨?_, List.forall_mem_singleton.mpr fun _ => Nat.le_refl _⟩⟩
                intro entry hentry herror
                exact Nat.le_trans (Nat.le_of_lt hlt) (ih.2 entry hentry herror)
              · rw [if_neg hlt]
                exact ⟨List.mem_append_left _ ih.1, List.forall_mem_append.mpr
                  ⟨ih.2, List.forall_mem_singleton.mpr fun _ => Nat.not_lt.mp hlt⟩⟩

/-- The values put down so far, one place for each index. -/
def slots (count : Nat) (entries : List (Nat × Except ε β)) : Array (Option β) :=
  entries.foldl (fun slots (index, outcome) => slots.setIfInBounds index outcome.toOption)
    (Array.replicate count none)

/-- There are as many places as indices. -/
theorem size_slots (count : Nat) (entries : List (Nat × Except ε β)) :
    (slots count entries).size = count := by
  induction entries using List.reverseRecOn with
  | nil => exact Array.size_replicate
  | append_singleton entries entry ih =>
      rw [slots, List.foldl_append]
      exact Array.size_setIfInBounds.trans ih

/-- The value of a recorded task is in the place of its index. -/
theorem getElem?_slots {entries : List (Nat × Except ε β)}
    (hhonest : ∀ entry ∈ entries, entry.2 = result entry.1) {index : Nat} (hindex : index < count)
    (hmem : index ∈ entries.map Prod.fst) :
    (slots count entries)[index]? = some (result index).toOption := by
  induction entries using List.reverseRecOn with
  | nil => cases hmem
  | append_singleton entries entry ih =>
      have hbefore : ∀ other ∈ entries, other.2 = result other.1 :=
        fun other hother => hhonest other (List.mem_append_left _ hother)
      have hentry : entry.2 = result entry.1 :=
        hhonest entry (List.mem_append_right _ (List.mem_singleton_self _))
      rw [slots, List.foldl_append]
      show ((slots count entries).setIfInBounds entry.1 entry.2.toOption)[index]? = _
      rw [Array.getElem?_setIfInBounds, size_slots]
      by_cases heq : entry.1 = index
      · subst heq
        simp [hindex, hentry]
      · rw [if_neg heq]
        apply ih hbefore
        simpa [Ne.symm heq] using hmem

/-- The records of the first indices hold the result of each of them and nothing else. -/
theorem mem_records_iff {entries : List (Nat × Except ε β)} {handed : Nat}
    (hperm : entries.Perm ((List.range handed).map fun index => (index, result index)))
    {entry : Nat × Except ε β} :
    entry ∈ entries ↔ entry.1 < handed ∧ entry.2 = result entry.1 := by
  rw [hperm.mem_iff, List.mem_map]
  constructor
  · rintro ⟨index, hindex, rfl⟩
    exact ⟨List.mem_range.mp hindex, rfl⟩
  · rintro ⟨hlt, hentry⟩
    exact ⟨entry.1, List.mem_range.mpr hlt, Prod.ext rfl hentry.symm⟩

/-- If all indices are recorded and none has failed, the values are those of the tasks. -/
theorem values_of_records {entries : List (Nat × Except ε β)}
    (hperm : entries.Perm ((List.range count).map fun index => (index, result index)))
    {expected : List β} (hlength : expected.length = count)
    (hexpected : ∀ index (h : index < expected.length), result index = .ok expected[index]) :
    values count entries = expected := by
  have hslots : (slots count entries).toList = expected.map some := by
    apply List.ext_getElem?
    intro index
    rw [Array.getElem?_toList, List.getElem?_map]
    by_cases hindex : index < count
    · have hmem : index ∈ entries.map Prod.fst :=
        List.mem_map.mpr ⟨(index, result index), (mem_records_iff hperm).mpr ⟨hindex, rfl⟩, rfl⟩
      have hlt : index < expected.length := hlength ▸ hindex
      rw [getElem?_slots (fun entry hentry => ((mem_records_iff hperm).mp hentry).2) hindex hmem,
        hexpected index hlt, List.getElem?_eq_getElem hlt]
      rfl
    · rw [Array.getElem?_eq_none (by rw [size_slots]; omega),
        List.getElem?_eq_none (by omega)]
      rfl
  show (slots count entries).toList.filterMap id = expected
  rw [hslots]
  simp

/-- The value of the records of the first indices is that of the tasks in order, if there are enough
of them: all indices, or one that has failed. -/
theorem outcome_of_records {entries : List (Nat × Except ε β)} {handed : Nat}
    (hperm : entries.Perm ((List.range handed).map fun index => (index, result index)))
    (hhanded : handed ≤ count)
    (hcovers : (∃ index < handed, isError (result index) = true) ∨ handed = count) :
    outcome count entries = inOrder count result := by
  have hlowest := firstError?_lowest entries
  unfold outcome
  rcases inOrder_cases count result with ⟨expected, hexpected, hlength, hget⟩ |
    ⟨index, hindex, error, hfails, herror, hfirst⟩
  · have hvalue : ∀ index < handed, ∃ value, result index = .ok value :=
      fun index hindex => ⟨_, hget index (by omega)⟩
    have hall : handed = count := by
      rcases hcovers with ⟨index, hindex, herror⟩ | hall
      · obtain ⟨value, hvalue⟩ := hvalue index hindex
        rw [hvalue] at herror
        cases herror
      · exact hall
    subst hall
    cases hfound : firstError? entries with
    | none =>
        rw [hexpected]
        exact congrArg Except.ok (values_of_records hperm hlength hget)
    | some found =>
        rw [hfound] at hlowest
        obtain ⟨hlt, hentry⟩ := (mem_records_iff hperm).mp hlowest.1
        obtain ⟨value, hvalue⟩ := hvalue found.1 hlt
        rw [hvalue] at hentry
        cases hentry
  · -- the first failing index has been handed out, so its error is the one that is found
    have hlt : index < handed := by
      rcases hcovers with ⟨other, hother, herror'⟩ | hall
      · by_contra hge
        obtain ⟨value, hvalue⟩ := hfirst other (by omega)
        rw [hvalue] at herror'
        cases herror'
      · omega
    have hmem : (index, Except.error error) ∈ entries :=
      (mem_records_iff hperm).mpr ⟨hlt, herror.symm⟩
    cases hfound : firstError? entries with
    | none =>
        rw [hfound] at hlowest
        cases hlowest _ hmem
    | some found =>
        rw [hfound] at hlowest
        have hle : found.1 ≤ index := hlowest.2 _ hmem rfl
        have hentry := ((mem_records_iff hperm).mp hlowest.1).2
        have heq : found.1 = index := by
          by_contra hne
          obtain ⟨value, hvalue⟩ := hfirst found.1 (by omega)
          rw [hvalue] at hentry
          cases hentry
        rw [heq, herror] at hentry
        rw [hfails]
        exact congrArg Except.error (Except.error.inj hentry)

/-! ## The value of a pool -/

/-- A pool that has run until its workers stopped has the value of the tasks in order. -/
theorem outcome_of_steps {size : Nat} {pool : Pool ε β} (hsize : 0 < size)
    (hsteps : Steps count result (start size) pool) (hstopped : Stopped pool) :
    outcome count (records pool) = inOrder count result := by
  have hledger := (Ledger.initial size).steps hsteps
  have hworkers : pool.workers ≠ [] := by
    have hlength := length_workers_of_steps hsteps
    simp only [start, List.length_replicate] at hlength
    exact List.ne_nil_of_length_pos (hlength ▸ hsize)
  apply outcome_of_records (hledger.records_perm hstopped) (Nat.min_le_right _ _)
  rcases hledger.covers hstopped hworkers with hfailed | hcount
  · exact .inl hfailed
  · exact .inr (Nat.min_eq_right hcount)

section Effects

variable {m : Type → Type} [Monad m] {task : Nat → ExceptT ε m β} (results : Results m)
  (htask : ∀ index, results.Has (task index).run (result index))

include htask

/-- Tasks one after another have their results in order, in every sense. -/
theorem has_runSequential [LawfulMonad m] (count : Nat) :
    results.Has (runSequential count task).run (inOrder count result) := by
  unfold runSequential inOrder
  induction List.range count with
  | nil => exact results.of_pure _
  | cons index rest ih =>
      rw [List.mapM_cons, List.mapM_cons]
      refine results.bind_except (htask index) fun value => ?_
      exact results.bind_except ih fun values => results.of_pure _

/-- A pool of tasks has their results in order, in every sense. -/
theorem has_runIndexed [LawfulMonad m] (count workers : Nat) (schedule : Schedule) :
    results.Has (runIndexed count workers task schedule).run (inOrder count result) := by
  unfold runIndexed
  dsimp only
  generalize hsize : max 1 (min workers (max count 1)) = size
  by_cases hone : size = 1
  · rw [if_pos hone]
    exact has_runSequential results htask count
  · rw [if_neg hone]
    have hfuel : remaining count (start size : Pool ε β) ≤ maxSteps count size :=
      Nat.le_of_eq (remaining_start size)
    obtain ⟨hsteps, hstopped⟩ := run_complete schedule (maxSteps count size) _ hfuel
    apply results.bind (has_run results htask schedule _ _)
    rw [outcome_of_steps (by omega) hsteps hstopped]
    exact results.of_pure _

end Effects

/-- Tasks with determined results have one value in common, that of doing them in order: for every
number of workers that act in any order until all have stopped, for every schedule of the running
pool, and one after another. It consists of all values, or is the error of the lowest index that
fails. -/
theorem value_independent_of_schedule {m : Type → Type} [Monad m] [LawfulMonad m]
    {task : Nat → ExceptT ε m β} (htask : ∀ index, Gives (task index).run (result index))
    (count : Nat) :
    (∀ size pool, 0 < size → Steps count result (start size) pool → Stopped pool →
      outcome count (records pool) = inOrder count result) ∧
    (∀ workers schedule,
      Gives (runIndexed count workers task schedule).run (inOrder count result)) ∧
    Gives (runSequential count task).run (inOrder count result) ∧
    (∀ value : Nat → β, (∀ index < count, result index = .ok (value index)) →
      inOrder count result = .ok ((List.range count).map value)) ∧
    ∀ index < count, ∀ error, result index = .error error →
      (∀ earlier < index, ∃ value, result earlier = .ok value) →
      inOrder count result = .error error := by
  refine ⟨?_, ?_, has_runSequential .given htask count, ?_, ?_⟩
  · intro size pool hsize hsteps hstopped
    exact outcome_of_steps hsize hsteps hstopped
  · intro workers schedule
    exact has_runIndexed .given htask count workers schedule
  · intro value hvalue
    refine inOrder_eq_ok_iff.mpr ⟨by simp, ?_⟩
    intro index hindex
    rw [List.getElem_map, List.getElem_range]
    exact hvalue index (by simpa using hindex)
  · intro index hindex error herror hfirst
    exact inOrder_eq_error_iff.mpr ⟨index, hindex, herror, hfirst⟩

/-- A task that counts its calls and fails if its index is odd. -/
def countingTask (index : Nat) : ExceptT Nat (StateM Nat) Nat := do
  modify (· + 1)
  if index % 2 = 1 then throw index else return index

/-- Four tasks that count their calls, of which the second and the fourth fail: two workers give the
error of the second, on every schedule and wherever their actions have led when both have stopped,
as they can. -/
theorem value_of_counting_tasks :
    (∀ index, Gives (countingTask index).run
      (if index % 2 = 1 then .error index else .ok index)) ∧
    (∀ schedule, Gives (runIndexed 4 2 countingTask schedule).run (.error 1)) ∧
    (∃ pool : Pool Nat Nat,
      Steps 4 (fun index => if index % 2 = 1 then .error index else .ok index) (start 2) pool ∧
      Stopped pool) ∧
    ∀ pool : Pool Nat Nat,
      Steps 4 (fun index => if index % 2 = 1 then .error index else .ok index) (start 2) pool →
      Stopped pool → outcome 4 (records pool) = .error 1 := by
  have htask : ∀ index, Gives (countingTask index).run
      (if index % 2 = 1 then .error index else .ok index) := by
    intro index
    rw [gives_state_iff]
    intro calls
    unfold countingTask
    split <;> rfl
  obtain ⟨hpool, hschedule, -⟩ := value_independent_of_schedule htask 4
  refine ⟨htask, hschedule 2, ?_, fun pool => hpool 2 pool Nat.two_pos⟩
  exact ⟨_, run_complete Schedule.first (maxSteps 4 2) (start 2)
    (Nat.le_of_eq (remaining_start 2))⟩

end SingingVoice.WorkerPool
