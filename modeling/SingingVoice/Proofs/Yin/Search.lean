import SingingVoice.Yin

/-!
# The search for a dip

The search takes the first lag with a value below the threshold and goes down from there until the
values rise or the range ends. `Descended` says where a descent stops, `Accepted` where a search
does, and `firstDip?_cases` that it stops so, or that all values are too large.
-/

namespace SingingVoice.Yin

variable {α : Type} [Scalar α] {values : Array α} {limit lag found : Nat}

/-- A descent from a lag stops at another. -/
structure Descended (values : Array α) (limit lag found : Nat) : Prop where
  /-- It does not go back. -/
  le : lag ≤ found
  /-- Every value that it comes to is below the one before. -/
  falling : ∀ k, lag ≤ k → k < found → values.getD (k + 1) 0.0 < values.getD k 0.0
  /-- It does not reach the limit. -/
  lt : lag < limit → found < limit
  /-- Short of the last lag it stops only where the next value is not below. -/
  stops : found + 1 < limit → ¬ values.getD (found + 1) 0.0 < values.getD found 0.0

/-- Every descent stops so. -/
theorem descended (values : Array α) (limit lag : Nat) :
    Descended values limit lag (descend values limit lag) := by
  fun_induction descend values limit lag with
  | case1 lag h ih =>
      refine ⟨Nat.le_of_succ_le ih.le, fun k hlag hk => ?_, fun _ => ih.lt h.1, ih.stops⟩
      rcases Nat.eq_or_lt_of_le hlag with rfl | hlag
      · exact h.2
      · exact ih.falling k hlag hk
  | case2 lag h =>
      exact ⟨Nat.le_refl lag, fun k hlag hk => absurd hk (Nat.not_lt.mpr hlag), fun hlag => hlag,
        fun hnext hbelow => h ⟨hnext, hbelow⟩⟩

/-- A descent stays where it is, or ends below the value before. -/
theorem Descended.eq_or_falling (h : Descended values limit lag found) :
    found = lag ∨ 0 < found ∧ values.getD found 0.0 < values.getD (found - 1) 0.0 := by
  rcases Nat.eq_or_lt_of_le h.le with heq | hlt
  · exact .inl heq.symm
  · have hfound : found - 1 + 1 = found := Nat.sub_add_cancel (Nat.zero_lt_of_lt hlt)
    have hfalling := h.falling (found - 1) (Nat.le_sub_one_of_lt hlt) (by omega)
    rw [hfound] at hfalling
    exact .inr ⟨Nat.zero_lt_of_lt hlt, hfalling⟩

/-- A search from a lag takes the lag `first` and stops at the lag `found`. -/
structure Accepted (threshold : α) (values : Array α) (limit lag first found : Nat) : Prop where
  /-- The search does not go back. -/
  le : lag ≤ first
  /-- It does not reach the limit. -/
  lt : first < limit
  /-- It passes over values that are not below the threshold. -/
  before : ∀ k, lag ≤ k → k < first → ¬ values.getD k 0.0 < threshold
  /-- It takes a value that is. -/
  below : values.getD first 0.0 < threshold
  /-- It goes down from there. -/
  descended : Descended values limit first found

/-- A search finds no value below the threshold, or takes the first one. -/
theorem firstDip?_cases (threshold : α) (values : Array α) (limit lag : Nat) :
    (firstDip? threshold values limit lag = none ∧
      ∀ k, lag ≤ k → k < limit → ¬ values.getD k 0.0 < threshold) ∨
    ∃ first found, firstDip? threshold values limit lag = some found ∧
      Accepted threshold values limit lag first found := by
  fun_induction firstDip? threshold values limit lag with
  | case1 lag hlag hbelow =>
      exact .inr ⟨lag, _, rfl, Nat.le_refl lag, hlag,
        fun k hk hk' => absurd hk' (Nat.not_lt.mpr hk), hbelow, descended values limit lag⟩
  | case2 lag hlag hbelow ih =>
      -- what holds of the lags after this one holds of this one too
      have hcons {bound : Nat}
          (h : ∀ k, lag + 1 ≤ k → k < bound → ¬ values.getD k 0.0 < threshold) :
          ∀ k, lag ≤ k → k < bound → ¬ values.getD k 0.0 < threshold := by
        intro k hk hk'
        rcases Nat.eq_or_lt_of_le hk with rfl | hk
        · exact hbelow
        · exact h k hk hk'
      rcases ih with ⟨hnone, hrest⟩ | ⟨first, found, hfound, haccepted⟩
      · exact .inl ⟨hnone, hcons hrest⟩
      · exact .inr ⟨first, found, hfound, Nat.le_of_succ_le haccepted.le, haccepted.lt,
          hcons haccepted.before, haccepted.below, haccepted.descended⟩
  | case3 lag hlag =>
      exact .inl ⟨rfl, fun k hk hk' => absurd (Nat.lt_of_le_of_lt hk hk') hlag⟩

/-- A search that stops has taken a lag. -/
theorem accepted_of_firstDip? {threshold : α}
    (h : firstDip? threshold values limit lag = some found) :
    ∃ first, Accepted threshold values limit lag first found := by
  rcases firstDip?_cases threshold values limit lag with
    ⟨hnone, -⟩ | ⟨first, other, hfound, haccepted⟩
  · exact absurd (h.symm.trans hnone) (Option.some_ne_none found)
  · obtain rfl : found = other := Option.some.inj (h.symm.trans hfound)
    exact ⟨first, haccepted⟩

end SingingVoice.Yin
