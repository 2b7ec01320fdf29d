import SingingVoice.Proofs.Result
import SingingVoice.Proofs.Segment.Frames
import SingingVoice.Segment.Overlay

/-!
# The order of mixing

Segments are added to a mix one after another. If sums do not depend on the order of what is added,
neither does the mix (`Segment.mix_perm`): two segments that are added in turn may change places
(`Draft.mixAt_right_comm`), whatever their lengths are.
-/

namespace SingingVoice

variable {α : Type} [Scalar α]

/-- Two segments may be added in either order. -/
theorem Draft.mixAt_right_comm (hexact : ∀ x y z : α, x + y + z = x + z + y) (draft : Draft α)
    (first second : Segment α) :
    (draft.mixAt 0 first).mixAt 0 second = (draft.mixAt 0 second).mixAt 0 first := by
  have hsample : ∀ (draft : Draft α) (segment : Segment α) (index : Nat),
      (draft.mixAt 0 segment).samples[index]? =
        segment.samples[index]?.elim draft.samples[index]?
          fun x => draft.samples[index]?.map (· + x) := by
    intro draft segment index
    rw [mixAt, addFrom, getElem?_addFrom_go, Nat.zero_mul, if_pos (Nat.zero_le _), Nat.sub_zero]
  have hsamples : ((draft.mixAt 0 first).mixAt 0 second).samples =
      ((draft.mixAt 0 second).mixAt 0 first).samples := by
    refine Array.ext_getElem? fun index => ?_
    simp only [hsample]
    cases first.samples[index]? with
    | none => rfl
    | some x =>
      cases second.samples[index]? with
      | none => rfl
      | some y =>
        cases draft.samples[index]? with
        | none => rfl
        | some z => exact congrArg some (hexact z x y)
  exact congrArg (Draft.mk · draft.format) hsamples

/-- The order of the tracks does not matter to a mix. -/
theorem Segment.mix_perm [Resampler α] (hexact : ∀ x y z : α, x + y + z = x + z + y)
    {format : Format} {tracks tracks' : List (Segment α)} {result : Segment α}
    (hperm : tracks.Perm tracks') (h : mix format tracks = .ok result) :
    mix format tracks' = .ok result := by
  obtain ⟨conformed, hconformed, h⟩ := Except.bind_eq_ok.mp h
  obtain ⟨conformed', hconformed', hperm'⟩ := Except.mapM_perm hperm hconformed
  refine Except.bind_eq_ok.mpr ⟨conformed', hconformed', ?_⟩
  have hframes : conformed'.foldl (fun longest track => max longest track.frames) 0 =
      conformed.foldl (fun longest track => max longest track.frames) 0 := by
    refine hperm'.symm.foldl_eq' ?_ 0
    intro first _ second _ longest
    exact max_right_comm longest first.frames second.frames
  have hmix : ∀ silence : Draft α,
      conformed'.foldl (fun draft track => draft.mixAt 0 track) silence =
        conformed.foldl (fun draft track => draft.mixAt 0 track) silence := by
    intro silence
    refine hperm'.symm.foldl_eq' ?_ silence
    intro first _ second _ draft
    exact draft.mixAt_right_comm hexact first second
  dsimp only at h ⊢
  rw [← h, hframes, hmix]

end SingingVoice
