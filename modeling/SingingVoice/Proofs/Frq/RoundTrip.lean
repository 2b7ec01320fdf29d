import SingingVoice.Proofs.Frq.Layout

/-!
# Frequency maps through bytes and back

A frequency map with no more frames than a header can declare is read back from its bytes, every
pattern as it was and whatever stands after the frames. The main theorem is
`frames_survive_encoding`.
-/

namespace SingingVoice.Frq

/-- A map is read back from its bytes and any bytes after them. -/
theorem decode_encode_append {frq : Frq UInt64} (h : frq.frames.length ≤ maxFrames)
    (trailing : List UInt8) : decode (encode frq ++ trailing) = .ok frq := by
  rw [encode_append, decode_of_holds (holds_layout length_reserved trailing frq h),
    content_layout length_reserved trailing frq h]

/-- A map is read back from its bytes. -/
theorem decode_encode {frq : Frq UInt64} (h : frq.frames.length ≤ maxFrames) :
    decode (encode frq) = .ok frq := by
  have hdecode := decode_encode_append h []
  rwa [List.append_nil] at hdecode

section Numbers

variable {α : Type} [BitPattern α]

/-- Numbers that are kept by their patterns are kept in maps. -/
theorem map_ofBits_toBits (hpattern : ∀ x : α, BitPattern.ofBits (BitPattern.toBits x) = x)
    (frq : Frq α) : (frq.map BitPattern.toBits).map BitPattern.ofBits = frq := by
  have hframe : ∀ frame : Frame α,
      (frame.map BitPattern.toBits).map BitPattern.ofBits = frame := by
    intro frame
    simp only [Frame.map, hpattern]
  simp only [map, List.map_map, Function.comp_def, hpattern, hframe, List.map_id']

/-- A map of numbers that are kept by their patterns is read back from its bytes. -/
theorem ofBytes_toBytes_append
    (hpattern : ∀ x : α, BitPattern.ofBits (BitPattern.toBits x) = x) {frq : Frq α}
    (h : frq.frames.length ≤ maxFrames) (trailing : List UInt8) :
    ofBytes (toBytes frq ++ trailing) = .ok frq := by
  have hlength : (frq.map BitPattern.toBits).frames.length ≤ maxFrames := by
    rw [map, List.length_map]
    exact h
  rw [ofBytes, toBytes, decode_encode_append hlength]
  exact congrArg Except.ok (map_ofBits_toBits hpattern frq)

end Numbers

/-- A frequency map with no more frames than a header can declare takes up forty bytes and sixteen
for each frame. It is read back from them, also with other bytes after them, and is then written as
the same bytes again. So is a map of binary64 numbers, whatever their patterns. -/
theorem frames_survive_encoding (frq : Frq UInt64) (h : frq.frames.length ≤ maxFrames) :
    (encode frq).length = 40 + 16 * frq.frames.length ∧
    decode (encode frq) = .ok frq ∧
    (decode (encode frq)).map encode = .ok (encode frq) ∧
    (∀ trailing, decode (encode frq ++ trailing) = .ok frq) ∧
    ∀ numbers : Frq Double, numbers.map BitPattern.toBits = frq →
      ∀ trailing, ofBytes (toBytes numbers ++ trailing) = .ok numbers := by
  refine ⟨length_encode frq, decode_encode h, ?_, decode_encode_append h, ?_⟩
  · rw [decode_encode h]
    rfl
  · rintro numbers rfl trailing
    apply ofBytes_toBytes_append fun _ => rfl
    rw [map, List.length_map] at h
    exact h

/-- A negative hop, an average that is not a number and has a payload, an infinity and a negative
zero are read back, with two bytes after the only frame. -/
theorem odd_patterns_survive_encoding :
    let frq : Frq UInt64 :=
      ⟨-256, 0x7ff800000000cafe, [⟨0xfff0000000000000, 0x8000000000000000⟩]⟩
    frq.frames.length ≤ maxFrames ∧ (encode frq).length = 56 ∧ decode (encode frq) = .ok frq ∧
      decode (encode frq ++ [1, 2]) = .ok frq := by
  intro frq
  have hframes : frq.frames.length ≤ maxFrames := by decide
  obtain ⟨hlength, hdecode, -, htrailing, -⟩ := frames_survive_encoding frq hframes
  exact ⟨hframes, hlength, hdecode, htrailing [1, 2]⟩

end SingingVoice.Frq
