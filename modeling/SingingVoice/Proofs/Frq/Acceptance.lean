import SingingVoice.Proofs.Frq.Layout

/-!
# The bytes that hold frequency maps

`Frq.decode` accepts exactly the bytes that hold a frequency map, and tells why it refuses others.
It never looks for a byte after the last: `Frq.read?` takes the fields one after the other and gives
up where one is missing, but has the same results as `Frq.decode` on all bytes. The main theorem is
`decode_accepts_exactly`.
-/

namespace SingingVoice.Frq

/-! ## Reading in sequence -/

/-- The next so many bytes and those after them; nothing if there are not so many. -/
def next? (width : Nat) (bytes : List UInt8) : Option (List UInt8 × List UInt8) :=
  if width ≤ bytes.length then some (bytes.take width, bytes.drop width) else none

/-- The next so many frames, all of which must be there. -/
def nextFrames? : Nat → List UInt8 → Option (List (Frame UInt64))
  | 0, _ => some []
  | count + 1, bytes => do
    let (frequency, rest) ← next? 8 bytes
    let (amplitude, rest) ← next? 8 rest
    let frames ← nextFrames? count rest
    return ⟨UInt64.ofNat (Word.ofBytes frequency), UInt64.ofNat (Word.ofBytes amplitude)⟩ :: frames

/-- Reads a frequency map field by field. There is no result if a field that is to be read goes past
the end of the bytes. -/
def read? (bytes : List UInt8) : Option (Except Fault (Frq UInt64)) := do
  if bytes.length < headerSize then return .error (.truncatedHeader bytes.length)
  let (found, rest) ← next? magic.length bytes
  if found ≠ magic then return .error (.badMagic found)
  let (hop, rest) ← next? 4 rest
  let (average, rest) ← next? 8 rest
  let (_, rest) ← next? reservedSize rest
  let (count, rest) ← next? 4 rest
  let count := Word.signed 4 (Word.ofBytes count)
  if count < 0 then return .error (.negativeCount count)
  if rest.length < count.toNat * frameSize then
    return .error (.truncatedFrames count.toNat rest.length)
  let frames ← nextFrames? count.toNat rest
  return .ok {
    hop := (UInt32.ofNat (Word.ofBytes hop)).toInt32
    average := UInt64.ofNat (Word.ofBytes average)
    frames }

/-- Bytes from a place on are there if so many of them follow the place. -/
theorem next?_drop {bytes : List UInt8} {start width : Nat} (h : start + width ≤ bytes.length) :
    next? width (bytes.drop start) =
      some ((bytes.drop start).take width, bytes.drop (start + width)) := by
  have hrest : width ≤ (bytes.drop start).length := by
    rw [List.length_drop]
    omega
  rw [next?, if_pos hrest, List.drop_drop]

/-- Frames are there if there are bytes for them. -/
theorem nextFrames?_eq {count : Nat} {bytes : List UInt8} (h : frameSize * count ≤ bytes.length) :
    nextFrames? count bytes = some (decodeFrames count bytes) := by
  induction count generalizing bytes with
  | zero => rfl
  | succ count ih =>
      have hfirst : 8 + 8 ≤ bytes.length :=
        Nat.le_trans (Nat.le_mul_of_pos_right _ (Nat.succ_pos count)) h
      have hfrequency : next? 8 bytes = some (bytes.take 8, bytes.drop 8) :=
        if_pos (Nat.le_trans (by decide) hfirst)
      have hamplitude : next? 8 (bytes.drop 8) =
          some ((bytes.drop 8).take 8, bytes.drop frameSize) := next?_drop hfirst
      have hrest : frameSize * count ≤ (bytes.drop frameSize).length := by
        rw [Nat.mul_succ] at h
        rw [List.length_drop]
        omega
      simp only [nextFrames?, hfrequency, hamplitude, ih hrest, Option.bind_eq_bind,
        Option.bind_some]
      rfl

/-- Reading field by field never goes past the end of the bytes, and has the results of `decode`. -/
theorem read?_eq_decode (bytes : List UInt8) : read? bytes = some (decode bytes) := by
  rw [decode_eq]
  by_cases hheader : bytes.length < headerSize
  · simp only [read?, hheader, ↓reduceIte]
    rfl
  · -- the header is all there, so each of its fields is
    have hlength : 40 ≤ bytes.length := Nat.not_lt.mp hheader
    have hfound : next? magic.length bytes = some (bytes.take magic.length, bytes.drop 8) := by
      rw [next?, if_pos (by rw [length_magic]; omega), length_magic]
    have hhop : next? 4 (bytes.drop 8) = some ((bytes.drop 8).take 4, bytes.drop 12) :=
      next?_drop (by omega)
    have haverage : next? 8 (bytes.drop 12) = some ((bytes.drop 12).take 8, bytes.drop 20) :=
      next?_drop (by omega)
    have hreserved : next? reservedSize (bytes.drop 20) =
        some ((bytes.drop 20).take reservedSize, bytes.drop 36) :=
      next?_drop (show 20 + 16 ≤ bytes.length by omega)
    have hcount : next? 4 (bytes.drop 36) = some ((bytes.drop 36).take 4, bytes.drop headerSize) :=
      next?_drop hlength
    have hdeclared : Word.signed 4 (Word.ofBytes ((bytes.drop 36).take 4)) = declared bytes := rfl
    simp only [read?, hheader, hfound, hhop, haverage, hreserved, hcount, hdeclared,
      List.length_drop, Option.bind_eq_bind, Option.bind_some, ↓reduceIte]
    split
    · rfl
    · split
      · rfl
      · split
        · rfl
        · rename_i hbody
          have hframes : nextFrames? (declared bytes).toNat (bytes.drop headerSize) =
              some (decodeFrames (declared bytes).toNat (bytes.drop headerSize)) := by
            apply nextFrames?_eq
            rw [List.length_drop, Nat.mul_comm]
            exact Nat.not_lt.mp hbody
          rw [hframes]
          rfl

/-! ## Beginnings of written maps -/

/-- Bytes that follow a word do not change it. -/
theorem wordAt_append_of_le {bytes : List UInt8} {start width : Nat}
    (h : start + width ≤ bytes.length) (rest : List UInt8) :
    wordAt (bytes ++ rest) start width = wordAt bytes start width := by
  have hstart : start ≤ bytes.length := by omega
  have hwidth : width ≤ (bytes.drop start).length := by
    rw [List.length_drop]
    omega
  rw [wordAt, List.drop_append_of_le_length hstart, List.take_append_of_le_length hwidth]
  rfl

/-- The beginning of a written map does not hold a map, unless it is all that is written. -/
theorem not_holds_of_beginning {frq : Frq UInt64} (h : frq.frames.length ≤ maxFrames)
    {bytes : List UInt8} (hbegins : bytes <+: encode frq) (hstrict : bytes ≠ encode frq) :
    ¬ Holds bytes := by
  intro hholds
  obtain ⟨rest, hrest⟩ := hbegins
  -- the header is all there and declares as many frames as the map has
  have hdeclared : declared bytes = frq.frames.length := by
    rw [← declared_encode h, ← hrest, declared, declared, wordAt_append_of_le hholds.header]
  have hbody := hholds.body
  have hlength := length_encode frq
  rw [hdeclared, Int.toNat_natCast, ← hlength, ← hrest, List.length_append] at hbody
  have hnothing : rest = [] := List.eq_nil_of_length_eq_zero (by omega)
  rw [hnothing, List.append_nil] at hrest
  exact hstrict hrest

/-- Bytes are decoded exactly if they are long enough for a header, begin with the magic, declare a
number of frames that is not negative, and have sixteen bytes for each of them after the header.
Other bytes are refused for the first of these that fails, and no field is read past the end. What
is decoded is written as the bytes up to the last frame, with zeros in the reserved place. So no
beginning of a written map is decoded, but for the whole of it. -/
theorem decode_accepts_exactly (bytes : List UInt8) :
    ((∃ frq, decode bytes = .ok frq) ↔
      40 ≤ bytes.length ∧ magic <+: bytes ∧ 0 ≤ declared bytes ∧
        40 + 16 * (declared bytes).toNat ≤ bytes.length) ∧
    (∀ fault, decode bytes = .error fault ↔ Refused bytes fault) ∧
    read? bytes = some (decode bytes) ∧
    (∀ frq, decode bytes = .ok frq →
      encode frq = bytes.take 20 ++ List.replicate 16 0 ++
        (bytes.take (40 + 16 * (declared bytes).toNat)).drop 36) ∧
    ∀ frq : Frq UInt64, frq.frames.length ≤ maxFrames → bytes <+: encode frq →
      bytes ≠ encode frq → ∃ fault, decode bytes = .error fault := by
  refine ⟨?_, fun fault => decode_error_iff, read?_eq_decode bytes, ?_, ?_⟩
  · constructor
    · rintro ⟨frq, hfrq⟩
      obtain ⟨hholds, -⟩ := decode_ok_iff.mp hfrq
      exact ⟨hholds.header, hholds.magic, hholds.count, hholds.body⟩
    · rintro ⟨hheader, hmagic, hcount, hbody⟩
      exact ⟨_, decode_of_holds ⟨hheader, hmagic, hcount, hbody⟩⟩
  · intro frq hfrq
    obtain ⟨hholds, rfl⟩ := decode_ok_iff.mp hfrq
    exact encode_content hholds
  · intro frq hframes hbegins hstrict
    rcases holds_or_refused bytes with hholds | ⟨fault, hrefused⟩
    · exact absurd hholds (not_holds_of_beginning hframes hbegins hstrict)
    · exact ⟨fault, decode_of_refused hrefused⟩

end SingingVoice.Frq
