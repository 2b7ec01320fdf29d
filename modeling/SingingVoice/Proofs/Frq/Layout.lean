import SingingVoice.Frq.Codec
import SingingVoice.Proofs.Word

/-!
# The layout of frequency maps in bytes

Where the fields of a frequency map stand in its bytes. `Holds` says that bytes are long enough for
what their header declares; then `decode` gives their `content` (`decode_ok_iff`). `Refused` says
why they are not, and `decode` fails for the same reason (`decode_error_iff`). The fields lead from
a map to its bytes and back (`content_layout`) and from bytes to a map and back (`encode_content`).
-/

namespace SingingVoice.Frq

/-! ## Bytes of a map -/

/-- The bytes of a frequency map with other bytes in the reserved place and after its frames. -/
def layout (reserved trailing : List UInt8) (frq : Frq UInt64) : List UInt8 :=
  magic ++ (Word.bytes 4 frq.hop.toUInt32.toNat ++ (Word.bytes 8 frq.average.toNat ++
    (reserved ++ (Word.bytes 4 frq.frames.length ++
      (frq.frames.flatMap encodeFrame ++ trailing)))))

/-- The magic has eight bytes. -/
@[simp] theorem length_magic : magic.length = 8 := by
  decide +kernel

/-- Written bytes have zeros in the reserved place. -/
theorem encode_append (frq : Frq UInt64) (trailing : List UInt8) :
    encode frq ++ trailing = layout (List.replicate reservedSize 0) trailing frq := by
  simp only [encode, layout, List.append_assoc]

/-- The reserved place is filled. -/
theorem length_reserved : (List.replicate reservedSize (0 : UInt8)).length = reservedSize :=
  List.length_replicate

/-- A frame takes up as many bytes as are set aside for it. -/
@[simp] theorem length_encodeFrame (frame : Frame UInt64) :
    (encodeFrame frame).length = frameSize := by
  rw [encodeFrame, List.length_append, Word.length_bytes, Word.length_bytes]
  rfl

/-- Frames take up as many bytes as are set aside for them. -/
@[simp] theorem length_encodeFrames (frames : List (Frame UInt64)) :
    (frames.flatMap encodeFrame).length = frameSize * frames.length := by
  induction frames with
  | nil => rfl
  | cons frame frames ih =>
      rw [List.flatMap_cons, List.length_append, length_encodeFrame, ih, List.length_cons,
        Nat.mul_succ, Nat.add_comm]

/-- The bytes of a map are its header and its frames. -/
theorem length_encode (frq : Frq UInt64) :
    (encode frq).length = headerSize + frameSize * frq.frames.length := by
  rw [encode, List.length_append, length_encodeFrames]
  simp only [List.length_append, length_magic, Word.length_bytes, List.length_replicate]
  rfl

/-! ## Fields of bytes -/

/-- The number of frames that a header declares. -/
def declared (bytes : List UInt8) : Int :=
  Word.signed 4 (wordAt bytes 36 4)

/-- The frequency map that the fields of bytes make up. -/
def content (bytes : List UInt8) : Frq UInt64 where
  hop := (UInt32.ofNat (wordAt bytes 8 4)).toInt32
  average := UInt64.ofNat (wordAt bytes 12 8)
  frames := decodeFrames (declared bytes).toNat (bytes.drop headerSize)

/-- Bytes hold a frequency map: they begin with a header, and have the frames that it declares. -/
structure Holds (bytes : List UInt8) : Prop where
  header : headerSize ≤ bytes.length
  magic : magic <+: bytes
  count : 0 ≤ declared bytes
  body : headerSize + frameSize * (declared bytes).toNat ≤ bytes.length

/-- A word of bytes that start with it. -/
theorem wordAt_append_left {field : List UInt8} {width : Nat} (h : field.length = width)
    (rest : List UInt8) : wordAt (field ++ rest) 0 width = Word.ofBytes field := by
  rw [wordAt, List.drop_zero, List.take_left' h]

/-- A word of bytes that start with others. -/
theorem wordAt_append_right {before : List UInt8} {size : Nat} (h : before.length = size)
    (rest : List UInt8) (start width : Nat) :
    wordAt (before ++ rest) (size + start) width = wordAt rest start width := by
  rw [wordAt, ← List.drop_drop, List.drop_left' h]
  rfl

/-- A word is below the count of words of its width. -/
theorem wordAt_lt (bytes : List UInt8) (start width : Nat) :
    wordAt bytes start width < 256 ^ width := by
  apply Nat.lt_of_lt_of_le (Word.ofBytes_lt _)
  exact Nat.pow_le_pow_right (by decide) (List.length_take_le _ _)

/-- The bytes of a word that does not go past the end. -/
theorem bytes_wordAt {bytes : List UInt8} {start width : Nat} (h : start + width ≤ bytes.length) :
    Word.bytes width (wordAt bytes start width) = (bytes.drop start).take width := by
  have hlength : ((bytes.drop start).take width).length = width := by
    rw [List.length_take, List.length_drop]
    omega
  have hbytes := Word.bytes_ofBytes ((bytes.drop start).take width)
  rw [hlength] at hbytes
  exact hbytes

/-! ## What is decoded -/

/-- The checks of `decode`, in their order. -/
theorem decode_eq (bytes : List UInt8) :
    decode bytes =
      if bytes.length < headerSize then .error (.truncatedHeader bytes.length)
      else if bytes.take magic.length ≠ magic then .error (.badMagic (bytes.take magic.length))
      else if declared bytes < 0 then .error (.negativeCount (declared bytes))
      else if bytes.length - headerSize < (declared bytes).toNat * frameSize then
        .error (.truncatedFrames (declared bytes).toNat (bytes.length - headerSize))
      else .ok (content bytes) := by
  unfold decode
  dsimp only
  rw [List.length_drop, ← declared]
  split
  · rfl
  · split
    · rfl
    · split
      · rfl
      · split
        · rfl
        · rfl

/-- The magic is found at the start of bytes exactly if they begin with it. -/
theorem magic_prefix_iff {bytes : List UInt8} :
    magic <+: bytes ↔ bytes.take magic.length = magic := by
  rw [List.prefix_iff_eq_take]
  exact eq_comm

/-- Bytes that hold a frequency map are decoded to it. -/
theorem decode_of_holds {bytes : List UInt8} (h : Holds bytes) :
    decode bytes = .ok (content bytes) := by
  have hbody := h.body
  rw [decode_eq, if_neg (Nat.not_lt.mpr h.header),
    if_neg (not_not_intro (magic_prefix_iff.mp h.magic)), if_neg (Int.not_lt.mpr h.count), if_neg]
  rw [Nat.mul_comm]
  omega

/-- Why bytes do not hold a frequency map: the first of the checks that they do not pass. -/
inductive Refused (bytes : List UInt8) : Fault → Prop where
  | header : bytes.length < headerSize → Refused bytes (.truncatedHeader bytes.length)
  | magic : headerSize ≤ bytes.length → ¬ magic <+: bytes →
      Refused bytes (.badMagic (bytes.take magic.length))
  | count : headerSize ≤ bytes.length → magic <+: bytes → declared bytes < 0 →
      Refused bytes (.negativeCount (declared bytes))
  | body : headerSize ≤ bytes.length → magic <+: bytes → 0 ≤ declared bytes →
      bytes.length < headerSize + frameSize * (declared bytes).toNat →
      Refused bytes (.truncatedFrames (declared bytes).toNat (bytes.length - headerSize))

/-- Bytes that are refused are not decoded, for the reason that they are refused for. -/
theorem decode_of_refused {bytes : List UInt8} {fault : Fault} (h : Refused bytes fault) :
    decode bytes = .error fault := by
  rw [decode_eq]
  cases h with
  | header hheader => rw [if_pos hheader]
  | magic hheader hmagic =>
      have hfound : bytes.take Frq.magic.length ≠ Frq.magic := mt magic_prefix_iff.mpr hmagic
      rw [if_neg (Nat.not_lt.mpr hheader), if_pos hfound]
  | count hheader hmagic hcount =>
      rw [if_neg (Nat.not_lt.mpr hheader), if_neg (not_not_intro (magic_prefix_iff.mp hmagic)),
        if_pos hcount]
  | body hheader hmagic hcount hbody =>
      rw [if_neg (Nat.not_lt.mpr hheader), if_neg (not_not_intro (magic_prefix_iff.mp hmagic)),
        if_neg (Int.not_lt.mpr hcount), if_pos]
      rw [Nat.mul_comm]
      omega

/-- Bytes hold a frequency map or there is a reason why they do not. -/
theorem holds_or_refused (bytes : List UInt8) : Holds bytes ∨ ∃ fault, Refused bytes fault := by
  by_cases hheader : headerSize ≤ bytes.length
  · by_cases hmagic : magic <+: bytes
    · by_cases hcount : 0 ≤ declared bytes
      · by_cases hbody : headerSize + frameSize * (declared bytes).toNat ≤ bytes.length
        · exact .inl ⟨hheader, hmagic, hcount, hbody⟩
        · exact .inr ⟨_, .body hheader hmagic hcount (Nat.not_le.mp hbody)⟩
      · exact .inr ⟨_, .count hheader hmagic (Int.not_le.mp hcount)⟩
    · exact .inr ⟨_, .magic hheader hmagic⟩
  · exact .inr ⟨_, .header (Nat.not_le.mp hheader)⟩

/-- Bytes are decoded exactly if they hold a frequency map. -/
theorem decode_ok_iff {bytes : List UInt8} {frq : Frq UInt64} :
    decode bytes = .ok frq ↔ Holds bytes ∧ content bytes = frq := by
  constructor
  · intro h
    rcases holds_or_refused bytes with hholds | ⟨fault, hrefused⟩
    · rw [decode_of_holds hholds] at h
      exact ⟨hholds, Except.ok.inj h⟩
    · rw [decode_of_refused hrefused] at h
      cases h
  · rintro ⟨hholds, rfl⟩
    exact decode_of_holds hholds

/-- Bytes fail to be decoded exactly for the reason that they are refused for. -/
theorem decode_error_iff {bytes : List UInt8} {fault : Fault} :
    decode bytes = .error fault ↔ Refused bytes fault := by
  constructor
  · intro h
    rcases holds_or_refused bytes with hholds | ⟨other, hrefused⟩
    · rw [decode_of_holds hholds] at h
      cases h
    · rw [decode_of_refused hrefused] at h
      cases h
      exact hrefused
  · exact decode_of_refused

/-! ## From a map to bytes and back -/

/-- Frames are read back from their bytes. -/
theorem decodeFrames_append (frames : List (Frame UInt64)) (trailing : List UInt8) :
    decodeFrames frames.length (frames.flatMap encodeFrame ++ trailing) = frames := by
  induction frames with
  | nil => rfl
  | cons frame frames ih =>
      have hfrequency : wordAt (encodeFrame frame ++ (frames.flatMap encodeFrame ++ trailing)) 0 8 =
          frame.frequency.toNat := by
        rw [encodeFrame, List.append_assoc, wordAt_append_left (Word.length_bytes 8 _)]
        exact Word.ofBytes_bytes_of_lt frame.frequency.toNat_lt
      have hamplitude : wordAt (encodeFrame frame ++ (frames.flatMap encodeFrame ++ trailing)) 8 8 =
          frame.amplitude.toNat := by
        rw [encodeFrame, List.append_assoc]
        rw [wordAt_append_right (Word.length_bytes 8 _) _ 0,
          wordAt_append_left (Word.length_bytes 8 _)]
        exact Word.ofBytes_bytes_of_lt frame.amplitude.toNat_lt
      rw [List.flatMap_cons, List.append_assoc, List.length_cons, decodeFrames, hfrequency,
        hamplitude, List.drop_left' (length_encodeFrame frame), ih, UInt64.ofNat_toNat,
        UInt64.ofNat_toNat]

/-- The largest number of frames that a header can declare. -/
def maxFrames : Nat :=
  Int32.maxValue.toInt.toNat

section Fields

variable {reserved : List UInt8} (hreserved : reserved.length = reservedSize)
  (trailing : List UInt8) (frq : Frq UInt64)

/-- The hop is found in its place. -/
theorem wordAt_layout_hop : wordAt (layout reserved trailing frq) 8 4 = frq.hop.toUInt32.toNat := by
  rw [layout, wordAt_append_right length_magic _ 0,
    wordAt_append_left (Word.length_bytes 4 _)]
  exact Word.ofBytes_bytes_of_lt frq.hop.toUInt32.toNat_lt

/-- The average is found in its place. -/
theorem wordAt_layout_average :
    wordAt (layout reserved trailing frq) 12 8 = frq.average.toNat := by
  rw [layout, wordAt_append_right length_magic _ 4,
    wordAt_append_right (Word.length_bytes 4 _) _ 0,
    wordAt_append_left (Word.length_bytes 8 _)]
  exact Word.ofBytes_bytes_of_lt frq.average.toNat_lt

include hreserved in
/-- The bytes after the reserved ones are found in their place. -/
theorem drop_layout : (layout reserved trailing frq).drop 36 =
    Word.bytes 4 frq.frames.length ++ (frq.frames.flatMap encodeFrame ++ trailing) := by
  have hplace : 36 = 8 + (4 + (8 + reserved.length)) := by rw [hreserved]; rfl
  rw [layout, hplace, ← List.drop_drop, List.drop_left' length_magic, ← List.drop_drop,
    List.drop_left' (Word.length_bytes 4 _), ← List.drop_drop,
    List.drop_left' (Word.length_bytes 8 _), List.drop_left]

include hreserved in
/-- The number of frames is found in its place, if a header can declare it. -/
theorem declared_layout (h : frq.frames.length ≤ maxFrames) :
    declared (layout reserved trailing frq) = frq.frames.length := by
  have hcount : wordAt (layout reserved trailing frq) 36 4 = frq.frames.length := by
    rw [wordAt, drop_layout hreserved, List.take_left' (Word.length_bytes 4 _)]
    exact Word.ofBytes_bytes_of_lt (Nat.lt_of_le_of_lt h (by decide))
  rw [declared, hcount]
  apply Word.signed_of_lt
  have hmax : 2 * maxFrames < Word.count (8 * 4) := by decide
  omega

include hreserved in
/-- The bytes of a map hold it. -/
theorem holds_layout (h : frq.frames.length ≤ maxFrames) :
    Holds (layout reserved trailing frq) := by
  have hcount := declared_layout hreserved trailing frq h
  have hlength : (layout reserved trailing frq).length =
      headerSize + frameSize * frq.frames.length + trailing.length := by
    simp only [layout, List.length_append, length_magic, Word.length_bytes, hreserved,
      length_encodeFrames, reservedSize, headerSize]
    omega
  refine ⟨?_, List.prefix_append _ _, ?_, ?_⟩
  · omega
  · omega
  · rw [hcount, hlength, Int.toNat_natCast]
    exact Nat.le_add_right _ _

include hreserved in
/-- The content of the bytes of a map is the map. -/
theorem content_layout (h : frq.frames.length ≤ maxFrames) :
    content (layout reserved trailing frq) = frq := by
  have hbody : (layout reserved trailing frq).drop headerSize =
      frq.frames.flatMap encodeFrame ++ trailing := by
    have hplace : headerSize = 36 + 4 := rfl
    rw [hplace, ← List.drop_drop, drop_layout hreserved, List.drop_left' (Word.length_bytes 4 _)]
  rw [content, wordAt_layout_hop, wordAt_layout_average, declared_layout hreserved trailing frq h,
    hbody, Int.toNat_natCast, decodeFrames_append, UInt32.ofNat_toNat, UInt64.ofNat_toNat,
    Int32.toInt32_toUInt32]

end Fields

/-- Written bytes declare the frames of their map. -/
theorem declared_encode {frq : Frq UInt64} (h : frq.frames.length ≤ maxFrames) :
    declared (encode frq) = frq.frames.length := by
  rw [← List.append_nil (encode frq), encode_append, declared_layout length_reserved [] frq h]

/-! ## From bytes to a map and back -/

/-- As many frames are read as are asked for. -/
@[simp] theorem length_decodeFrames (count : Nat) (bytes : List UInt8) :
    (decodeFrames count bytes).length = count := by
  induction count generalizing bytes with
  | zero => rfl
  | succ count ih => rw [decodeFrames, List.length_cons, ih]

/-- A pattern of a number holds all of a word of eight bytes. -/
theorem bytes_pattern {bytes : List UInt8} {start : Nat} (h : start + 8 ≤ bytes.length) :
    Word.bytes 8 (UInt64.ofNat (wordAt bytes start 8)).toNat = (bytes.drop start).take 8 := by
  have hlt : wordAt bytes start 8 < 2 ^ 64 := wordAt_lt bytes start 8
  rw [UInt64.toNat_ofNat_of_lt' hlt, bytes_wordAt h]

/-- The bytes of frames are written again from the frames. -/
theorem encode_decodeFrames {count : Nat} {bytes : List UInt8}
    (h : frameSize * count ≤ bytes.length) :
    (decodeFrames count bytes).flatMap encodeFrame = bytes.take (frameSize * count) := by
  induction count generalizing bytes with
  | zero => rfl
  | succ count ih =>
      have hfirst : frameSize ≤ bytes.length :=
        Nat.le_trans (Nat.le_mul_of_pos_right _ (Nat.succ_pos count)) h
      have hframe : encodeFrame
          ⟨UInt64.ofNat (wordAt bytes 0 8), UInt64.ofNat (wordAt bytes 8 8)⟩ =
            bytes.take frameSize := by
        rw [encodeFrame, bytes_pattern (Nat.le_trans (by decide) hfirst), bytes_pattern hfirst]
        exact List.take_add.symm
      have hrest : frameSize * count ≤ (bytes.drop frameSize).length := by
        rw [Nat.mul_succ] at h
        rw [List.length_drop]
        omega
      rw [decodeFrames, List.flatMap_cons, hframe, ih hrest, Nat.mul_succ, Nat.add_comm,
        List.take_add]

/-- The number of frames is written again from what is declared. -/
theorem bytes_declared {bytes : List UInt8} (h : Holds bytes) :
    Word.bytes 4 (declared bytes).toNat = (bytes.drop 36).take 4 := by
  have hlt : wordAt bytes 36 4 < Word.count (8 * 4) := wordAt_lt bytes 36 4
  have hhalf : 2 * wordAt bytes 36 4 < Word.count (8 * 4) :=
    (Word.signed_nonneg_iff hlt).mp h.count
  rw [declared, Word.signed_of_lt hhalf, Int.toNat_natCast]
  exact bytes_wordAt h.header

/-- What is written of the content of bytes is the bytes themselves, but with zeros in the reserved
place and nothing after the frames. -/
theorem encode_content {bytes : List UInt8} (h : Holds bytes) :
    encode (content bytes) = bytes.take 20 ++ List.replicate reservedSize 0 ++
      (bytes.take (headerSize + frameSize * (declared bytes).toNat)).drop 36 := by
  have hheader : 40 ≤ bytes.length := h.header
  have hmagic : magic = bytes.take 8 := by
    rw [← length_magic]
    exact List.prefix_iff_eq_take.mp h.magic
  have hhop : Word.bytes 4 (content bytes).hop.toUInt32.toNat = (bytes.drop 8).take 4 := by
    have hlt : wordAt bytes 8 4 < 2 ^ 32 := wordAt_lt bytes 8 4
    rw [content, UInt32.toUInt32_toInt32, UInt32.toNat_ofNat_of_lt' hlt, bytes_wordAt (by omega)]
  have haverage : Word.bytes 8 (content bytes).average.toNat = (bytes.drop 12).take 8 :=
    bytes_pattern (by omega)
  have hcount : Word.bytes 4 (content bytes).frames.length = (bytes.drop 36).take 4 := by
    rw [content, length_decodeFrames, bytes_declared h]
  have hframes : (content bytes).frames.flatMap encodeFrame =
      (bytes.drop headerSize).take (frameSize * (declared bytes).toNat) := by
    apply encode_decodeFrames
    have := h.body
    rw [List.length_drop]
    omega
  -- the fields before the reserved place are next to each other, and so are those after it
  have hbefore : bytes.take 8 ++ (bytes.drop 8).take 4 ++ (bytes.drop 12).take 8 =
      bytes.take 20 := by
    rw [← @List.take_add _ bytes 8 4, ← @List.take_add _ bytes 12 8]
  have hafter : (bytes.drop 36).take 4 ++
      (bytes.drop headerSize).take (frameSize * (declared bytes).toNat) =
        (bytes.take (headerSize + frameSize * (declared bytes).toNat)).drop 36 := by
    have hplace : headerSize + frameSize * (declared bytes).toNat - 36 =
        4 + frameSize * (declared bytes).toNat := by
      unfold headerSize
      omega
    rw [List.drop_take, hplace, List.take_add, List.drop_drop]
    rfl
  rw [encode, hhop, haverage, hcount, hframes, hmagic, hbefore, List.append_assoc _ _
    ((bytes.drop headerSize).take _), hafter]

end SingingVoice.Frq
