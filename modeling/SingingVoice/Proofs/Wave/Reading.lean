import Mathlib
import SingingVoice.Proofs.Word
import SingingVoice.Wave.Codec

/-!
# Reading written waves

Reading takes off the front of the bytes what writing put there. The description of 16-bit samples
and the sizes of the chunks are read back if they fit into their words (`Header.read_written`), and
the samples are read back as the whole numbers that they were written as
(`readSamples_written`).
-/

namespace SingingVoice.Wave

namespace Reader

variable {β γ : Type} {bytes rest : List UInt8}

/-- What a reader has read is handed on, with the bytes that it left. -/
theorem bind_of_eq {reader : Reader β} {next : β → Reader γ} {x : β}
    (h : reader bytes = .ok (x, rest)) : (reader >>= next) bytes = next x rest := by
  show (reader bytes >>= fun read => next read.1 read.2) = next x rest
  rw [h]
  rfl

/-- A check that holds reads nothing. -/
theorem check_of_true {condition : Bool} (h : condition = true) (fault : Fault) :
    check condition fault bytes = .ok ((), bytes) := by
  rw [check, if_pos h]
  rfl

/-- Bytes are taken off the front. -/
theorem take_append {count : Nat} {octets : List UInt8} (h : octets.length = count)
    (rest : List UInt8) : take count (octets ++ rest) = .ok (octets, rest) := by
  subst h
  unfold take
  rw [List.take_left, List.drop_left]
  exact if_pos rfl

/-- A word that fits is read back. -/
theorem word_bytes {width n : Nat} (h : n < 256 ^ width) (rest : List UInt8) :
    word width (Word.bytes width n ++ rest) = .ok (n, rest) := by
  rw [word, bind_of_eq (take_append (Word.length_bytes width n) rest), Word.ofBytes_bytes_of_lt h]
  rfl

end Reader

/-- Numbers as 16-bit samples. -/
def written (numbers : List Int) : List UInt8 :=
  numbers.flatMap fun n => Word.bytes 2 (Word.unsigned 2 n)

namespace Header

open Reader

/-- The description of 16-bit samples. -/
def written (format : Format) : Header :=
  ⟨.integer, format.frameSize, format.sampleRate, 2, 16⟩

/-- The sizes in the head of a wave file of so many samples fit into their words. -/
structure Fits (format : Format) (samples : Nat) : Prop where
  /-- The bytes of the file behind the first eight. -/
  size : 36 + 2 * samples < 256 ^ 4
  /-- The bytes of a second. -/
  rate : format.sampleRate * (2 * format.frameSize) < 256 ^ 4

/-- The description of 16-bit samples as it stands in a file. -/
def description (format : Format) (rest : List UInt8) : List UInt8 :=
  Word.bytes 2 1 ++ (Word.bytes 2 format.frameSize ++ (Word.bytes 4 format.sampleRate ++
    (Word.bytes 4 (format.sampleRate * (2 * format.frameSize)) ++
      (Word.bytes 2 (2 * format.frameSize) ++ (Word.bytes 2 16 ++ rest)))))

/-- A description whose rates fit is read back. -/
theorem readFormat_description {format : Format}
    (hrate : format.sampleRate * (2 * format.frameSize) < 256 ^ 4) (rest : List UInt8) :
    readFormat 16 (description format rest) = .ok (written format, rest) := by
  have hpos : 0 < format.frameSize := format.frameSize_pos
  have hsmall : format.frameSize ≤ 2 := format.frameSize_le
  have hframes : format.sampleRate < 256 ^ 4 :=
    Nat.lt_of_le_of_lt (Nat.le_mul_of_pos_right _ (by omega)) hrate
  have hbytes : 2 * format.frameSize / format.frameSize = 2 := Nat.mul_div_cancel _ hpos
  unfold readFormat description
  -- the fields one after another, up to the check that there are channels
  rw [bind_of_eq (check_of_true (by decide) _), bind_of_eq (word_bytes (by decide) _),
    bind_of_eq (word_bytes (by omega) _), bind_of_eq (word_bytes hframes _),
    bind_of_eq (word_bytes hrate _), bind_of_eq (word_bytes (by omega) _),
    bind_of_eq (word_bytes (by decide) _), bind_of_eq (check_of_true (by simp; omega) _)]
  dsimp only
  -- a sample takes two bytes, so its sixteen bits fill them, and the rates agree
  rw [hbytes, bind_of_eq (check_of_true (by decide) _),
    bind_of_eq (check_of_true (by simp [Nat.mul_comm]) _),
    bind_of_eq (check_of_true (by decide) _), bind_of_eq (check_of_true (by decide) _)]
  rfl

/-- The description of the samples and their size in bytes are read off their chunks. -/
theorem readChunks_written {format : Format} {samples fuel : Nat} (hfits : Fits format samples)
    (hfuel : 2 ≤ fuel) (rest : List UInt8) :
    readChunks fuel none
        ("fmt ".toUTF8.toList ++ (Word.bytes 4 16 ++ description format
          ("data".toUTF8.toList ++ (Word.bytes 4 (2 * samples) ++ rest)))) =
      .ok ((written format, 2 * samples), rest) := by
  have hsize : 2 * samples < 256 ^ 4 := by
    have hfile := hfits.size
    omega
  have htags : "fmt ".toUTF8.toList ≠ "data".toUTF8.toList := by decide +kernel
  -- one round for either chunk
  obtain ⟨more, rfl⟩ := Nat.exists_eq_add_of_le' hfuel
  rw [readChunks, bind_of_eq (take_append (by decide +kernel) _),
    bind_of_eq (word_bytes (by decide) _), if_neg htags, if_pos rfl,
    bind_of_eq (readFormat_description hfits.rate _), readChunks,
    bind_of_eq (take_append (by decide +kernel) _), bind_of_eq (word_bytes hsize _), if_pos rfl]
  rfl

/-- The head of a written wave file is read back if its sizes fit. -/
theorem read_waveHeader {format : Format} {samples : Nat} (hfits : Fits format samples)
    (hwhole : samples % format.frameSize = 0) (rest : List UInt8) :
    read (Segment.waveHeader format samples ++ rest) = .ok ((written format, samples), rest) := by
  have hcount : 2 * samples / 2 = samples := by omega
  have htag : "fmt ".toUTF8.toList.length = 4 := by decide +kernel
  unfold read Segment.waveHeader
  simp only [List.append_assoc]
  rw [bind_of_eq (take_append (by decide +kernel) _), bind_of_eq (check_of_true (by simp) _),
    bind_of_eq (take_append (Word.length_bytes 4 _) _),
    bind_of_eq (take_append (by decide +kernel) _), bind_of_eq (check_of_true (by simp) _)]
  -- the tag of the first chunk alone is long enough for the two chunks there are
  rw [bind_of_eq (show (get : Reader (List UInt8)) _ = .ok (_, _) from rfl)]
  refine (bind_of_eq (readChunks_written hfits ?_ rest)).trans ?_
  · rw [List.length_append, htag]
    omega
  have hsamples : 2 * samples / 2 * 2 = 2 * samples := by omega
  have hframes : 2 * samples / 2 % format.frameSize = 0 := by rw [hcount, hwhole]
  refine (bind_of_eq (check_of_true (decide_eq_true hsamples) _)).trans ?_
  refine (bind_of_eq (check_of_true (decide_eq_true hframes) _)).trans ?_
  show Except.ok ((written format, 2 * samples / 2), rest) = _
  rw [hcount]

end Header

/-- A number is one that 16 bits can hold. -/
def IsSample (n : Int) : Prop :=
  -32768 ≤ n ∧ n < 32768

variable {α : Type} [Scalar α]

/-- A sample becomes a number that 16 bits can hold. -/
theorem isSample_quantize (x : α) : IsSample (quantize x) := by
  unfold quantize Scalar.toIntIn
  dsimp only
  rw [Word.count_eq]
  constructor <;> omega

/-- The value that a 16-bit sample is read as. -/
def level (n : Int) : α :=
  Scalar.ofInt n / Scalar.ofNat 32768

/-- A written sample is read back. -/
theorem readInteger_written {n : Int} (h : IsSample n) (format : Format) (rest : List UInt8) :
    readInteger (Header.written format) (Word.bytes 2 (Word.unsigned 2 n) ++ rest) =
      .ok ((level n : α), rest) := by
  obtain ⟨hlow, hhigh⟩ := h
  have hsigned : Word.signed 2 (Word.unsigned 2 n) = n :=
    Word.signed_unsigned (by rw [Word.count_eq]; omega) (by rw [Word.count_eq]; omega)
  have hwhole : readWhole (Header.written format) (Word.bytes 2 (Word.unsigned 2 n) ++ rest) =
      .ok (n, rest) := by
    show (Reader.word 2 >>= fun word => pure (Word.signed 2 word) : Reader Int) _ = _
    rw [Reader.bind_of_eq (Reader.word_bytes (Word.unsigned_lt 2 n) rest), hsigned]
    rfl
  rw [readInteger, Reader.bind_of_eq hwhole]
  rfl

/-- Written samples are read back in their order, behind those already read. -/
theorem readSamples_written {numbers : List Int} (h : ∀ n ∈ numbers, IsSample n) (format : Format)
    (samples : Array α) (rest : List UInt8) :
    readSamples (Header.written format) numbers.length samples (written numbers ++ rest) =
      .ok (samples ++ (numbers.map level).toArray, rest) := by
  induction numbers generalizing samples with
  | nil =>
      show Except.ok (samples, rest) = _
      rw [List.map_nil, Array.append_empty]
  | cons n numbers ih =>
      have hhead := h n List.mem_cons_self
      have htail := ih (fun m hm => h m (List.mem_cons_of_mem n hm)) (samples.push (level n))
      show (readInteger (Header.written format) >>= fun x =>
        readSamples (Header.written format) numbers.length (samples.push x)) _ = _
      rw [written, List.flatMap_cons, List.append_assoc,
        Reader.bind_of_eq (readInteger_written hhead format _)]
      rw [← written, htail, List.map_cons]
      simp

end SingingVoice.Wave
