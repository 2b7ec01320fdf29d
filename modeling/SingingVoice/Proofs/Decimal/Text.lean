import SingingVoice.Proofs.Decimal.Alphabet
import SingingVoice.Proofs.Decimal.Shortest
import SingingVoice.Value.Basic

/-!
# Decimals and their texts

Digits are read as the number that they stand for (`natOfDigits?_eq`). A `Spelling` is digits with a
point among them and an exponent behind them, and is read as the decimal that it stands for
(`Spelling.parse?_chars`). What is written for a decimal, without an exponent or in the way of
documents, spells a decimal of the same value (`toList_positional`, `exists_spelling_documentText`).
So the text of a binary64 number reads back as the number (`Double.readsBack`).
-/

namespace SingingVoice

namespace Decimal

variable {cs whole fraction rest : List Char} {c : Char} {negative : Bool}
  {coefficient : Nat} {exponent : Int}

/-! ## Digits -/

theorem isDigit_of_mem_digits {n : Nat} (hmem : c ∈ digits n) : isDigit c :=
  Nat.isDigit_of_mem_toDigits (by decide) (by decide) hmem

/-- The digits lie between zero and nine. -/
theorem isDigit_iff : isDigit c ↔ '0'.toNat ≤ c.toNat ∧ c.toNat ≤ '0'.toNat + 9 := by
  rw [isDigit, Bool.and_eq_true, decide_eq_true_eq, decide_eq_true_eq]
  rfl

/-- The characters of the numbers below ten are digits. -/
theorem isDigit_digitChar {n : Nat} (h : n < 10) : isDigit (Nat.digitChar n) := by
  rw [isDigit_iff, Nat.toNat_digitChar_of_lt_ten h, show '0'.toNat = 48 from rfl]
  omega

/-- The character of a number below ten stands for it. -/
theorem toNat_digitChar_sub {n : Nat} (h : n < 10) : (Nat.digitChar n).toNat - '0'.toNat = n := by
  rw [Nat.toNat_digitChar_of_lt_ten h]
  exact Nat.add_sub_cancel_left 48 n

/-- Every digit is the character of a number below ten. -/
theorem exists_digitChar (hc : isDigit c) : ∃ n : Fin 10, Nat.digitChar n = c := by
  rw [isDigit_iff, show '0'.toNat = 48 from rfl] at hc
  have hlt : c.toNat - 48 < 10 := by omega
  refine ⟨⟨c.toNat - 48, hlt⟩, Char.toNat_inj.mp ?_⟩
  rw [Nat.toNat_digitChar_of_lt_ten hlt]
  omega

theorem digit?_of_isDigit (hc : isDigit c) : digit? 10 c = some (c.toNat - '0'.toNat) := by
  have hlt : c.toNat - '0'.toNat < 10 := by
    have hle := (isDigit_iff.mp hc).2
    omega
  rw [isDigit, Bool.and_eq_true, decide_eq_true_eq, decide_eq_true_eq] at hc
  rw [digit?, if_pos hc]
  exact Option.filter_some_pos (decide_eq_true hlt)

/-- Digits are read as the number that they stand for. -/
theorem natOfDigits?_eq (hne : cs ≠ []) (hdigits : ∀ c ∈ cs, isDigit c) :
    natOfDigits? 10 cs = some (Nat.ofDigitChars 10 cs 0) := by
  have hread : ∀ cs n, (∀ c ∈ cs, isDigit c) →
      cs.foldlM (fun n c => (digit? 10 c).map (10 * n + ·)) n = some (Nat.ofDigitChars 10 cs n) := by
    intro cs
    induction cs with
    | nil => intro n _; simp
    | cons c cs ih =>
      intro n hdigits
      rw [List.foldlM_cons, digit?_of_isDigit (hdigits c List.mem_cons_self), Option.map_some,
        Nat.ofDigitChars_cons]
      exact ih _ fun c hc => hdigits c (List.mem_cons_of_mem _ hc)
  rw [natOfDigits?, if_neg (by simpa using hne)]
  exact hread cs 0 hdigits

/-- A single character is an integer if it is a digit. -/
theorem int?_singleton (c : Char) :
    int? [c] = if isDigit c then some ((c.toNat - '0'.toNat : Nat) : Int) else none := by
  by_cases hminus : c = '-'
  · rw [hminus]
    rfl
  by_cases hplus : c = '+'
  · rw [hplus]
    rfl
  have hsign : splitSign [c] = (false, [c]) := by
    simp [splitSign, hminus, hplus]
  by_cases hc : isDigit c
  · have hnumber : natOfDigits? 10 [c] = some (c.toNat - '0'.toNat) := by
      simp [natOfDigits?, digit?_of_isDigit hc]
    simp [int?, hsign, hc, hnumber]
  · simp [int?, hsign, hc]

/-- The digits at the front of a text are those before the first other character. -/
theorem takeWhile_digits (hcs : ∀ c ∈ cs, isDigit c) (hrest : ∀ c ∈ rest.head?, isDigit c = false) :
    (cs ++ rest).takeWhile isDigit = cs ∧ (cs ++ rest).dropWhile isDigit = rest := by
  rw [List.takeWhile_append_of_pos hcs, List.dropWhile_append_of_pos hcs]
  cases rest with
  | nil => exact ⟨List.append_nil cs, rfl⟩
  | cons c rest =>
    have hc : ¬ isDigit c := by simp [hrest c rfl]
    rw [List.takeWhile_cons_of_neg hc, List.dropWhile_cons_of_neg hc, List.append_nil]
    exact ⟨rfl, rfl⟩

/-- A sign before a digit is split off. -/
theorem splitSign_signText (hhead : ∀ c ∈ cs.head?, isDigit c) :
    splitSign ((signText negative).toList ++ cs) = (negative, cs) := by
  cases negative with
  | true => rfl
  | false =>
    show splitSign cs = _
    unfold splitSign
    split
    case h_1 rest => cases hhead '-' rfl
    case h_2 rest => cases hhead '+' rfl
    case h_3 => rfl

/-! ## Spellings -/

/-- Digits, a point if there are any behind it, and what contributes a power of ten. -/
structure Spelling where
  /-- The digits before the point. -/
  whole : List Char
  /-- The digits after the point. -/
  fraction : List Char
  /-- The exponent part. -/
  exponentPart : List Char
  /-- The power of ten that the exponent part contributes. -/
  power : Int
  whole_ne : whole ≠ []
  whole_digits : ∀ c ∈ whole, isDigit c
  fraction_digits : ∀ c ∈ fraction, isDigit c
  head_exponentPart : ∀ c ∈ exponentPart.head?, c = 'e'
  read_exponentPart : exponentPart? exponentPart = some power

namespace Spelling

variable (spelling : Spelling)

/-- The characters of a spelling. -/
def chars : List Char :=
  spelling.whole ++
    ((if spelling.fraction.isEmpty then [] else '.' :: spelling.fraction) ++ spelling.exponentPart)

/-- The decimal that a spelling stands for behind a sign. -/
def value (negative : Bool) : Decimal :=
  .finite negative (Nat.ofDigitChars 10 (spelling.whole ++ spelling.fraction) 0)
    (spelling.power - spelling.fraction.length)

/-- The spelling of digits without an exponent part. -/
def ofDigits (whole fraction : List Char) (hne : whole ≠ []) (hwhole : ∀ c ∈ whole, isDigit c)
    (hfraction : ∀ c ∈ fraction, isDigit c) : Spelling where
  whole := whole
  fraction := fraction
  exponentPart := []
  power := 0
  whole_ne := hne
  whole_digits := hwhole
  fraction_digits := hfraction
  head_exponentPart := nofun
  read_exponentPart := rfl

theorem exists_digit_chars : ∃ c rest, spelling.chars = c :: rest ∧ isDigit c := by
  obtain ⟨c, whole, hwhole⟩ := List.exists_cons_of_ne_nil spelling.whole_ne
  refine ⟨c, _, by rw [chars, hwhole]; rfl, spelling.whole_digits c ?_⟩
  rw [hwhole]
  exact List.mem_cons_self

/-- A spelling is read as what it stands for. -/
theorem unsigned?_chars : unsigned? negative spelling.chars = some (spelling.value negative) := by
  obtain ⟨whole, fraction, rest, power, hne, hwhole, hfraction, hhead, hpower⟩ := spelling
  have hrest : ∀ c ∈ rest.head?, isDigit c = false := by
    intro c hc
    rw [hhead c hc]
    rfl
  have hcoefficient : natOfDigits? 10 (whole ++ fraction) =
      some (Nat.ofDigitChars 10 (whole ++ fraction) 0) := by
    refine natOfDigits?_eq (List.append_ne_nil_of_left_ne_nil hne _) fun c hc => ?_
    rcases List.mem_append.mp hc with hc | hc
    · exact hwhole c hc
    · exact hfraction c hc
  cases fraction with
  | nil =>
    obtain ⟨htake, hdrop⟩ := takeWhile_digits hwhole hrest
    rw [List.append_nil] at hcoefficient
    show unsigned? negative (whole ++ rest) = _
    rw [unsigned?, htake, hdrop, value, List.append_nil]
    cases rest with
    | nil => simp [hcoefficient, hpower]
    | cons c rest =>
      have hc : c = 'e' := hhead c rfl
      subst hc
      simp [hcoefficient, hpower]
  | cons d fraction =>
    obtain ⟨htake, hdrop⟩ :=
      takeWhile_digits hwhole (show ∀ c ∈ ('.' :: (d :: fraction ++ rest)).head?, isDigit c = false by
        simp
        decide)
    obtain ⟨htakeFraction, hdropFraction⟩ := takeWhile_digits hfraction hrest
    show unsigned? negative (whole ++ '.' :: (d :: fraction ++ rest)) = _
    rw [unsigned?, htake, hdrop]
    simp only [htakeFraction, hdropFraction, hcoefficient, hpower]
    rfl

theorem splitSign_chars : splitSign ((signText negative).toList ++ spelling.chars) =
    (negative, spelling.chars) := by
  refine splitSign_signText fun c hc => ?_
  obtain ⟨d, rest, hchars, hd⟩ := spelling.exists_digit_chars
  rw [hchars] at hc
  rwa [← Option.some.inj hc]

/-- A spelling is not a word. -/
theorem ne_word {word : String} (hletters : word.toList.all Char.isAlpha) :
    String.ofList (spelling.chars.map Char.toLower) ≠ word := by
  intro hword
  obtain ⟨c, rest, hchars, hc⟩ := spelling.exists_digit_chars
  have halpha : c.isAlpha := by
    refine isAlpha_of_word hword hletters ?_
    rw [hchars]
    exact List.mem_cons_self
  rw [isDigit, Bool.and_eq_true, decide_eq_true_eq, decide_eq_true_eq] at hc
  simp only [Char.isAlpha, Char.isUpper, Char.isLower, Bool.or_eq_true, Bool.and_eq_true,
    decide_eq_true_eq, Char.le_def, UInt32.le_iff_toNat_le, ge_iff_le] at halpha hc
  have hnine : '9'.val.toNat < 'A'.val.toNat ∧ '9'.val.toNat < 'a'.val.toNat := by decide
  omega

/-- A spelling behind a sign is read as what it stands for. -/
theorem parse?_chars : parse? ((signText negative).toList ++ spelling.chars) =
    some (spelling.value negative) := by
  simp only [parse?, splitSign_chars]
  rw [if_neg, if_neg, unsigned?_chars]
  · exact spelling.ne_word (by decide)
  · rintro (hword | hword)
    · exact spelling.ne_word (by decide) hword
    · exact spelling.ne_word (by decide) hword

/-- A point and a zero at the end of digits do not change the value. -/
theorem exists_pointed {spelling : Spelling} (negative : Bool) (hfraction : spelling.fraction = [])
    (hexponent : spelling.exponentPart = []) :
    ∃ pointed : Spelling, pointed.chars = spelling.chars ++ ['.', '0'] ∧ pointed.fraction ≠ [] ∧
      ∀ d : Decimal, d.Same (spelling.value negative) → d.Same (pointed.value negative) := by
  have hpower : spelling.power = 0 := by
    have hread := spelling.read_exponentPart
    rw [hexponent] at hread
    exact (Option.some.inj hread).symm
  refine ⟨.ofDigits spelling.whole ['0'] spelling.whole_ne spelling.whole_digits
    (List.forall_mem_singleton.mpr rfl), ?_, List.cons_ne_nil _ _, fun d hsame => ?_⟩
  · simp [chars, ofDigits, hfraction, hexponent]
  · cases hsame with
    | finite hvalue =>
      refine .finite (hvalue.trans ?_)
      have hzero : Nat.ofDigitChars 10 (spelling.whole ++ ['0']) 0 =
          Nat.ofDigitChars 10 spelling.whole 0 * 10 := by
        rw [Nat.ofDigitChars_append, Nat.ofDigitChars_cons, Nat.ofDigitChars_nil, mul_comm]
        rfl
      rw [hfraction, hpower, List.append_nil, ofDigits, hzero]
      simp

end Spelling

/-! ## Texts without an exponent -/

/-- The digits before and after the point stand for the number. -/
theorem pointDigits_spec (coefficient : Nat) (exponent : Int) :
    (pointDigits coefficient exponent).1 ≠ [] ∧
    (∀ c ∈ (pointDigits coefficient exponent).1, isDigit c) ∧
    (∀ c ∈ (pointDigits coefficient exponent).2, isDigit c) ∧
    ((pointDigits coefficient exponent).2.length : Int) = max 0 (-exponent) ∧
    Nat.ofDigitChars 10
        ((pointDigits coefficient exponent).1 ++ (pointDigits coefficient exponent).2) 0 =
      coefficient * 10 ^ exponent.toNat := by
  have hdigit : ∀ c ∈ digits coefficient, isDigit c := fun c hc => isDigit_of_mem_digits hc
  have hzero : ∀ n, ∀ c ∈ List.replicate n '0', isDigit c := by
    intro n c hc
    rw [List.eq_of_mem_replicate hc]
    decide
  unfold pointDigits
  dsimp only
  split
  case isTrue h =>
    refine ⟨?_, ?_, nofun, ?_, ?_⟩
    · exact List.append_ne_nil_of_left_ne_nil Nat.toDigits_ne_nil _
    · intro c hc
      rcases List.mem_append.mp hc with hc | hc
      · exact hdigit c hc
      · exact hzero _ c hc
    · simp only [List.length_nil]
      omega
    · rw [List.append_nil, Nat.ofDigitChars_append, digits, Nat.ofDigitChars_ten_toDigits,
        Nat.ofDigitChars_replicate_zero, mul_comm]
  case isFalse h =>
    set padded := List.replicate ((-exponent).toNat + 1 - (digits coefficient).length) '0' ++
      digits coefficient with hpadded
    have hall : ∀ c ∈ padded, isDigit c := by
      intro c hc
      rcases List.mem_append.mp hc with hc | hc
      · exact hzero _ c hc
      · exact hdigit c hc
    have hlength : (-exponent).toNat + 1 ≤ padded.length := by
      rw [hpadded, List.length_append, List.length_replicate]
      omega
    refine ⟨?_, fun c hc => hall c (List.mem_of_mem_take hc),
      fun c hc => hall c (List.mem_of_mem_drop hc), ?_, ?_⟩
    · rw [← List.length_pos_iff, List.length_take]
      omega
    · rw [List.length_drop]
      omega
    · have hpower : exponent.toNat = 0 := by omega
      rw [List.take_append_drop, hpadded, Nat.ofDigitChars_append, Nat.ofDigitChars_replicate_zero,
        mul_zero, digits, Nat.ofDigitChars_ten_toDigits, hpower, pow_zero, mul_one]

/-- The digits before and after the point, as a spelling. -/
def positionalSpelling (coefficient : Nat) (exponent : Int) : Spelling :=
  have h := pointDigits_spec coefficient exponent
  if _ : coefficient = 0 then
    .ofDigits ['0'] [] (List.cons_ne_nil _ _) (List.forall_mem_singleton.mpr rfl) nofun
  else
    .ofDigits (pointDigits coefficient exponent).1 (pointDigits coefficient exponent).2 h.1 h.2.1
      h.2.2.1

theorem length_fraction_positionalSpelling (hcoefficient : coefficient ≠ 0) (exponent : Int) :
    ((positionalSpelling coefficient exponent).fraction.length : Int) = max 0 (-exponent) := by
  rw [positionalSpelling, dif_neg hcoefficient]
  exact (pointDigits_spec coefficient exponent).2.2.2.1

theorem exponentPart_positionalSpelling (coefficient : Nat) (exponent : Int) :
    (positionalSpelling coefficient exponent).exponentPart = [] := by
  unfold positionalSpelling
  split <;> rfl

theorem toList_positional (negative : Bool) (coefficient : Nat) (exponent : Int) :
    (positional (.finite negative coefficient exponent)).toList =
      (signText negative).toList ++ (positionalSpelling coefficient exponent).chars := by
  by_cases hzero : coefficient = 0
  · simp [positional, positionalSpelling, hzero, Spelling.chars, Spelling.ofDigits]
  · simp only [positional, positionalSpelling, hzero, Spelling.chars, Spelling.ofDigits,
      String.toList_append, String.toList_ofList, List.append_nil, List.append_assoc, if_false,
      dif_neg, not_false_eq_true]
    split <;> simp

theorem same_positionalSpelling (negative : Bool) (coefficient : Nat) (exponent : Int) :
    Same (.finite negative coefficient exponent)
      ((positionalSpelling coefficient exponent).value negative) := by
  refine .finite ?_
  by_cases hzero : coefficient = 0
  · simp [positionalSpelling, hzero, Spelling.ofDigits]
    decide
  · obtain ⟨-, -, -, hlength, hdigits⟩ := pointDigits_spec coefficient exponent
    simp only [positionalSpelling, hzero, Spelling.ofDigits, dif_neg, not_false_eq_true]
    rw [hdigits, hlength, Nat.cast_mul, Nat.cast_pow, Nat.cast_ofNat, mul_assoc, ← zpow_natCast,
      ← zpow_add₀ (by norm_num)]
    congr 2
    omega

/-- The text of a decimal without an exponent is read back as a decimal of the same value. -/
theorem parse?_positional (d : Decimal) :
    ∃ d', parse? d.positional.toList = some d' ∧ d.Same d' := by
  cases d with
  | nan => exact ⟨_, rfl, .nan⟩
  | infinity negative => cases negative <;> exact ⟨_, rfl, .infinity _⟩
  | finite negative coefficient exponent =>
    rw [toList_positional]
    exact ⟨_, Spelling.parse?_chars _, same_positionalSpelling negative coefficient exponent⟩

/-! ## Texts of documents -/

/-- The text of an integer is read back as the integer. -/
theorem int?_toString (n : Int) : int? (toString n).toList = some n := by
  have hread : ∀ (negative : Bool) (n : Nat),
      int? ((signText negative).toList ++ digits n) = some (if negative then -(n : Int) else n) := by
    intro negative n
    have hdigits : ∀ c ∈ digits n, isDigit c := fun c hc => isDigit_of_mem_digits hc
    have hnumber : natOfDigits? 10 (digits n) = some n := by
      rw [natOfDigits?_eq (show digits n ≠ [] from Nat.toDigits_ne_nil) hdigits, digits,
        Nat.ofDigitChars_ten_toDigits]
    simp only [int?, splitSign_signText fun c hc => hdigits c (List.mem_of_mem_head? hc)]
    rw [if_pos (List.all_eq_true.mpr hdigits), hnumber]
    rfl
  cases n with
  | ofNat n =>
    have htext : (toString (Int.ofNat n)).toList = (signText false).toList ++ digits n :=
      Nat.toList_repr
    rw [htext, hread]
    rfl
  | negSucc n =>
    have htext : (toString (Int.negSucc n)).toList = (signText true).toList ++ digits (n + 1) := by
      show ("-" ++ Nat.repr (n + 1)).toList = _
      rw [String.toList_append, Nat.toList_repr]
      rfl
    rw [htext, hread]
    rfl

/-- The digits of a positive number with a point behind the first, and the exponent part of a power
of ten. -/
theorem exists_spelling_scientific (negative : Bool) (coefficient : Nat) (exponent : Int) :
    ∃ spelling : Spelling,
      (leadingPoint coefficient ++ "e" ++ toString (magnitude coefficient exponent)).toList =
        spelling.chars ∧
      Same (.finite negative coefficient exponent) (spelling.value negative) ∧
      spelling.exponentPart ≠ [] := by
  obtain ⟨first, rest, hdigits⟩ :=
    List.exists_cons_of_ne_nil (show digits coefficient ≠ [] from Nat.toDigits_ne_nil)
  have hall : ∀ c ∈ first :: rest, isDigit c := by
    rw [← hdigits]
    exact fun c hc => isDigit_of_mem_digits hc
  set power := magnitude coefficient exponent with hpower
  refine ⟨⟨[first], rest, 'e' :: (toString power).toList, power, List.cons_ne_nil _ _, ?_, ?_, ?_,
    ?_⟩, ?_, .finite ?_, List.cons_ne_nil _ _⟩
  · exact List.forall_mem_singleton.mpr (hall first List.mem_cons_self)
  · exact fun c hc => hall c (List.mem_cons_of_mem _ hc)
  · exact fun c hc => (Option.some.inj hc).symm
  · rw [exponentPart?, if_pos (.inl rfl), int?_toString]
  · simp only [leadingPoint, hdigits, Spelling.chars, String.toList_append, String.toList_ofList,
      List.append_assoc]
    split <;> simp
  · have hcoefficient : Nat.ofDigitChars 10 ([first] ++ rest) 0 = coefficient := by
      rw [List.singleton_append, ← hdigits, digits, Nat.ofDigitChars_ten_toDigits]
    dsimp only
    rw [hcoefficient, hpower, magnitude, hdigits, List.length_cons]
    congr 2
    push_cast
    ring

/-- Writing in the way of documents spells a number out, with a fraction or with an exponent. -/
theorem exists_spelling_documentText (negative : Bool) (coefficient : Nat) (exponent : Int) :
    ∃ spelling : Spelling,
      (documentText false negative coefficient exponent).toList =
        (signText negative).toList ++ spelling.chars ∧
      Same (.finite negative coefficient exponent) (spelling.value negative) ∧
      (spelling.fraction ≠ [] ∨ spelling.exponentPart ≠ []) := by
  unfold documentText
  dsimp only
  split
  case isTrue hzero =>
    refine ⟨.ofDigits ['0'] ['0'] (List.cons_ne_nil _ _) (List.forall_mem_singleton.mpr rfl)
      (List.forall_mem_singleton.mpr rfl), ?_, .finite ?_, .inl (List.cons_ne_nil _ _)⟩
    · rw [String.toList_append]
      rfl
    · rw [hzero, Nat.cast_zero, zero_mul, zero_eq_mul]
      exact .inl rfl
  case isFalse hzero =>
    split
    case isTrue =>
      rw [String.toList_append, toList_positional, List.append_assoc]
      have hsame := same_positionalSpelling negative coefficient exponent
      have hlength := length_fraction_positionalSpelling hzero exponent
      split
      case isTrue hexponent =>
        have hfraction : (positionalSpelling coefficient exponent).fraction = [] := by
          rw [← List.length_eq_zero_iff]
          omega
        obtain ⟨pointed, hchars, hpointed, hvalue⟩ := Spelling.exists_pointed negative hfraction
          (exponentPart_positionalSpelling coefficient exponent)
        refine ⟨pointed, ?_, hvalue _ hsame, .inl hpointed⟩
        rw [hchars]
        rfl
      case isFalse hexponent =>
        refine ⟨positionalSpelling coefficient exponent, ?_, hsame, .inl fun hfraction => ?_⟩
        · simp
        · rw [hfraction, List.length_nil] at hlength
          omega
    case isFalse =>
      obtain ⟨spelling, hchars, hsame, hexponent⟩ :=
        exists_spelling_scientific negative coefficient exponent
      refine ⟨spelling, ?_, hsame, .inr hexponent⟩
      rw [← hchars]
      simp

end Decimal

/-- The text of a number reads back as the number. -/
def Numeral.ReadsBack {α : Type} [Numeral α] (x : α) : Prop :=
  Numeral.parse? (Numeral.text x).toList = some x

/-- Every binary64 number reads back. -/
theorem Double.readsBack {x : Double} (hnumber : x.isNaN = false) : Numeral.ReadsBack x := by
  obtain ⟨decimal, hparse, hsame⟩ := Decimal.parse?_positional (Numeral.toDecimal .up x)
  show (Decimal.parse? (Numeral.toDecimal .up x).positional.toList).map Numeral.ofDecimal = some x
  rw [hparse, Option.map_some, ofDecimal_of_same hnumber hsame]

end SingingVoice
