import SingingVoice.Proofs.Decimal.Text
import SingingVoice.Yaml.Style

/-!
# The meaning of written scalars

A scalar means what it was written for: a text in the style that is chosen for it stays the same
text (`scalarValue?_text`), a whole number stays the same number (`Plain.value?_toString`), and the
decimal of a binary64 number is read as a decimal that stands for it (`Plain.exists_float`). None of
them is taken for a word, or for a number of another kind.
-/

namespace SingingVoice

namespace Decimal

/-- A positive number does not start with a zero. -/
theorem head?_digits {n : Nat} (hn : 0 < n) : (digits n).head? ≠ some '0' := by
  induction n using Nat.strong_induction_on with
  | _ n ih =>
    by_cases hlt : n < 10
    · rw [digits, Nat.toDigits_of_lt_base hlt, List.head?_cons]
      intro hzero
      rw [Option.some.injEq, Nat.digitChar_eq_zero] at hzero
      omega
    · have hfirst : 0 < n / 10 := by omega
      have hne : digits (n / 10) ≠ [] := Nat.toDigits_ne_nil
      rw [digits, Nat.toDigits_of_base_le (by decide) (by omega), ← digits,
        List.head?_append_of_ne_nil _ hne]
      exact ih (n / 10) (by omega) hfirst

/-- No digits follow a zero at the front. -/
theorem digits_ne_zero_cons (n : Nat) (c : Char) (rest : List Char) :
    digits n ≠ '0' :: c :: rest := by
  intro h
  rcases Nat.eq_zero_or_pos n with rfl | hn
  · cases h
  · exact head?_digits hn (by rw [h, List.head?_cons])

/-- What has a character that is no digit is no number. -/
theorem natOfDigits?_eq_none {base : Nat} {cs : List Char} {c : Char} (hmem : c ∈ cs)
    (hc : digit? base c = none) : natOfDigits? base cs = none := by
  have hread : ∀ n, cs.foldlM (fun n c => (digit? base c).map (base * n + ·)) n = none := by
    induction cs with
    | nil => cases hmem
    | cons d cs ih =>
      intro n
      rw [List.foldlM_cons]
      rcases List.mem_cons.mp hmem with rfl | hmem
      · rw [hc]
        rfl
      · cases digit? base d with
        | none => rfl
        | some value => exact ih hmem _
  rw [natOfDigits?]
  split
  · rfl
  · exact hread 0

end Decimal

namespace Binary64

variable {tie : Tie} {number : Binary64}

/-- Only what is no number has no number as its decimal. -/
theorem eq_nan_of_shortest (h : shortest tie number = .nan) : number = .nan := by
  cases number with
  | nan => rfl
  | infinity negative => cases h
  | finite negative mantissa exponent =>
    unfold shortest at h
    dsimp only at h
    split at h <;> cases h

/-- Only finite numbers have finite decimals. -/
theorem exists_finite_of_shortest {negative : Bool} {coefficient : Nat} {place : Int}
    (h : shortest tie number = .finite negative coefficient place) :
    ∃ negative mantissa exponent, number = .finite negative mantissa exponent := by
  cases number with
  | nan => cases h
  | infinity negative => cases h
  | finite negative mantissa exponent => exact ⟨_, _, _, rfl⟩

end Binary64

namespace Yaml

namespace Plain

variable {text word : String} {cs rest : List Char} {c : Char}

/-! ## Words -/

/-- Whether a text starts like a number: with a digit, with a minus sign or with a point. -/
def startsLikeNumber (text : String) : Bool :=
  text.toList.head?.any fun c => Decimal.isDigit c || c = '-' || c = '.'

theorem ne_of_startsLikeNumber (htext : startsLikeNumber text)
    (hword : startsLikeNumber word = false) : text ≠ word := by
  rintro rfl
  rw [htext] at hword
  cases hword

/-- What starts like a number is not a word for nothing. -/
theorem isNull_of_startsLikeNumber (htext : startsLikeNumber text) : isNull text = false := by
  have hne : ∀ word ∈ ["", "~", "null", "Null", "NULL"], text ≠ word := by
    intro word hword
    refine ne_of_startsLikeNumber htext ?_
    revert word
    decide
  simp only [List.forall_mem_cons] at hne
  obtain ⟨hempty, htilde, hsmall, hfirst, hlarge, -⟩ := hne
  have hisEmpty : text.isEmpty = false := by simpa using hempty
  simp [isNull, isNullWord, hisEmpty, htilde, hsmall, hfirst, hlarge]

/-- What starts like a number is not a truth value. -/
theorem bool?_of_startsLikeNumber (htext : startsLikeNumber text) : bool? text = none := by
  have hne : ∀ word ∈ ["true", "True", "TRUE", "false", "False", "FALSE"], text ≠ word := by
    intro word hword
    refine ne_of_startsLikeNumber htext ?_
    revert word
    decide
  simp only [List.forall_mem_cons] at hne
  obtain ⟨h₁, h₂, h₃, h₄, h₅, h₆, -⟩ := hne
  simp [bool?, h₁, h₂, h₃, h₄, h₅, h₆]

/-! ## Texts -/

/-- A plain scalar that means a text means its own. -/
theorem eq_of_value?_text {string : String} (h : value? text = some (.text string)) :
    string = text := by
  unfold value? at h
  split at h
  case isTrue => cases h
  case isFalse =>
    split at h
    case h_1 => cases h
    case h_2 whole _ _ =>
      unfold Whole.value? at h
      split at h
      case isTrue => split at h <;> cases h
      case isFalse => cases h
    case h_3 =>
      split at h
      case isTrue => exact (Value.text.inj (Option.some.inj h)).symm
      case isFalse =>
        cases hfloat : float? text with
        | none =>
          rw [hfloat] at h
          exact (Value.text.inj (Option.some.inj h)).symm
        | some d =>
          rw [hfloat] at h
          cases h

end Plain

/-- A text in its style means itself. -/
theorem scalarValue?_text (string : String) :
    scalarValue? none (.ofText string.toList) string = some (.text string) := by
  rw [scalarValue?]
  split
  case isFalse => rfl
  case isTrue hplain =>
    have hclear : Shape.isAmbiguous string.toList = false := by
      unfold ScalarStyle.ofText at hplain
      split at hplain
      case isTrue => split at hplain <;> cases hplain
      case isFalse =>
        split at hplain
        case isTrue h => simpa using h.1
        case isFalse => split at hplain <;> cases hplain
    unfold Shape.isAmbiguous at hclear
    rw [Bool.or_eq_false_iff, String.ofList_toList] at hclear
    obtain ⟨hresolves, -⟩ := hclear
    split at hresolves
    case h_1 text hvalue => rw [hvalue, Plain.eq_of_value?_text hvalue]
    case h_2 => cases hresolves

namespace Plain

/-! ## Whole numbers -/

theorem startsLikeNumber_toString (n : Nat) : startsLikeNumber (toString n) := by
  obtain ⟨c, rest, hdigits⟩ :=
    List.exists_cons_of_ne_nil (show Decimal.digits n ≠ [] from Nat.toDigits_ne_nil)
  have hc : Decimal.isDigit c := by
    refine Decimal.isDigit_of_mem_digits (n := n) ?_
    rw [hdigits]
    exact List.mem_cons_self
  have htext : (toString n).toList = c :: rest := by
    rw [← hdigits]
    exact Nat.toList_repr
  rw [startsLikeNumber, htext]
  simp [hc]

/-- A whole number is read from its digits. -/
theorem whole?_toString (n : Nat) : whole? (toString n) = some ⟨false, n⟩ := by
  have hdigits : ∀ c ∈ Decimal.digits n, Decimal.isDigit c :=
    fun c hc => Decimal.isDigit_of_mem_digits hc
  have hsign : Decimal.splitSign (toString n).toList = (false, Decimal.digits n) := by
    have htext : (toString n).toList = (Decimal.signText false).toList ++ Decimal.digits n :=
      Nat.toList_repr
    rw [htext]
    exact Decimal.splitSign_signText fun c hc => hdigits c (List.mem_of_mem_head? hc)
  have hnatural : natural? (Decimal.digits n) = some n := by
    unfold natural?
    split
    case h_1 ds h => exact absurd h (Decimal.digits_ne_zero_cons n 'x' ds)
    case h_2 ds h => exact absurd h (Decimal.digits_ne_zero_cons n 'o' ds)
    case h_3 ds h => exact absurd h (Decimal.digits_ne_zero_cons n 'b' ds)
    case h_4 =>
      rw [if_neg, Decimal.natOfDigits?_eq (show Decimal.digits n ≠ [] from Nat.toDigits_ne_nil)
        hdigits, Decimal.digits, Nat.ofDigitChars_ten_toDigits]
      unfold hasLeadingZero
      split
      case h_1 c rest h => exact absurd h (Decimal.digits_ne_zero_cons n c rest)
      case h_2 => exact Bool.false_ne_true
  rw [whole?, hsign]
  show (natural? (Decimal.digits n)).map _ = _
  rw [hnatural]
  rfl

/-- A whole number that documents can hold stays the same. -/
theorem value?_toString {n : Nat} (hn : n < UInt64.size) :
    value? (toString n) = some (.nat n) := by
  have hsize : UInt64.size = 2 ^ 64 := rfl
  have htold : Whole.isTold ⟨false, n⟩ := by
    show decide (n < 2 ^ 128) = true
    exact decide_eq_true (by omega)
  have hbits : Whole.hasBits ⟨false, n⟩ 64 := by
    show decide (n < 2 ^ 64) = true
    exact decide_eq_true (by omega)
  have hstarts := startsLikeNumber_toString n
  rw [value?, isNull_of_startsLikeNumber hstarts, if_neg Bool.false_ne_true,
    bool?_of_startsLikeNumber hstarts, whole?_toString, Option.filter_some_pos htold]
  show Whole.value? _ = _
  rw [Whole.value?, if_pos hbits]
  rfl

/-! ## Decimal numbers -/

/-- What starts otherwise is none of the words that start with a point. -/
theorem contains_of_head? {words : List String}
    (hwords : ∀ word ∈ words, word.toList.head? = some '.')
    (htext : text.toList.head? ≠ some '.') : words.contains text = false := by
  rw [← Bool.not_eq_true, List.contains_iff_mem]
  exact fun hmem => htext (hwords text hmem)

variable {spelling : Decimal.Spelling} {negative : Bool}

/-- A spelling with a fraction or with an exponent has a point or an `e` behind its first digits. -/
theorem exists_mark (hdecimal : spelling.fraction ≠ [] ∨ spelling.exponentPart ≠ []) :
    ∃ mark rest, spelling.chars = spelling.whole ++ mark :: rest ∧ (mark = '.' ∨ mark = 'e') := by
  cases hfraction : spelling.fraction with
  | nil =>
    obtain ⟨mark, rest, hexponent⟩ :=
      List.exists_cons_of_ne_nil (hdecimal.resolve_left fun h => h hfraction)
    refine ⟨mark, rest, ?_, .inr (spelling.head_exponentPart mark (by rw [hexponent]; rfl))⟩
    rw [Decimal.Spelling.chars, hfraction, hexponent]
    rfl
  | cons c fraction =>
    refine ⟨'.', c :: fraction ++ spelling.exponentPart, ?_, .inl rfl⟩
    rw [Decimal.Spelling.chars, hfraction]
    rfl

/-- Such a spelling is not a whole number. -/
theorem natural?_chars (hdecimal : spelling.fraction ≠ [] ∨ spelling.exponentPart ≠ []) :
    natural? spelling.chars = none := by
  obtain ⟨mark, rest, hchars, hmark⟩ := exists_mark hdecimal
  have hmem : mark ∈ spelling.chars := by simp [hchars]
  have hdigit : Decimal.digit? 10 mark = none := by
    rcases hmark with rfl | rfl <;> decide
  -- The second character is a digit or the mark, so no other base is told.
  have hsecond : ∀ {d : Char} {ds : List Char}, spelling.chars = '0' :: d :: ds →
      Decimal.isDigit d ∨ d = '.' ∨ d = 'e' := by
    intro d ds h
    rw [hchars] at h
    match hwhole : spelling.whole with
    | [] => exact absurd hwhole spelling.whole_ne
    | [c] =>
      rw [hwhole] at h
      have hd : mark = d := (List.cons.inj (List.cons.inj h).2).1
      exact .inr (hd ▸ hmark)
    | c :: c' :: more =>
      rw [hwhole] at h
      have hd : c' = d := (List.cons.inj (List.cons.inj h).2).1
      refine .inl (hd ▸ spelling.whole_digits c' ?_)
      simp [hwhole]
  unfold natural?
  split
  case h_1 ds h => exact absurd (hsecond h) (by decide)
  case h_2 ds h => exact absurd (hsecond h) (by decide)
  case h_3 ds h => exact absurd (hsecond h) (by decide)
  case h_4 =>
    rw [Decimal.natOfDigits?_eq_none hmem hdigit]
    exact ite_self none

/-- The digits of such a spelling are not all digits. -/
theorem hasLeadingZero_chars (hdecimal : spelling.fraction ≠ [] ∨ spelling.exponentPart ≠ []) :
    hasLeadingZero spelling.chars = false := by
  obtain ⟨mark, rest, hchars, hmark⟩ := exists_mark hdecimal
  have hmem : mark ∈ spelling.chars := by simp [hchars]
  unfold hasLeadingZero
  split
  case h_1 c ds h =>
    rw [h] at hmem
    have hne : mark ≠ '0' := by rcases hmark with rfl | rfl <;> decide
    have hdigit : Decimal.isDigit mark = false := by rcases hmark with rfl | rfl <;> decide
    rw [← Bool.not_eq_true, List.all_eq_true]
    intro hall
    have h := hall mark ((List.mem_cons.mp hmem).resolve_left hne)
    rw [hdigit] at h
    cases h
  case h_2 => rfl

/-- A spelling in the range of binary64 numbers is read as what it stands for. -/
theorem float?_chars (htext : text.toList = (Decimal.signText negative).toList ++ spelling.chars)
    (hrange : inRange (spelling.value negative)) :
    float? text = some (spelling.value negative) := by
  obtain ⟨c, rest, hchars, hc⟩ := spelling.exists_digit_chars
  have hpoint : c ≠ '.' := by
    rintro rfl
    cases hc
  have hbody : [".inf", ".Inf", ".INF"].contains (String.ofList spelling.chars) = false := by
    refine contains_of_head? (by decide) ?_
    rw [String.toList_ofList, hchars, List.head?_cons]
    exact fun h => hpoint (Option.some.inj h)
  have hwhole : [".nan", ".NaN", ".NAN"].contains text = false := by
    refine contains_of_head? (by decide) ?_
    rw [htext, hchars]
    cases negative with
    | true => exact fun h => absurd (Option.some.inj h) (show '-' ≠ '.' by decide)
    | false => exact fun h => hpoint (Option.some.inj h)
  simp only [float?, htext, Decimal.Spelling.splitSign_chars, hbody, hwhole, Bool.false_eq_true,
    if_false, Decimal.Spelling.unsigned?_chars]
  exact Option.filter_some_pos hrange

/-- A spelling with a fraction or with an exponent means the decimal that it is read as. -/
theorem value?_chars (htext : text.toList = (Decimal.signText negative).toList ++ spelling.chars)
    (hdecimal : spelling.fraction ≠ [] ∨ spelling.exponentPart ≠ [])
    (hrange : inRange (spelling.value negative)) :
    value? text = some (.float (spelling.value negative)) := by
  obtain ⟨c, rest, hchars, hc⟩ := spelling.exists_digit_chars
  have hstarts : startsLikeNumber text := by
    rw [startsLikeNumber, htext, hchars]
    cases negative with
    | true => rfl
    | false =>
      show Option.any _ (some c) = true
      simp [hc]
  have hwhole : whole? text = none := by
    simp only [whole?, htext, Decimal.Spelling.splitSign_chars, natural?_chars hdecimal]
    rfl
  have hzero : hasLeadingZero (Decimal.splitSign text.toList).2 = false := by
    rw [htext, Decimal.Spelling.splitSign_chars]
    exact hasLeadingZero_chars hdecimal
  rw [value?, isNull_of_startsLikeNumber hstarts, if_neg Bool.false_ne_true,
    bool?_of_startsLikeNumber hstarts, hwhole]
  show (if _ then _ else _) = _
  rw [hzero, if_neg Bool.false_ne_true, float?_chars htext hrange]
  rfl

/-- The decimal of a binary64 number is read as a decimal that stands for the number. -/
theorem exists_float {x : Double} (hnumber : x.isNaN = false) :
    ∃ d, float? (Scalar.number (Numeral.toDecimal .even x)) = some d ∧
      value? (Scalar.number (Numeral.toDecimal .even x)) = some (.float d) ∧
      Numeral.ofDecimal d = x := by
  have hvalue : ∀ d, (Numeral.toDecimal .even x).Same d → Numeral.ofDecimal d = x :=
    fun d hsame => Double.ofDecimal_of_same hnumber hsame
  have hshortest : Numeral.toDecimal .even x = Binary64.shortest .even (.ofBits x.bits) := rfl
  cases hdecimal : Numeral.toDecimal .even x with
  | nan =>
    rw [hdecimal] at hshortest
    exact absurd (Binary64.eq_nan_of_shortest hshortest.symm) (Double.ofBits_ne_nan hnumber)
  | infinity negative =>
    rw [hdecimal] at hvalue
    refine ⟨.infinity negative, ?_, ?_, hvalue _ (.infinity negative)⟩
    · cases negative <;> decide
    · cases negative <;> rfl
  | finite negative coefficient exponent =>
    rw [hdecimal] at hvalue hshortest
    obtain ⟨spelling, htext, hsame, hmark⟩ :=
      Decimal.exists_spelling_documentText negative coefficient exponent
    have hread : Numeral.ofDecimal (spelling.value negative) = x := hvalue _ hsame
    have hrange : inRange (spelling.value negative) := by
      have hbits : Binary64.ofDecimal (spelling.value negative) = x.bits :=
        congrArg Double.bits hread
      obtain ⟨_, _, _, hfinite⟩ := Binary64.exists_finite_of_shortest hshortest.symm
      rw [inRange, hbits, hfinite]
    exact ⟨_, float?_chars htext hrange, value?_chars htext hmark hrange, hread⟩

end Plain

end Yaml

end SingingVoice
