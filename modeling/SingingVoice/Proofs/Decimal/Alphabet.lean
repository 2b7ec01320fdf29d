import Mathlib
import SingingVoice.Decimal.Numeral
import SingingVoice.Proofs.Text.Line

/-!
# Characters of numerals

A numeral consists of ASCII letters and digits, points and signs
(`Decimal.isNumeralChar_of_parse?`). So it contains neither the separators of records nor white
space, and trimming leaves it as it is (`Numeral.trim_of_parse?`).
-/

namespace SingingVoice

namespace Decimal

variable {cs : List Char} {c : Char}

/-- Whether a character may stand in a numeral. -/
def isNumeralChar (c : Char) : Bool :=
  isDigit c || c.isAlpha || c = '.' || c = '+' || c = '-'

theorem isNumeralChar_of_isDigit (hc : isDigit c) : isNumeralChar c := by
  simp [isNumeralChar, hc]

/-- Only a sign is split off. -/
theorem mem_splitSign (hmem : c ∈ cs) : isNumeralChar c ∨ c ∈ (splitSign cs).2 := by
  unfold splitSign
  split
  case h_1 =>
    rcases List.mem_cons.mp hmem with rfl | hmem
    · exact .inl (by decide)
    · exact .inr hmem
  case h_2 =>
    rcases List.mem_cons.mp hmem with rfl | hmem
    · exact .inl (by decide)
    · exact .inr hmem
  case h_3 => exact .inr hmem

theorem isNumeralChar_of_int? {n : Int} (hparse : int? cs = some n) (hmem : c ∈ cs) :
    isNumeralChar c := by
  simp only [int?] at hparse
  split at hparse
  case isTrue hdigits =>
    rcases mem_splitSign hmem with hsign | hmem
    · exact hsign
    · exact isNumeralChar_of_isDigit (List.all_eq_true.mp hdigits c hmem)
  case isFalse => cases hparse

theorem isNumeralChar_of_exponentPart? {n : Int} (hparse : exponentPart? cs = some n)
    (hmem : c ∈ cs) : isNumeralChar c := by
  cases cs with
  | nil => cases hmem
  | cons mark rest =>
    rw [exponentPart?] at hparse
    split at hparse
    case isTrue hmark =>
      rcases List.mem_cons.mp hmem with rfl | hmem
      · rcases hmark with rfl | rfl <;> decide
      · exact isNumeralChar_of_int? hparse hmem
    case isFalse => cases hparse

/-- What is no digit is left over after the digits at the front. -/
theorem isNumeralChar_or_mem_dropWhile (hmem : c ∈ cs) :
    isNumeralChar c ∨ c ∈ cs.dropWhile isDigit := by
  cases hc : isDigit c with
  | true => exact .inl (isNumeralChar_of_isDigit hc)
  | false => exact .inr (Line.mem_dropWhile hmem hc)

theorem isNumeralChar_of_unsigned? {negative : Bool} {d : Decimal}
    (hparse : unsigned? negative cs = some d) (hmem : c ∈ cs) : isNumeralChar c := by
  simp only [unsigned?, Option.bind_eq_bind, Option.bind_eq_some_iff] at hparse
  obtain ⟨coefficient, -, exponent, hexponent, -⟩ := hparse
  rcases isNumeralChar_or_mem_dropWhile hmem with hdigit | hrest
  · exact hdigit
  split at hexponent
  next tail heq =>
    rw [heq] at hrest
    rcases List.mem_cons.mp hrest with rfl | hrest
    · decide
    rcases isNumeralChar_or_mem_dropWhile hrest with hdigit | hrest
    · exact hdigit
    · exact isNumeralChar_of_exponentPart? hexponent hrest
  next => exact isNumeralChar_of_exponentPart? hexponent hrest

/-- A word in any case consists of letters if it does in small ones. -/
theorem isAlpha_of_word {word : String} (hword : String.ofList (cs.map Char.toLower) = word)
    (hletters : word.toList.all Char.isAlpha) (hmem : c ∈ cs) : c.isAlpha := by
  have hlower : c.toLower ∈ word.toList := by
    rw [← hword, String.toList_ofList]
    exact List.mem_map_of_mem hmem
  have halpha : c.toLower.isAlpha := List.all_eq_true.mp hletters _ hlower
  rwa [Char.isAlpha_toLower_eq_isAlpha] at halpha

/-- The words for infinities and for no number are made of the characters of numerals. -/
theorem isNumeralChar_of_word {word : String} (hword : String.ofList (cs.map Char.toLower) = word)
    (hletters : word.toList.all Char.isAlpha) (hmem : c ∈ cs) : isNumeralChar c := by
  simp [isNumeralChar, isAlpha_of_word hword hletters hmem]

/-- A numeral has no other characters than letters, digits, points and signs. -/
theorem isNumeralChar_of_parse? {d : Decimal} (hparse : parse? cs = some d) (hmem : c ∈ cs) :
    isNumeralChar c := by
  rcases mem_splitSign hmem with hsign | hmem
  · exact hsign
  simp only [parse?] at hparse
  split at hparse
  case isTrue hword =>
    rcases hword with hword | hword
    · exact isNumeralChar_of_word hword (by decide) hmem
    · exact isNumeralChar_of_word hword (by decide) hmem
  case isFalse =>
    split at hparse
    case isTrue hword => exact isNumeralChar_of_word hword (by decide) hmem
    case isFalse => exact isNumeralChar_of_unsigned? hparse hmem

theorem toNat_of_isNumeralChar (hc : isNumeralChar c) : 0x2b ≤ c.toNat ∧ c.toNat ≤ 0x7a := by
  simp only [isNumeralChar, isDigit, Char.isAlpha, Char.isUpper, Char.isLower, Bool.or_eq_true,
    Bool.and_eq_true, decide_eq_true_eq, Char.le_def, UInt32.le_iff_toNat_le, ge_iff_le] at hc
  rcases hc with (((hc | hc | hc) | rfl) | rfl) | rfl
  · exact ⟨Nat.le_trans (by decide) hc.1, Nat.le_trans hc.2 (by decide)⟩
  · exact ⟨Nat.le_trans (by decide) hc.1, Nat.le_trans hc.2 (by decide)⟩
  · exact ⟨Nat.le_trans (by decide) hc.1, Nat.le_trans hc.2 (by decide)⟩
  all_goals decide

/-- White space comes before all characters of numerals or after them. -/
theorem isWhiteSpace_of_isNumeralChar (hc : isNumeralChar c) : Unicode.isWhiteSpace c = false := by
  obtain ⟨hlow, hhigh⟩ := toNat_of_isNumeralChar hc
  simp [Unicode.isWhiteSpace, Unicode.covers, Unicode.whiteSpace]
  omega

end Decimal

namespace Numeral

variable {α : Type} [Numeral α] {cs : List Char} {c : Char} {x : α}

theorem isNumeralChar_of_parse? (hparse : parse? cs = some x) (hmem : c ∈ cs) :
    Decimal.isNumeralChar c := by
  obtain ⟨d, hd, -⟩ := Option.map_eq_some_iff.mp hparse
  exact Decimal.isNumeralChar_of_parse? hd hmem

/-- A character that may not stand in numerals does not. -/
theorem not_mem_of_parse? (hparse : parse? cs = some x) (hc : Decimal.isNumeralChar c = false) :
    c ∉ cs := by
  intro hmem
  rw [isNumeralChar_of_parse? hparse hmem] at hc
  cases hc

/-- There is nothing to trim at a numeral. -/
theorem trim_of_parse? (hparse : parse? cs = some x) : Line.trim cs = cs :=
  Line.trim_of_not_whiteSpace fun _ hmem =>
    Decimal.isWhiteSpace_of_isNumeralChar (isNumeralChar_of_parse? hparse hmem)

end Numeral

end SingingVoice
