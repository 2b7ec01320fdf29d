import Mathlib.Data.List.Basic
import Mathlib.Data.List.TakeWhile
import SingingVoice.Text.Line

/-!
# Lines and ends of a text

`Broken cs ls` says without the splitting function that the text `cs` falls into the lines `ls`;
`broken_iff` shows that `lines` finds these lines and no others. Two texts with a line feed between
them have the lines of the first and then the lines of the second (`lines_append_newline`).
Trimming takes away white space at the ends and nothing else.
-/

namespace SingingVoice.Line

variable {separator c : Char} {cs part rest : List Char}

/-! ## Parts -/

/-- Splitting at a character is splitting a list at an element. -/
theorem splitOn_eq (separator : Char) (cs : List Char) :
    splitOn separator cs = cs.splitOn separator := by
  induction cs with
  | nil => rfl
  | cons c cs ih =>
    obtain ⟨part, parts, hparts⟩ := List.exists_cons_of_ne_nil (List.splitOn_ne_nil separator cs)
    simp only [splitOn, ih, List.splitOn_cons_eq_if_modifyHead, hparts, List.modifyHead_cons,
      beq_iff_eq]

/-- A text is one part, or a part, a separator and a text. -/
@[elab_as_elim]
theorem parts_induction {motive : List Char → Prop} (separator : Char)
    (last : ∀ part, separator ∉ part → motive part)
    (more : ∀ part rest, separator ∉ part → motive rest → motive (part ++ separator :: rest))
    (cs : List Char) : motive cs := by
  by_cases hcs : separator ∈ cs
  · obtain ⟨part, rest, hsplit, hpart⟩ := List.eq_append_cons_of_mem hcs
    have hlt : rest.length < cs.length := by simp [hsplit]; omega
    rw [hsplit]
    exact more part rest hpart (parts_induction separator last more rest)
  · exact last cs hcs
termination_by cs.length

/-- There is one part more than there are separators. -/
theorem length_splitOn (cs : List Char) :
    (cs.splitOn separator).length = cs.count separator + 1 := by
  induction cs using parts_induction separator with
  | last part hpart => simp [List.splitOn_eq_singleton hpart, List.count_eq_zero.mpr hpart]
  | more part rest hpart ih =>
    rw [List.splitOn_append_cons_self_of_not_mem hpart, List.length_cons, ih, List.count_append,
      List.count_cons_self, List.count_eq_zero.mpr hpart]
    omega

/-- The last character of a text belongs to its last part. -/
theorem getLast?_of_getLast?_splitOn (hlast : (cs.splitOn separator).getLast? = some part)
    (hc : cs.getLast? = some c) (hne : c ≠ separator) : part.getLast? = some c := by
  induction cs using parts_induction separator with
  | last cs hcs =>
    rw [List.splitOn_eq_singleton hcs] at hlast
    obtain rfl : cs = part := by simpa using hlast
    exact hc
  | more first rest hfirst ih =>
    rw [List.splitOn_append_cons_self_of_not_mem hfirst,
      List.getLast?_cons_of_ne_nil (List.splitOn_ne_nil _ _)] at hlast
    refine ih hlast ?_
    rw [List.getLast?_append_cons] at hc
    cases rest with
    | nil => exact absurd (by simpa using hc) (Ne.symm hne)
    | cons d rest => exact hc

/-- The first separator is the one that nothing but other characters stand before. -/
theorem splitOnce?_eq_some_iff {before after : List Char} :
    splitOnce? separator cs = some (before, after) ↔
      cs = before ++ separator :: after ∧ separator ∉ before := by
  induction cs generalizing before with
  | nil => simp [splitOnce?]
  | cons c cs ih =>
    rw [splitOnce?]
    split
    case isTrue hc =>
      cases before with
      | nil => simp [hc, eq_comm]
      | cons b before =>
        refine ⟨by simp, fun ⟨hsplit, hfirst⟩ => ?_⟩
        obtain ⟨rfl, -⟩ := List.cons.inj hsplit
        exact absurd (hc ▸ List.mem_cons_self) hfirst
    case isFalse hc =>
      cases before with
      | nil =>
        refine ⟨by simp, fun ⟨hsplit, _⟩ => ?_⟩
        exact absurd (List.cons.inj hsplit).1 hc
      | cons b before =>
        simp only [Option.map_eq_some_iff, Prod.exists, Prod.mk.injEq, List.cons.injEq,
          List.cons_append, List.mem_cons, not_or]
        constructor
        · rintro ⟨_, _, hrest, ⟨rfl, rfl⟩, rfl⟩
          obtain ⟨rfl, hbefore⟩ := ih.mp hrest
          exact ⟨⟨rfl, rfl⟩, fun h => hc h.symm, hbefore⟩
        · rintro ⟨⟨rfl, rfl⟩, -, hbefore⟩
          exact ⟨_, _, ih.mpr ⟨rfl, hbefore⟩, ⟨rfl, rfl⟩, rfl⟩

/-! ## Lines -/

/-- `Broken cs ls`: the text `cs` falls into the lines `ls`. A line ends at a line feed, or at a
carriage return and a line feed, or at the end of the text if anything is left there. -/
inductive Broken : List Char → List (List Char) → Prop
  /-- Nothing is left. -/
  | nil : Broken [] []
  /-- The text ends without a line break. -/
  | last {line} : line ≠ [] → '\n' ∉ line → Broken line [line]
  /-- A line ends at a line feed. -/
  | lineFeed {line rest ls} : '\n' ∉ line → line.getLast? ≠ some '\r' → Broken rest ls →
    Broken (line ++ '\n' :: rest) (line :: ls)
  /-- A line ends at a carriage return with a line feed. -/
  | returnLineFeed {line rest ls} : '\n' ∉ line → Broken rest ls →
    Broken (line ++ '\r' :: '\n' :: rest) (line :: ls)

theorem dropReturn_append_return : dropReturn (cs ++ ['\r']) = cs := by
  simp [dropReturn]

theorem dropReturn_of_ne (hcs : cs.getLast? ≠ some '\r') : dropReturn cs = cs :=
  if_neg hcs

theorem lines_of_not_mem (hcs : '\n' ∉ cs) : lines cs = if cs.isEmpty then [] else [cs] := by
  simp [lines, splitOn_eq, List.splitOn_eq_singleton hcs]

/-- Two texts with a line feed between them fall into the lines of both. -/
theorem lines_append_newline (a b : List Char) :
    lines (a ++ '\n' :: b) = (a.splitOn '\n').map dropReturn ++ lines b := by
  have hb : b.splitOn '\n' ≠ [] := List.splitOn_ne_nil _ _
  rw [lines, lines, splitOn_eq, splitOn_eq, List.splitOn_append_cons_self,
    List.dropLast_append_of_ne_nil hb, List.getLast?_append_of_ne_nil _ hb, List.map_append,
    List.append_assoc]

theorem lines_line_append (hpart : '\n' ∉ part) :
    lines (part ++ '\n' :: rest) = dropReturn part :: lines rest := by
  rw [lines_append_newline, List.splitOn_eq_singleton hpart, List.map_singleton,
    List.singleton_append]

/-- The lines of a text are lines that it falls into. -/
theorem broken_lines (cs : List Char) : Broken cs (lines cs) := by
  induction cs using parts_induction '\n' with
  | last part hpart =>
    rw [lines_of_not_mem hpart]
    split
    case isTrue hempty => rw [List.isEmpty_iff.mp hempty]; exact .nil
    case isFalse hempty => exact .last (fun h => hempty (List.isEmpty_iff.mpr h)) hpart
  | more part rest hpart ih =>
    rw [lines_line_append hpart]
    by_cases hreturn : part.getLast? = some '\r'
    · obtain ⟨line, rfl⟩ : ∃ line, part = line ++ ['\r'] := List.getLast?_eq_some_iff.mp hreturn
      rw [dropReturn_append_return, List.append_assoc]
      exact .returnLineFeed (fun h => hpart (List.mem_append_left _ h)) ih
    · rw [dropReturn_of_ne hreturn]
      exact .lineFeed hpart hreturn ih

/-- A text falls into lines in one way only. -/
theorem broken_iff {ls : List (List Char)} : Broken cs ls ↔ lines cs = ls := by
  constructor
  · intro hbroken
    induction hbroken with
    | nil => rfl
    | last hne hline => rw [lines_of_not_mem hline, if_neg (by simpa using hne)]
    | lineFeed hline hreturn _ ih => rw [lines_line_append hline, dropReturn_of_ne hreturn, ih]
    | @returnLineFeed line rest ls hline _ ih =>
      have hsplit : line ++ '\r' :: '\n' :: rest = (line ++ ['\r']) ++ '\n' :: rest := by simp
      rw [hsplit, lines_line_append (by simpa using hline), dropReturn_append_return, ih]
  · rintro rfl
    exact broken_lines cs

/-! ## Ends -/

/-- Characters that are dropped from the end anyway may as well be missing. -/
theorem dropEndWhile_concat {p : Char → Bool} (hc : p c) :
    dropEndWhile p (cs ++ [c]) = dropEndWhile p cs := by
  simp [dropEndWhile, hc]

theorem dropEndWhile_of_getLast? {p : Char → Bool} (hlast : cs.getLast? = some c)
    (hc : p c = false) : dropEndWhile p cs = cs := by
  obtain ⟨cs, rfl⟩ := List.getLast?_eq_some_iff.mp hlast
  simp [dropEndWhile, hc]

theorem mem_dropWhile {p : Char → Bool} (hmem : c ∈ cs) (hc : p c = false) :
    c ∈ cs.dropWhile p := by
  rw [← List.takeWhile_append_dropWhile (p := p) (l := cs), List.mem_append] at hmem
  rcases hmem with hmem | hmem
  · rw [List.mem_takeWhile_imp hmem] at hc
    cases hc
  · exact hmem

/-- Trimming keeps every character that is no white space. -/
theorem mem_trim (hmem : c ∈ cs) (hc : Unicode.isWhiteSpace c = false) : c ∈ trim cs := by
  have hstart : c ∈ trimStart cs := mem_dropWhile hmem hc
  exact List.mem_reverse.mpr (mem_dropWhile (List.mem_reverse.mpr hstart) hc)

/-- Trimming does not see white space at the end. -/
theorem trim_concat (hc : Unicode.isWhiteSpace c) : trim (cs ++ [c]) = trim cs := by
  rw [trim, trim, trimStart, trimStart, List.dropWhile_append]
  split
  case isTrue hempty => rw [List.isEmpty_iff.mp hempty, List.dropWhile_cons_of_pos hc]; rfl
  case isFalse => exact dropEndWhile_concat hc

/-- A text without white space is not changed by trimming. -/
theorem trim_of_not_whiteSpace (hcs : ∀ c ∈ cs, Unicode.isWhiteSpace c = false) :
    trim cs = cs := by
  have hstart : ∀ cs : List Char, (∀ c ∈ cs, Unicode.isWhiteSpace c = false) →
      cs.dropWhile Unicode.isWhiteSpace = cs := by
    intro cs hcs
    cases cs with
    | nil => rfl
    | cons c cs => rw [List.dropWhile_cons_of_neg (by simp [hcs c List.mem_cons_self])]
  rw [trim, trimStart, hstart cs hcs, trimEnd, dropEndWhile,
    hstart cs.reverse fun c hc => hcs c (List.mem_reverse.mp hc), List.reverse_reverse]

/-- Nothing is left of a text by trimming if it is blank. -/
theorem trim_eq_nil_iff : trim cs = [] ↔ ∀ c ∈ cs, Unicode.isWhiteSpace c := by
  constructor
  · intro htrim c hmem
    by_contra hc
    have hleft := mem_trim hmem (Bool.eq_false_iff.mpr hc)
    rw [htrim] at hleft
    cases hleft
  · intro hcs
    have hstart : trimStart cs = [] := List.dropWhile_eq_nil_iff.mpr hcs
    rw [trim, hstart]
    rfl

end SingingVoice.Line
