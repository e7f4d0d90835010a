/-
This file shows which cells are reported as out of range. Characters are read from left
to right, so the numeral that a cell begins with decides, and what comes behind it does
not count once it is out of range.
-/

import Intcode.Proofs.BadCell

namespace Intcode

namespace Numeral

/-- A text is the numeral of an integer that no cell holds. -/
def OutOfRange (text : List Char) : Prop :=
  ∃ value, Denotes text value ∧ ¬ Cell.Fits value

/-- A text begins with the numeral of an integer that no cell holds, and a character that is no
digit follows it. -/
def Trailed (text : List Char) : Prop :=
  ∃ numeral other rest, text = numeral ++ other :: rest ∧ OutOfRange numeral ∧
    other.isDigit = false

section Run

variable {negative : Bool} {number : Nat} {text : List Char}

/-- Further digits decide nothing once an integer is out of range, so the digits up to the first
other character decide. -/
theorem readFrom_eq_outOfRange (fits : Cell.Fits (signed negative number)) :
    readFrom negative (signed negative number) text = .error .outOfRange ↔
      ¬ Cell.Fits (signed negative (Nat.ofDigitChars 10 (text.takeWhile Char.isDigit) number)) := by
  induction text generalizing number with
  | nil => simp [readFrom, fits]
  | cons character text inductionHypothesis =>
      rw [readFrom]
      by_cases isDigit : character.isDigit
      · rw [List.takeWhile_cons_of_pos isDigit, Nat.ofDigitChars_cons]
        simp only [digit?, isDigit, if_true, extend_signed]
        by_cases within : Cell.Fits (signed negative (10 * number + (character.toNat - '0'.toNat)))
        · rw [if_pos within, inductionHypothesis within]
        · rw [if_neg within]
          exact iff_of_true rfl (not_fits_of_le (le_ofDigitChars _ _) within)
      · rw [List.takeWhile_cons_of_neg isDigit]
        simp [digit?, isDigit, fits]

theorem readDigits_eq_outOfRange :
    readDigits negative text = .error .outOfRange ↔
      ¬ Cell.Fits (signed negative (magnitude (text.takeWhile Char.isDigit))) := by
  cases text with
  | nil =>
      have fits : Cell.Fits (signed negative (magnitude [])) := fits_signed_zero negative
      simp [readDigits, fits]
  | cons character text =>
      rw [readDigits_cons, readFrom_eq_outOfRange (fits_signed_zero negative), magnitude]

/-- There are digits in what is out of range. -/
theorem digits_of_not_fits
    (outside : ¬ Cell.Fits (signed negative (magnitude (text.takeWhile Char.isDigit)))) :
    Digits (text.takeWhile Char.isDigit) := by
  refine ⟨?_, fun _ inside => List.mem_takeWhile_imp inside⟩
  intro none
  rw [none] at outside
  exact outside (fits_signed_zero negative)

end Run

section Classification

variable {text : List Char}

/-- A numeral that is out of range ends the text, or something that is no digit follows it. -/
theorem outOfRange_or_trailed (sign : List Char)
    (outside : OutOfRange (sign ++ text.takeWhile Char.isDigit)) :
    OutOfRange (sign ++ text) ∨ Trailed (sign ++ text) := by
  have whole := List.takeWhile_append_dropWhile (p := Char.isDigit) (l := text)
  cases found : text.dropWhile Char.isDigit with
  | nil =>
      rw [found, List.append_nil] at whole
      rw [whole] at outside
      exact .inl outside
  | cons other rest =>
      have stops := List.head?_dropWhile_not Char.isDigit text
      rw [found] at stops
      rw [found] at whole
      refine .inr ⟨_, other, rest, ?_, outside, by simpa using stops⟩
      rw [List.append_assoc, whole]

/-- The characters behind a numeral are not reached if it is out of range. -/
theorem OutOfRange.read_append {numeral rest : List Char} (outside : OutOfRange numeral)
    (ended : ∀ other ∈ rest.head?, other.isDigit = false) :
    read (numeral ++ rest) = .error .outOfRange := by
  have isRead {negative : Bool} {digits : List Char} (isDigits : Digits digits)
      (unfit : ¬ Cell.Fits (signed negative (magnitude digits))) :
      readDigits negative (digits ++ rest) = .error .outOfRange := by
    have run : (digits ++ rest).takeWhile Char.isDigit = digits := by
      rw [List.takeWhile_append_of_pos isDigits.all]
      cases rest with
      | nil => simp
      | cons other rest => simp [ended other rfl]
    rwa [readDigits_eq_outOfRange, run]
  obtain ⟨value, denotes, unfit⟩ := outside
  cases denotes with
  | plus digits => exact isRead digits unfit
  | minus digits => exact isRead digits unfit
  | plain digits =>
      rw [read_append_of_digits digits]
      exact isRead digits unfit

theorem read_eq_outOfRange : read text = .error .outOfRange ↔ OutOfRange text ∨ Trailed text := by
  constructor
  · intro isRead
    unfold read at isRead
    split at isRead
    next => cases isRead
    next digits =>
      have outside := readDigits_eq_outOfRange.mp isRead
      exact outOfRange_or_trailed ['+'] ⟨_, .plus (digits_of_not_fits outside), outside⟩
    next digits =>
      have outside := readDigits_eq_outOfRange.mp isRead
      exact outOfRange_or_trailed ['-'] ⟨_, .minus (digits_of_not_fits outside), outside⟩
    next =>
      have outside := readDigits_eq_outOfRange.mp isRead
      exact outOfRange_or_trailed [] ⟨_, .plain (digits_of_not_fits outside), outside⟩
  · rintro (outside | ⟨numeral, other, rest, rfl, outside, ended⟩)
    · rw [← List.append_nil text]
      exact outside.read_append nofun
    · exact outside.read_append (by simpa using ended)

/-- A numeral that is not read is out of range. -/
theorem outOfRange_of_denotes {value : Int} {problem : Problem} (denotes : Denotes text value)
    (failed : read text = .error problem) : OutOfRange text := by
  refine ⟨value, denotes, ?_⟩
  intro fits
  rw [← Cell.toInt_ofInt fits] at denotes
  rw [read_eq_ok.mpr denotes] at failed
  cases failed

end Classification

end Numeral

namespace Program

/-- No error is reported in both ways. -/
theorem ParseError.ReportsRange.not_reportsForm {error : ParseError} {cell : String}
    (range : error.ReportsRange cell) : ¬ error.ReportsForm cell := by
  intro form
  have notes := congrArg Diagnostic.notes (range.symm.trans form)
  cases notes

/-- A cell that is not empty is reported as out of range if it is the numeral of an integer that no
cell holds, or begins with one that something else follows. It is reported as no integer if it is no
numeral and does not begin so. -/
theorem range_is_reported_by_leading_numeral {source : Source} {error : ParseError}
    (failed : parse source = .error error) (present : error.span.contents ≠ "") :
    ∃ body before piece leading core trailing,
      Headed source.text.toList body ∧ FirstBad body before piece ∧
      Text.Trims leading core trailing piece ∧
      let cell := String.ofList core
      error.span.contents = cell ∧
      (error.ReportsRange cell ↔ Numeral.OutOfRange core ∨ Numeral.Trailed core) ∧
      (error.ReportsForm cell ↔
        (¬ ∃ value, Numeral.Denotes core value) ∧ ¬ Numeral.Trailed core) := by
  obtain ⟨body, before, piece, headed, bad, inside, why⟩ := exists_firstBad failed
  have contents : error.span.contents = String.ofList (Text.trim piece) := congrArg String.ofList inside
  have written : Text.trim piece ≠ [] := by
    intro none
    rw [contents, none] at present
    exact present rfl
  refine ⟨body, before, piece, _, _, _, headed, bad, Text.trims piece, contents, ?_⟩
  obtain ⟨problem, isProblem, isRead⟩ := why written
  cases problem with
  | empty => exact absurd (Numeral.read_eq_empty.mp isRead) written
  | invalidDigit =>
      have form := ParseError.reportsForm_of_problem isProblem
      rw [contents] at form
      have within : ¬ (Numeral.OutOfRange (Text.trim piece) ∨ Numeral.Trailed (Text.trim piece)) := by
        rw [← Numeral.read_eq_outOfRange, isRead]
        nofun
      refine ⟨iff_of_false (fun range => range.not_reportsForm form) within,
        iff_of_true form ⟨?_, fun trailed => within (.inr trailed)⟩⟩
      rintro ⟨value, denotes⟩
      exact within (.inl (Numeral.outOfRange_of_denotes denotes isRead))
  | outOfRange =>
      have range := ParseError.reportsRange_of_problem isProblem
      rw [contents] at range
      have outside := Numeral.read_eq_outOfRange.mp isRead
      refine ⟨iff_of_true range outside, iff_of_false range.not_reportsForm ?_⟩
      rintro ⟨noNumeral, plain⟩
      obtain ⟨value, denotes, _⟩ := outside.resolve_right plain
      exact noNumeral ⟨value, denotes⟩

/-- A letter behind a numeral that is out of range is not noticed. -/
theorem letter_behind_large_numeral_not_noticed :
    ∃ error, parse (.unnamed "9223372036854775808x") = .error error ∧
      error.ReportsRange "9223372036854775808x" ∧
      ¬ ∃ value, Numeral.Denotes "9223372036854775808x".toList value := by
  have failed : parse (.unnamed "9223372036854775808x") =
      .error ⟨.badCell .outOfRange, ⟨"./source", [], "9223372036854775808x".toList, []⟩⟩ := by
    decide +kernel
  obtain ⟨_, _, _, _, core, _, _, _, _, contents, range, _⟩ :=
    range_is_reported_by_leading_numeral failed (by decide)
  have cell : core = "9223372036854775808x".toList := String.ofList_injective contents.symm
  subst cell
  have digits : Numeral.Digits "9223372036854775808".toList :=
    ⟨by decide, List.all_eq_true.mp rfl⟩
  have large : Numeral.OutOfRange "9223372036854775808".toList :=
    ⟨_, .plain digits, by decide +kernel⟩
  refine ⟨_, failed, range.mpr (.inr ⟨_, 'x', [], by decide, large, by decide⟩), ?_⟩
  rintro ⟨value, denotes⟩
  exact absurd (denotes.character (by decide : 'x' ∈ _)) (by decide)

end Program

end Intcode
