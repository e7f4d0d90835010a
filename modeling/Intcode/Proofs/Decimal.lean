/-
This file says which texts are decimal numerals and which integers they denote. The
numeral of a cell is read as that cell, and nothing else is read at all.
-/

import Intcode.Numeral
import Intcode.Text.Blank
import Mathlib.Tactic

namespace Intcode

namespace Numeral

/-- One or more ASCII digits. -/
structure Digits (text : List Char) : Prop where
  present : text ≠ []
  all : ∀ character ∈ text, character.isDigit

/-- The number that digits stand for. -/
def magnitude (digits : List Char) : Nat :=
  Nat.ofDigitChars 10 digits 0

/-- A text is an optional sign and one or more digits, and denotes this integer. -/
inductive Denotes : List Char → Int → Prop where
  | plain {text : List Char} (digits : Digits text) : Denotes text (magnitude text)
  | plus {text : List Char} (digits : Digits text) : Denotes ('+' :: text) (magnitude text)
  | minus {text : List Char} (digits : Digits text) : Denotes ('-' :: text) (-magnitude text)

/-- The integer with a sign and a magnitude. -/
def signed (negative : Bool) (number : Nat) : Int :=
  if negative then -number else number

theorem extend_signed (negative : Bool) (number digit : Nat) :
    extend negative (signed negative number) digit = signed negative (10 * number + digit) := by
  cases negative <;> simp only [extend, signed, Bool.false_eq_true, if_true, if_false] <;> omega

/-- A number does not get smaller by further digits. -/
theorem le_ofDigitChars (number : Nat) (digits : List Char) :
    number ≤ Nat.ofDigitChars 10 digits number := by
  have positive : 0 < 10 ^ digits.length := Nat.pow_pos (by decide)
  have scaled := Nat.le_mul_of_pos_left number positive
  rw [Nat.ofDigitChars_eq_ofDigitChars_zero]
  omega

/-- Further digits do not bring an integer back into range. -/
theorem not_fits_of_le {negative : Bool} {number more : Nat} (within : number ≤ more)
    (outside : ¬ Cell.Fits (signed negative number)) : ¬ Cell.Fits (signed negative more) := by
  unfold Cell.Fits at outside ⊢
  cases negative <;> simp only [signed, Bool.false_eq_true, if_true, if_false] at outside ⊢ <;> omega

/-- Digits are read if there are only digits and the number fits. -/
theorem readFrom_eq_ok {negative : Bool} {number : Nat} {digits : List Char} {cell : Cell}
    (fits : Cell.Fits (signed negative number)) :
    readFrom negative (signed negative number) digits = .ok cell ↔
      (∀ character ∈ digits, character.isDigit) ∧
        cell.toInt = signed negative (Nat.ofDigitChars 10 digits number) := by
  induction digits generalizing number with
  | nil =>
      rw [readFrom, Except.ok.injEq, Nat.ofDigitChars_nil]
      constructor
      · rintro rfl
        exact ⟨nofun, Cell.toInt_ofInt fits⟩
      · rintro ⟨_, same⟩
        rw [← same, Int64.ofInt_toInt]
  | cons character digits inductionHypothesis =>
      rw [readFrom, Nat.ofDigitChars_cons, List.forall_mem_cons]
      by_cases isDigit : character.isDigit
      · simp only [digit?, isDigit, if_true, extend_signed]
        by_cases fits : Cell.Fits (signed negative (10 * number + (character.toNat - '0'.toNat)))
        · rw [if_pos fits, inductionHypothesis fits]
          simp
        · rw [if_neg fits]
          constructor
          · nofun
          · rintro ⟨_, same⟩
            exact absurd (same ▸ cell.fits_toInt) (not_fits_of_le (le_ofDigitChars _ digits) fits)
      · simp [digit?, isDigit]

theorem fits_signed_zero (negative : Bool) : Cell.Fits (signed negative 0) := by
  cases negative <;> decide

theorem readDigits_cons (negative : Bool) (character : Char) (digits : List Char) :
    readDigits negative (character :: digits) =
      readFrom negative (signed negative 0) (character :: digits) := by
  cases negative <;> rfl

theorem readDigits_eq_ok {negative : Bool} {digits : List Char} {cell : Cell} :
    readDigits negative digits = .ok cell ↔
      Digits digits ∧ cell.toInt = signed negative (magnitude digits) := by
  cases digits with
  | nil => exact ⟨nofun, fun read => absurd rfl read.1.present⟩
  | cons character digits =>
      rw [readDigits_cons, readFrom_eq_ok (fits_signed_zero negative), magnitude]
      constructor
      · rintro ⟨all, same⟩
        exact ⟨⟨List.cons_ne_nil _ _, all⟩, same⟩
      · rintro ⟨digits, same⟩
        exact ⟨digits.all, same⟩

/-- Digits alone do not begin with a sign. -/
theorem read_append_of_digits {digits : List Char} (isDigits : Digits digits) (rest : List Char) :
    read (digits ++ rest) = readDigits false (digits ++ rest) := by
  rcases digits with _ | ⟨first, digits⟩
  · exact absurd rfl isDigits.present
  have isDigit := isDigits.all first List.mem_cons_self
  rw [List.cons_append]
  unfold read
  split
  next none => cases none
  next same => cases same; exact absurd isDigit (by decide)
  next same => cases same; exact absurd isDigit (by decide)
  next => rfl

/-- The numerals that are read are those that denote the integer of a cell. -/
theorem read_eq_ok {text : List Char} {cell : Cell} :
    read text = .ok cell ↔ Denotes text cell.toInt := by
  constructor
  · intro isRead
    unfold read at isRead
    split at isRead
    next => cases isRead
    next =>
      obtain ⟨digits, same⟩ := readDigits_eq_ok.mp isRead
      rw [same]
      exact .plus digits
    next =>
      obtain ⟨digits, same⟩ := readDigits_eq_ok.mp isRead
      rw [same]
      exact .minus digits
    next =>
      obtain ⟨digits, same⟩ := readDigits_eq_ok.mp isRead
      rw [same]
      exact .plain digits
  · intro denotes
    generalize same : cell.toInt = value at denotes
    cases denotes with
    | plus digits => exact readDigits_eq_ok.mpr ⟨digits, same⟩
    | minus digits => exact readDigits_eq_ok.mpr ⟨digits, same⟩
    | plain digits =>
        have plain := read_append_of_digits digits []
        rw [List.append_nil] at plain
        rw [plain]
        exact readDigits_eq_ok.mpr ⟨digits, same⟩

/-- A numeral has no characters but signs and digits. -/
theorem Denotes.character {text : List Char} {value : Int} (denotes : Denotes text value)
    {character : Char} (inside : character ∈ text) :
    character = '+' ∨ character = '-' ∨ character.isDigit := by
  cases denotes with
  | plain digits => exact .inr (.inr (digits.all _ inside))
  | plus digits =>
      rcases List.mem_cons.mp inside with sign | inside
      · exact .inl sign
      · exact .inr (.inr (digits.all _ inside))
  | minus digits =>
      rcases List.mem_cons.mp inside with sign | inside
      · exact .inr (.inl sign)
      · exact .inr (.inr (digits.all _ inside))

theorem Denotes.present {text : List Char} {value : Int} (denotes : Denotes text value) :
    text ≠ [] := by
  cases denotes with
  | plain digits => exact digits.present
  | plus | minus => exact List.cons_ne_nil _ _

end Numeral

/-- A digit is between zero and nine in the order of characters. -/
theorem Text.toNat_of_isDigit {character : Char} (isDigit : character.isDigit) :
    48 ≤ character.toNat ∧ character.toNat ≤ 57 := by
  simpa [Char.isDigit, UInt32.le_iff_toNat_le] using isDigit

theorem Text.isBlank_of_isDigit {character : Char} (isDigit : character.isDigit) :
    isBlank character = false := by
  have bounds := toNat_of_isDigit isDigit
  simp only [isBlank, blankRanges, List.any_cons, List.any_nil, Bool.or_false,
    Bool.or_eq_false_iff, Bool.and_eq_false_iff, decide_eq_false_iff_not]
  omega

theorem Numeral.Denotes.isBlank {text : List Char} {value : Int} (denotes : Denotes text value)
    {character : Char} (inside : character ∈ text) : Text.isBlank character = false := by
  rcases denotes.character inside with rfl | rfl | isDigit
  · decide
  · decide
  · exact Text.isBlank_of_isDigit isDigit

/-- The text of a cell denotes its integer. -/
theorem Cell.render_denotes (cell : Cell) : Numeral.Denotes cell.render.toList cell.toInt := by
  have digits (number : Nat) : Numeral.Digits (Nat.toDigits 10 number) :=
    ⟨Nat.toDigits_ne_nil, fun _ inside =>
      Nat.isDigit_of_mem_toDigits (by decide) (by decide) inside⟩
  have number (number : Nat) : Numeral.magnitude (Nat.toDigits 10 number) = number :=
    Nat.ofDigitChars_ten_toDigits
  rw [render, Int.toString_eq_repr, Int.repr_eq_if]
  split
  next positive =>
    have denotes := Numeral.Denotes.plain (digits cell.toInt.toNat)
    rw [number, Int.toNat_of_nonneg positive] at denotes
    rwa [Nat.toList_repr]
  next negative =>
    have denotes := Numeral.Denotes.minus (digits (-cell.toInt).toNat)
    rw [number, Int.toNat_of_nonneg (by omega), Int.neg_neg] at denotes
    rwa [String.toList_append, Nat.toList_repr]

end Intcode
