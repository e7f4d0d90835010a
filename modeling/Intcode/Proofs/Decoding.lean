/-
This file shows that an instruction's first cell is decoded by its decimal digits, also if
it is below zero. The digits can be found in the arithmetic of cells, and those of
parameters that an operation does not take make no difference.
-/

import Intcode.Proofs.Simulation
import Mathlib.Data.Int.ModEq
import Mathlib.Data.Rat.Floor

namespace Intcode

/-- Numbers that agree in their low digits still do so when the lowest ones are cut off. -/
theorem ediv_modEq {left right scale base : Int} (positive : 0 < scale)
    (same : left ≡ right [ZMOD scale * base]) : left / scale ≡ right / scale [ZMOD base] := by
  obtain ⟨factor, difference⟩ := same.dvd
  have whole : right = left + scale * (base * factor) := by
    rw [← mul_assoc, ← difference]
    ring
  rw [whole, Int.add_mul_ediv_left _ _ positive.ne']
  exact Int.modEq_iff_dvd.mpr ⟨factor, by ring⟩

namespace Cell

/-- The quotient of two cells that leaves a remainder which is not negative, if there is one and it
fits in a cell. -/
def quotient? (cell divisor : Cell) : Option Cell :=
  if divisor = 0 then none else ofInt? (cell.toInt / divisor.toInt)

/-- The remainder that the quotient of two cells leaves, if there is a quotient. -/
def remainder? (cell divisor : Cell) : Option Cell := do
  let _ ← cell.quotient? divisor
  ofInt? (cell.toInt % divisor.toInt)

theorem fits_ediv {value divisor : Int} (fits : Fits value) (positive : 0 < divisor) :
    Fits (value / divisor) := by
  obtain ⟨low, high⟩ := fits
  constructor
  · rw [Int.le_ediv_iff_mul_le positive]
    nlinarith
  · rcases Int.lt_or_le value 0 with negative | nonnegative
    · have below := Int.ediv_neg_of_neg_of_pos negative positive
      omega
    · exact (Int.ediv_le_self divisor nonnegative).trans high

section Division

variable (cell divisor : Cell) (positive : 0 < divisor.toInt)

include positive

/-- A quotient by a cell above zero does not overflow. -/
theorem exists_quotient? :
    ∃ quotient, cell.quotient? divisor = some quotient ∧
      quotient.toInt = cell.toInt / divisor.toInt := by
  have fits := fits_ediv cell.fits_toInt positive
  have nonzero : divisor ≠ 0 := by
    rintro rfl
    exact absurd positive (by decide)
  refine ⟨Int64.ofInt (cell.toInt / divisor.toInt), ?_, toInt_ofInt fits⟩
  rw [quotient?, if_neg nonzero, ofInt?, if_pos fits]

theorem exists_remainder? :
    ∃ remainder, cell.remainder? divisor = some remainder ∧
      remainder.toInt = cell.toInt % divisor.toInt := by
  obtain ⟨quotient, divided, -⟩ := cell.exists_quotient? divisor positive
  have low := Int.emod_nonneg cell.toInt positive.ne'
  have high := Int.emod_lt_of_pos cell.toInt positive
  have bound := divisor.fits_toInt.2
  have fits : Fits (cell.toInt % divisor.toInt) := ⟨by omega, by omega⟩
  refine ⟨Int64.ofInt (cell.toInt % divisor.toInt), ?_, toInt_ofInt fits⟩
  rw [remainder?, divided, ofInt?, if_pos fits]
  rfl

end Division

-- The least cell has no quotient by minus one, and so no remainder either.
example : quotient? Int64.minValue (-1) = none ∧ remainder? Int64.minValue (-1) = none := by
  decide

/-- The low two digits of a cell and those above them, found in cells. -/
def split? (cell : Cell) : Option (Cell × Cell) := do
  return (← cell.remainder? 100, ← cell.quotient? 100)

/-- The digit at an index, found in cells by one division for each digit below it. -/
def digitAt? : Cell → Nat → Option Cell
  | digits, 0 => digits.remainder? 10
  | digits, index + 1 => do (← digits.quotient? 10).digitAt? index

theorem exists_split? (cell : Cell) :
    ∃ number modes, cell.split? = some (number, modes) ∧
      number.toInt = Opcode.numberOf cell ∧ modes.toInt = Opcode.modesOf cell := by
  obtain ⟨number, isNumber, numberValue⟩ := cell.exists_remainder? 100 (by decide)
  obtain ⟨modes, isModes, modesValue⟩ := cell.exists_quotient? 100 (by decide)
  refine ⟨number, modes, ?_, numberValue, modesValue⟩
  rw [split?, isNumber, isModes]
  rfl

/-- Finding a digit in cells never fails. -/
theorem exists_digitAt? (digits : Cell) (index : Nat) :
    ∃ digit, digits.digitAt? index = some digit ∧
      digit.toInt = Mode.digitAt digits.toInt index := by
  induction index generalizing digits with
  | zero => exact digits.exists_remainder? 10 (by decide)
  | succ index inductionHypothesis =>
      obtain ⟨rest, divided, value⟩ := digits.exists_quotient? 10 (by decide)
      obtain ⟨digit, found, same⟩ := inductionHypothesis rest
      refine ⟨digit, ?_, ?_⟩
      · rw [digitAt?, divided]
        exact found
      · rw [same, value]
        rfl

end Cell

namespace Opcode

/-- The number of parameters that an operation takes. -/
def parameters : Opcode → Nat
  | add | multiply | less | equal => 3
  | jumpTrue | jumpZero => 2
  | input | output | rebase => 1
  | halt => 0

section Digits

variable (cell : Cell) (index : Nat)

theorem digitAt_eq_floor :
    Mode.digitAt (modesOf cell) index = ⌊(cell.toInt : ℚ) / 10 ^ (index + 2)⌋ % 10 := by
  have floor := Rat.floor_intCast_div_natCast cell.toInt (10 ^ (index + 2))
  push_cast at floor
  rw [digitAt_modesOf, floor]

/-- Above the digits that a cell has, there are zeros, or nines if the cell is negative. -/
theorem digitAt_of_le (above : 19 ≤ index + 2) :
    Mode.digitAt (modesOf cell) index = if cell.toInt < 0 then 9 else 0 := by
  obtain ⟨low, high⟩ := cell.fits_toInt
  have large : (10 : Int) ^ 19 ≤ 10 ^ (index + 2) := pow_le_pow_right₀ (by decide) above
  rw [digitAt_modesOf]
  -- The divisor is beyond every cell, so the quotient is minus one or zero.
  split
  next negative =>
    rw [Int.ediv_eq_neg_one_of_neg_of_le negative (by omega)]
    rfl
  next nonnegative =>
    rw [Int.ediv_eq_zero_of_lt (by omega) (by omega)]
    rfl

end Digits

section Congruent

variable {cell other : Cell} {count : Nat}
  (same : cell.toInt ≡ other.toInt [ZMOD 10 ^ (2 + count)])

include same

theorem numberOf_congr : numberOf other = numberOf cell :=
  (same.of_dvd (pow_dvd_pow 10 (Nat.le_add_right 2 count))).symm

theorem digitAt_modesOf_congr {index : Nat} (below : index < count) :
    Mode.digitAt (modesOf other) index = Mode.digitAt (modesOf cell) index := by
  have scale : (10 : Int) ^ (index + 2) * 10 ∣ 10 ^ (2 + count) := by
    rw [← pow_succ]
    exact pow_dvd_pow 10 (by omega)
  rw [digitAt_modesOf, digitAt_modesOf]
  exact (ediv_modEq (by positivity) (same.of_dvd scale)).symm

end Congruent

end Opcode

namespace Machine

/-- The machine with other digits for the modes of its instruction. -/
def withModes (machine : Machine) (modes : Int) : Machine :=
  { machine with modes := modes }

section Modes

variable {machine : Machine} {modes : Int} {index : Nat}

section Parameter

variable (same : Mode.digitAt modes index = Mode.digitAt machine.modes index)

include same

theorem mode_withModes : (machine.withModes modes).mode index = machine.mode index := by
  unfold mode withModes
  rw [same]

theorem address_withModes : (machine.withModes modes).address index = machine.address index := by
  unfold address
  rw [mode_withModes same]
  rfl

theorem value_withModes : (machine.withModes modes).value index = machine.value index := by
  unfold value
  rw [address_withModes same]
  rfl

theorem checkTarget_withModes :
    (machine.withModes modes).checkTarget index = machine.checkTarget index := by
  unfold checkTarget
  rw [mode_withModes same]

theorem target_withModes : (machine.withModes modes).target index = machine.target index := by
  unfold target
  rw [checkTarget_withModes same, address_withModes same]

end Parameter

/-- What an operation does depends on no digits but those of the parameters that it takes. -/
theorem perform_withModes (machine : Machine) {opcode : Opcode}
    (same : ∀ index < opcode.parameters,
      Mode.digitAt modes index = Mode.digitAt machine.modes index) :
    (machine.withModes modes).perform opcode = machine.perform opcode := by
  cases opcode with
  | add | multiply | less | equal =>
      unfold perform combine
      rw [value_withModes (same 0 (by decide)), value_withModes (same 1 (by decide)),
        target_withModes (same 2 (by decide))]
  | jumpTrue | jumpZero =>
      unfold perform jumpIf
      rw [value_withModes (same 0 (by decide)), value_withModes (same 1 (by decide))]
  | input =>
      unfold perform
      rw [checkTarget_withModes (same 0 (by decide))]
  | output =>
      unfold perform
      rw [value_withModes (same 0 (by decide))]
  | rebase =>
      unfold perform
      rw [value_withModes (same 0 (by decide))]
      rfl
  | halt => rfl

end Modes

end Machine

/-- The first cell of an instruction is split into the number of its operation and its mode digits,
which are the decimal digits of the cell, counted as if they went on for ever. The same numbers are
found in the arithmetic of cells, where nothing overflows. Cells that agree in their low digits have
the same operation and the same digits for the parameters that it takes, and so the operation does
the same. -/
theorem cells_decode_by_digits (cell : Cell) :
    let number := Opcode.numberOf cell
    let modes := Opcode.modesOf cell
    cell.toInt = 100 * modes + number ∧ 0 ≤ number ∧ number < 100 ∧
    (∀ index,
      let digit := Mode.digitAt modes index
      digit = ⌊(cell.toInt : ℚ) / 10 ^ (index + 2)⌋ % 10 ∧ 0 ≤ digit ∧ digit ≤ 9 ∧
      (19 ≤ index + 2 → digit = if cell.toInt < 0 then 9 else 0)) ∧
    (∃ low high, cell.split? = some (low, high) ∧ low.toInt = number ∧ high.toInt = modes ∧
      ∀ index, ∃ digit, high.digitAt? index = some digit ∧
        digit.toInt = Mode.digitAt modes index) ∧
    ∀ (other : Cell) (count : Nat), cell.toInt ≡ other.toInt [ZMOD 10 ^ (2 + count)] →
      Opcode.numberOf other = number ∧
      (∀ index < count, Mode.digitAt (Opcode.modesOf other) index = Mode.digitAt modes index) ∧
      ∀ opcode, Opcode.ofNumber? number = some opcode → opcode.parameters ≤ count →
        Opcode.ofNumber? (Opcode.numberOf other) = some opcode ∧
        ∀ machine : Machine,
          (machine.withModes (Opcode.modesOf other)).perform opcode =
            (machine.withModes modes).perform opcode := by
  intro number modes
  refine ⟨?_, Int.emod_nonneg _ (by decide), Int.emod_lt_of_pos _ (by decide), ?_, ?_, ?_⟩
  · rw [add_comm]
    exact (Opcode.numberOf_add_modesOf cell).symm
  · intro index digit
    have remainder : digit = cell.toInt / 10 ^ (index + 2) % 10 := Opcode.digitAt_modesOf cell index
    exact ⟨Opcode.digitAt_eq_floor cell index, by omega, by omega, Opcode.digitAt_of_le cell index⟩
  · obtain ⟨low, high, isSplit, lowValue, highValue⟩ := cell.exists_split?
    refine ⟨low, high, isSplit, lowValue, highValue, ?_⟩
    intro index
    obtain ⟨digit, found, value⟩ := high.exists_digitAt? index
    exact ⟨digit, found, value.trans (by rw [highValue])⟩
  · intro other count same
    have sameNumber : Opcode.numberOf other = number := Opcode.numberOf_congr same
    refine ⟨sameNumber, fun index below => Opcode.digitAt_modesOf_congr same below, ?_⟩
    intro opcode selected taken
    refine ⟨sameNumber ▸ selected, ?_⟩
    intro machine
    exact (machine.withModes modes).perform_withModes fun index below =>
      Opcode.digitAt_modesOf_congr same (Nat.lt_of_lt_of_le below taken)

/-- A cell below zero selects output in immediate mode, as the cell 104 does, although its digits
above those are nines. -/
theorem negative_cell_decodes_by_digits :
    let cell : Cell := -6896
    cell.toInt = 100 * -69 + 4 ∧ Mode.digitAt (Opcode.modesOf cell) 0 = 1 ∧
      Mode.digitAt (Opcode.modesOf cell) 30 = 9 ∧
      Opcode.ofNumber? (Opcode.numberOf 104) = some .output ∧
      ∀ machine : Machine,
        (machine.withModes (Opcode.modesOf 104)).perform .output =
          (machine.withModes (Opcode.modesOf cell)).perform .output := by
  intro cell
  obtain ⟨whole, _, _, digits, _, congruent⟩ := cells_decode_by_digits cell
  obtain ⟨_, low, same⟩ := congruent 104 1 (by decide)
  exact ⟨whole, (low 0 (by decide)).symm, (digits 30).2.2.2 (by decide),
    same .output (by decide) (by decide)⟩

end Intcode
