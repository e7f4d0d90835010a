/-
This file defines cells, the signed 64-bit integers that memory holds.
-/

namespace Intcode

/-- A cell of memory. -/
abbrev Cell := Int64

namespace Cell

/-- The integers that a cell can hold. -/
def Fits (value : Int) : Prop :=
  -9223372036854775808 ≤ value ∧ value ≤ 9223372036854775807

instance (value : Int) : Decidable (Fits value) :=
  inferInstanceAs (Decidable (_ ∧ _))

theorem fits_toInt (cell : Cell) : Fits cell.toInt :=
  ⟨cell.le_toInt, Int.le_of_lt_add_one cell.toInt_lt⟩

/-- The cell that holds an integer, if one does. -/
def ofInt? (value : Int) : Option Cell :=
  if Fits value then some (Int64.ofInt value) else none

theorem toInt_ofInt {value : Int} (fits : Fits value) : (Int64.ofInt value).toInt = value :=
  Int64.toInt_ofInt_of_le fits.1 (Int.lt_add_one_of_le fits.2)

@[simp]
theorem ofInt?_toInt (cell : Cell) : ofInt? cell.toInt = some cell := by
  rw [ofInt?, if_pos cell.fits_toInt, Int64.ofInt_toInt]

theorem ofInt?_eq_some {value : Int} {cell : Cell} :
    ofInt? value = some cell ↔ cell.toInt = value := by
  constructor
  · intro held
    by_cases fits : Fits value
    · rw [ofInt?, if_pos fits, Option.some.injEq] at held
      rw [← held, toInt_ofInt fits]
    · rw [ofInt?, if_neg fits] at held
      contradiction
  · rintro rfl
    exact ofInt?_toInt cell

theorem ofInt?_eq_none {value : Int} : ofInt? value = none ↔ ¬ Fits value := by
  by_cases fits : Fits value <;> simp [ofInt?, fits]

/-- The sum of two cells, if it fits in a cell. -/
def add? (left right : Cell) : Option Cell :=
  ofInt? (left.toInt + right.toInt)

/-- The product of two cells, if it fits in a cell. -/
def multiply? (left right : Cell) : Option Cell :=
  ofInt? (left.toInt * right.toInt)

/-- The cell that stands for a truth value. -/
def ofBool (condition : Bool) : Cell :=
  if condition then 1 else 0

/-- The decimal text of a cell. -/
def render (cell : Cell) : String :=
  toString cell.toInt

end Cell

end Intcode
