/-
This file defines the modes of parameters and their digits.
-/

namespace Intcode

/-- How a parameter cell is turned into an address. -/
inductive Mode where
  /-- The cell holds the address. -/
  | position
  /-- The cell is at the address. -/
  | immediate
  /-- The cell holds an offset from the relative base. -/
  | relative
deriving DecidableEq

namespace Mode

def digit : Mode → Int
  | position => 0
  | immediate => 1
  | relative => 2

def ofDigit? : Int → Option Mode
  | 0 => some position
  | 1 => some immediate
  | 2 => some relative
  | _ => none

@[simp]
theorem ofDigit?_digit (mode : Mode) : ofDigit? mode.digit = some mode := by
  cases mode <;> rfl

/-- The digit of the parameter at `index`, counted from zero at the low end. -/
def digitAt (digits : Int) : Nat → Int
  | 0 => digits % 10
  | index + 1 => digitAt (digits / 10) index

end Mode

end Intcode
