/-
This file defines the operations of the machine and their numbers.
-/

import Intcode.Cell

namespace Intcode

/-- The operation that an instruction performs. -/
inductive Opcode where
  /-- Stores the sum of two values. -/
  | add
  /-- Stores the product of two values. -/
  | multiply
  /-- Suspends the machine for a value and stores it. -/
  | input
  /-- Emits a value. -/
  | output
  /-- Jumps if the first value is not zero. -/
  | jumpTrue
  /-- Jumps if the first value is zero. -/
  | jumpZero
  /-- Stores whether the first value is less than the second. -/
  | less
  /-- Stores whether two values are equal. -/
  | equal
  /-- Moves the relative base. -/
  | rebase
  /-- Stops the machine for good. -/
  | halt
deriving DecidableEq

namespace Opcode

def number : Opcode → Int
  | add => 1
  | multiply => 2
  | input => 3
  | output => 4
  | jumpTrue => 5
  | jumpZero => 6
  | less => 7
  | equal => 8
  | rebase => 9
  | halt => 99

def ofNumber? : Int → Option Opcode
  | 1 => some add
  | 2 => some multiply
  | 3 => some input
  | 4 => some output
  | 5 => some jumpTrue
  | 6 => some jumpZero
  | 7 => some less
  | 8 => some equal
  | 9 => some rebase
  | 99 => some halt
  | _ => none

@[simp]
theorem ofNumber?_number (opcode : Opcode) : ofNumber? opcode.number = some opcode := by
  cases opcode <;> rfl

theorem ofNumber?_eq_some {number : Int} {opcode : Opcode} :
    ofNumber? number = some opcode ↔ opcode.number = number := by
  constructor
  · intro found
    unfold ofNumber? at found
    split at found <;> cases found <;> rfl
  · rintro rfl
    exact ofNumber?_number opcode

/-- The low two decimal digits of an instruction's first cell, which select its operation. -/
def numberOf (cell : Cell) : Int :=
  cell.toInt % 100

/-- The digits above those, which select the modes of its parameters. -/
def modesOf (cell : Cell) : Int :=
  cell.toInt / 100

/-- An instruction's first cell is its operation's number and a hundred times its mode digits. -/
theorem numberOf_add_modesOf (cell : Cell) : numberOf cell + 100 * modesOf cell = cell.toInt :=
  Int.emod_add_mul_ediv cell.toInt 100

end Opcode

end Intcode
