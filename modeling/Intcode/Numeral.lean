/-
This file reads decimal numerals. Characters are read from left to right,
and the first problem decides the answer.
-/

import Intcode.Cell

namespace Intcode.Numeral

/-- Why a text is not the numeral of a cell. -/
inductive Problem where
  | empty
  | invalidDigit
  | outOfRange
deriving DecidableEq

/-- The value of an ASCII digit. -/
def digit? (character : Char) : Option Nat :=
  if character.isDigit then some (character.toNat - '0'.toNat) else none

/-- The integer `value` with one more digit, which moves it away from zero. -/
def extend (negative : Bool) (value : Int) (digit : Nat) : Int :=
  if negative then 10 * value - digit else 10 * value + digit

/-- Reads digits after those that gave `value`. -/
def readFrom (negative : Bool) (value : Int) : List Char → Except Problem Cell
  | [] => .ok (Int64.ofInt value)
  | character :: rest =>
      match digit? character with
      | none => .error .invalidDigit
      | some digit =>
          if Cell.Fits (extend negative value digit) then
            readFrom negative (extend negative value digit) rest
          else
            .error .outOfRange

/-- Reads one or more digits. -/
def readDigits (negative : Bool) : List Char → Except Problem Cell
  | [] => .error .invalidDigit
  | digits => readFrom negative 0 digits

/-- Reads an optional sign and one or more digits. -/
def read : List Char → Except Problem Cell
  | [] => .error .empty
  | '+' :: digits => readDigits false digits
  | '-' :: digits => readDigits true digits
  | digits => readDigits false digits

end Intcode.Numeral
