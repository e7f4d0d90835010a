/-
This file reads the digits of numbers.
-/

import Intcode.Cell
import Intcode.Toml.Quoted

namespace Intcode.Toml

/-- The value of a digit in a base up to sixteen. -/
def digitIn? (base : Nat) (character : Char) : Option Nat :=
  (hexDigit? character).filter (· < base)

/-- What has been read of a run of digits. -/
inductive DigitRun where
  | nothing
  | leadingZero
  | digits
deriving DecidableEq

/-- Reads digits, and what follows them. An underscore may stand between two digits.
Unless `zeros` holds, no digit follows a leading zero. -/
def readDigits (base : Nat) (zeros : Bool) :
    DigitRun → Bool → List Char → Option (List Nat × List Char)
  | run, underscore, [] => if run == .nothing || underscore then none else some ([], [])
  | run, underscore, character :: rest =>
      match digitIn? base character with
      | some digit =>
          if run == .leadingZero && !zeros then
            none
          else
            let after := if run == .nothing && digit == 0 then .leadingZero else .digits
            (readDigits base zeros after false rest).map fun (more, left) => (digit :: more, left)
      | none =>
          if run == .nothing then none
          else if character == '_' && !underscore then readDigits base zeros run true rest
          else if underscore then none
          else some ([], character :: rest)

def splitSign : List Char → Bool × List Char
  | '-' :: rest => (true, rest)
  | '+' :: rest => (false, rest)
  | text => (false, text)

/-- A number's sign and digits. -/
structure Digits where
  negative : Bool
  digits : List Nat

def Digits.toNat (base : Nat) (digits : List Nat) : Nat :=
  digits.foldl (fun value digit => base * value + digit) 0

def Digits.toInt (digits : Digits) : Int :=
  if digits.negative then -(toNat 10 digits.digits : Int) else toNat 10 digits.digits

/-- Reads decimal digits after an optional sign, and what follows them. -/
def readSigned (zeros : Bool) (text : List Char) : Option (Digits × List Char) :=
  let (negative, unsigned) := splitSign text
  (readDigits 10 zeros .nothing false unsigned).map fun (digits, left) => (⟨negative, digits⟩, left)

/-- The value of a decimal integer. -/
def decimal? (text : List Char) : Option Cell :=
  match readSigned false text with
  | some (digits, []) => Cell.ofInt? digits.toInt
  | _ => none

/-- The value of an unsigned integer in another base. -/
def integerIn? (base : Nat) (text : List Char) : Option Cell :=
  match readDigits base true .nothing false text with
  | some (digits, []) => Cell.ofInt? (Digits.toNat base digits)
  | _ => none

/-- The least number that rounds to no finite number of double precision. -/
def finiteLimit : Nat :=
  (Nat.pow 2 54 - 1) * Nat.pow 2 970

/-- Whether `significand * 10 ^ exponent` rounds to a finite number of double precision.
The sizes are compared first, so that no large power is computed. -/
def isFinite (significand : Nat) (exponent : Int) : Bool :=
  let size : Int := (Nat.toDigits 10 significand).length + exponent
  if significand = 0 ∨ size ≤ 308 then true
  else if 310 < size then false
  else if 0 ≤ exponent then significand * Nat.pow 10 exponent.toNat < finiteLimit
  else significand < finiteLimit * Nat.pow 10 (-exponent).toNat

end Intcode.Toml
