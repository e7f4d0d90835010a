/-
This file recognises semantic versions.
-/

import Intcode.Text.Blank

namespace Intcode.Version

/-- Passes a number of 64 bits. A leading zero is a number of its own. -/
def passNumber? : List Char → Option (List Char)
  | '0' :: rest => some rest
  | text =>
      let digits := text.takeWhile Char.isDigit
      let value := digits.foldl (fun value digit => 10 * value + (digit.toNat - '0'.toNat)) 0
      if digits.isEmpty || UInt64.size ≤ value then none else some (text.drop digits.length)

def passPeriod? : List Char → Option (List Char)
  | '.' :: rest => some rest
  | _ => none

/-- Passes three numbers with periods between them. -/
def passCore? (text : List Char) : Option (List Char) := do
  let afterMajor ← passPeriod? (← passNumber? text)
  let afterMinor ← passPeriod? (← passNumber? afterMajor)
  passNumber? afterMinor

def isIdentifier (character : Char) : Bool :=
  character.isAlphanum || character == '.' || character == '-'

/-- Passes identifiers if the text starts with their mark. -/
def passIdentifiers? (mark : Char) : List Char → Option (List Char)
  | [] => some []
  | first :: rest =>
      if first == mark then
        if (rest.takeWhile isIdentifier).isEmpty then none else some (rest.dropWhile isIdentifier)
      else
        some (first :: rest)

/-- A version is three numbers, then identifiers after a hyphen, then identifiers after a plus.
Both groups of identifiers may be missing, and blank characters around the version do not count. -/
def isValid (text : List Char) : Bool :=
  let rest := do
    let afterCore ← passCore? (Text.trim text)
    let afterRelease ← passIdentifiers? '-' afterCore
    passIdentifiers? '+' afterRelease
  rest == some []

end Intcode.Version
