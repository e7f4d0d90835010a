/-
This file defines feeds, which give values to a machine when no queued ones are left.
-/

import Intcode.Numeral
import Intcode.Text.Blank
import Intcode.Text.Line
import Intcode.Text.Utf8

namespace Intcode

/-- Why no value can be given. -/
inductive Shortage where
  | nothingQueued
  /-- A line is not well-formed text. -/
  | unreadable
  | closed
  | notInteger (text : String)
deriving DecidableEq

def Shortage.message : Shortage → String
  | nothingQueued => "The program requested input, but none remains"
  | unreadable => "Could not read input"
  | closed => "Input closed before the program finished"
  | notInteger text => "Expected an integer as input, found '" ++ text ++ "'"

inductive Feed where
  | nothing
  /-- One integer per line. -/
  | lines (lines : List (List UInt8))
deriving DecidableEq

namespace Feed

/-- The feed of the lines in some bytes. A line feed ends a line and belongs to it. -/
def ofBytes (bytes : List UInt8) : Feed :=
  .lines (Text.splitAfter (· == 0x0a) bytes)

/-- The value that a line gives. -/
def readLine (line : List UInt8) : Except Shortage Cell :=
  match Text.decode? line with
  | none => .error .unreadable
  | some text =>
      let trimmed := Text.trim text.toList
      match Numeral.read trimmed with
      | .ok value => .ok value
      | .error _ => .error (.notInteger (String.ofList trimmed))

/-- The next value, and what is left. -/
def next : Feed → Except Shortage (Cell × Feed)
  | nothing => .error .nothingQueued
  | lines [] => .error .closed
  | lines (line :: rest) => (readLine line).map (·, .lines rest)

end Feed

end Intcode
