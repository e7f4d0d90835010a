/-
This file defines reports, which tell the user how a command goes.
-/

import Intcode.Text.Line

namespace Intcode

inductive Tag where
  | info
  | finished
  | warning
  | fatal
deriving DecidableEq

namespace Tag

def text : Tag → String
  | info => "Info"
  | finished => "Finished"
  | warning => "Warning"
  | fatal => "Fatal"

/-- The number of a tag's colour on a terminal. -/
def colour : Tag → String
  | info => "34"
  | finished => "32"
  | warning => "33"
  | fatal => "31"

/-- Tags end in the same column. -/
def width : Nat := 12

def padded (tag : Tag) : String :=
  String.ofList (List.replicate (width - tag.text.length) ' ') ++ tag.text

/-- The tag as it is shown, bold and in its colour if there are colours. -/
def render (colours : Bool) (tag : Tag) : String :=
  if colours then "\x1b[1;" ++ tag.colour ++ "m" ++ tag.padded ++ "\x1b[0m" else tag.padded

end Tag

structure Report where
  tag : Tag
  message : String
deriving DecidableEq

/-- A message of several lines goes below the tag. -/
def Report.render (colours : Bool) (report : Report) : String :=
  let lines := Text.lines report.message.toList
  if 1 < lines.length then
    report.tag.render colours ++ "\n" ++
      String.join (lines.map fun line =>
        String.ofList (List.replicate (Tag.width + 1) ' ' ++ line ++ ['\n']))
  else
    report.tag.render colours ++ " " ++ report.message ++ "\n"

end Intcode
