/-
This file loads programs from text. The text is decimal integers with commas between them,
and blank characters around an integer do not count. Lines that start with two hyphens
may come first.
-/

import Intcode.Diagnostic
import Intcode.Numeral
import Intcode.Program.Basic
import Intcode.Text.Blank
import Intcode.Text.Line

namespace Intcode.Program

/-- Why a text is not a program. -/
inductive Problem where
  /-- There is nothing but blank characters after the header. -/
  | blankBody
  | badCell (problem : Numeral.Problem)
deriving DecidableEq

/-- A problem and the text that has it. -/
structure ParseError where
  problem : Problem
  span : Span
deriving DecidableEq

namespace ParseError

def reason (error : ParseError) : String :=
  match error.problem with
  | .blankBody => "Expected a program, found nothing"
  | .badCell .empty => "Expected an integer, found nothing"
  | .badCell .invalidDigit => "Expected an integer, found '" ++ error.span.contents ++ "'"
  | .badCell .outOfRange => "The integer '" ++ error.span.contents ++ "' does not fit in 64 bits"

def hint (error : ParseError) : Option String :=
  match error.problem with
  | .badCell .outOfRange =>
      some ("cells range from " ++ Cell.render Int64.minValue ++ " to " ++ Cell.render Int64.maxValue)
  | _ => none

def diagnostic (error : ParseError) : Diagnostic :=
  { reason := error.reason, notes := [{ span := error.span, hint := error.hint }] }

end ParseError

def isHeaderLine (line : List Char) : Bool :=
  ['-', '-'].isPrefixOf line

/-- The lines of a text that come before the first one that does not belong to the header. -/
def header (text : List Char) : List Char :=
  ((Text.splitAfter (· == '\n') text).takeWhile isHeaderLine).flatten

/-- Reads the piece of a source that follows the first `skipped` characters. -/
def parseCell (source : Source) (skipped : Nat) (piece : List Char) : Except ParseError Cell :=
  let leading := piece.length - (Text.trimStart piece).length
  match Numeral.read (Text.trim piece) with
  | .ok cell => .ok cell
  | .error problem =>
      .error
        { problem := .badCell problem
          span := .cut source (skipped + leading) (Text.trim piece).length }

/-- Reads pieces of a source that have one separator between them. -/
def parseCells (source : Source) (skipped : Nat) : List (List Char) → Except ParseError Program
  | [] => .ok []
  | piece :: pieces => do
      let cell ← parseCell source skipped piece
      let cells ← parseCells source (skipped + piece.length + 1) pieces
      return cell :: cells

def parse (source : Source) : Except ParseError Program :=
  let text := source.text.toList
  let skipped := (header text).length
  let body := text.drop skipped
  if body.all Text.isBlank then
    .error { problem := .blankBody, span := .cut source skipped 0 }
  else
    parseCells source skipped (body.splitOn ',')

end Intcode.Program
