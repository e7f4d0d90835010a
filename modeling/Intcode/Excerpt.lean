/-
This file shows where a span is. An excerpt has the line that the span begins in,
and a row of carets under the span.
-/

import Intcode.Span

namespace Intcode

structure Excerpt where
  path : String
  position : Position
  /-- The line that the span begins in, without the carriage returns at its end. -/
  line : List Char
  /-- The characters that the span takes. -/
  width : Nat
deriving DecidableEq

/-- The line at an index, counted from zero. -/
def Source.line (source : Source) (index : Nat) : List Char :=
  (source.text.toList.splitOn '\n').getD index []

def Span.excerpt (span : Span) : Excerpt :=
  { path := span.path
    position := span.position
    line := ((span.source.line span.position.line).reverse.dropWhile (· == '\r')).reverse
    width := span.inside.length }

namespace Excerpt

/-- The line number as it is shown, which counts from one. -/
def number (excerpt : Excerpt) : String :=
  toString (excerpt.position.line + 1)

/-- The width of the line number. -/
def gutter (excerpt : Excerpt) : Nat :=
  excerpt.number.length

def padding (excerpt : Excerpt) : String :=
  String.ofList (List.replicate excerpt.gutter ' ')

/-- The row that names the place. -/
def placeRow (excerpt : Excerpt) : String :=
  "In " ++ excerpt.path ++ ":" ++ excerpt.number ++ ":" ++ toString (excerpt.position.column + 1)

def emptyRow (excerpt : Excerpt) : String :=
  excerpt.padding ++ " |"

def sourceRow (excerpt : Excerpt) : String :=
  excerpt.number ++ " | " ++ String.ofList excerpt.line

/-- The row with a caret under each character of the span, or one where an empty span is. -/
def caretRow (excerpt : Excerpt) : String :=
  excerpt.padding ++ " | " ++ String.ofList (List.replicate excerpt.position.column ' ') ++
    String.ofList (List.replicate (max excerpt.width 1) '^')

/-- The rows of an excerpt, with a remark behind the carets. -/
def renderWith (excerpt : Excerpt) (remark : String) : String :=
  excerpt.placeRow ++ "\n" ++ excerpt.emptyRow ++ "\n" ++ excerpt.sourceRow ++ "\n" ++
    excerpt.caretRow ++ remark ++ "\n"

def render (excerpt : Excerpt) : String :=
  excerpt.renderWith ""

end Excerpt

end Intcode
