/-
This file defines sources, which are texts to load, and positions in them.
-/

import Intcode.Text.Utf8

namespace Intcode

/-- A text and the path it is known by. -/
structure Source where
  text : String
  path : String
deriving DecidableEq

/-- A source that came from no file. -/
def Source.unnamed (text : String) : Source :=
  { text := text, path := "./source" }

/-- A place in a text. Lines and columns are counted from zero, and columns in characters. -/
structure Position where
  line : Nat
  column : Nat
deriving DecidableEq

/-- The position that a text ends at. -/
def Position.atEnd (text : List Char) : Position :=
  { line := text.count '\n', column := (text.reverse.takeWhile (· != '\n')).length }

/-- The position of a byte offset, if a character begins there or the text ends there. -/
def Source.position? (source : Source) (offset : Nat) : Option Position :=
  (Text.upTo? source.text.toList offset).map Position.atEnd

end Intcode
