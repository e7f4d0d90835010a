/-
This file defines diagnostics, which report why a source can not be loaded.
-/

import Intcode.Excerpt

namespace Intcode

/-- A place that a diagnostic points at. -/
structure Note where
  span : Span
  hint : Option String
deriving DecidableEq

def Note.render (note : Note) : String :=
  match note.hint with
  | some hint => note.span.excerpt.renderWith (" note: " ++ hint)
  | none => note.span.excerpt.render

structure Diagnostic where
  reason : String
  notes : List Note
deriving DecidableEq

def Diagnostic.render (diagnostic : Diagnostic) : String :=
  String.join (diagnostic.notes.map Note.render) ++ "Syntax Error: " ++ diagnostic.reason

end Intcode
