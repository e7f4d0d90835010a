/-
This file defines spans, which are sections of sources.
-/

import Intcode.Source
import Intcode.Text.Quote

namespace Intcode

/-- A source cut into what is before a section, the section, and what is after it. -/
structure Span where
  path : String
  before : List Char
  inside : List Char
  after : List Char
deriving DecidableEq

namespace Span

def source (span : Span) : Source :=
  { text := String.ofList (span.before ++ span.inside ++ span.after), path := span.path }

/-- The section of `width` characters after the first `skipped` ones, as far as the text goes. -/
def cut (source : Source) (skipped width : Nat) : Span :=
  let rest := source.text.toList.drop skipped
  { path := source.path
    before := source.text.toList.take skipped
    inside := rest.take width
    after := rest.drop width }

@[simp]
theorem source_cut (source : Source) (skipped width : Nat) :
    (cut source skipped width).source = source := by
  simp only [cut, Span.source, List.append_assoc, List.take_append_drop, String.ofList_toList]

/-- The section of `length` bytes at a byte offset, if both its ends are at ends of characters. -/
def ofBytes? (source : Source) (offset length : Nat) : Option Span := do
  let before ← Text.upTo? source.text.toList offset
  let inside ← Text.upTo? (source.text.toList.drop before.length) length
  return cut source before.length inside.length

/-- The byte offset of the section. -/
def start (span : Span) : Nat :=
  Text.byteLength span.before

/-- The length of the section in bytes. -/
def length (span : Span) : Nat :=
  Text.byteLength span.inside

/-- The byte offset where the section ends. -/
def stop (span : Span) : Nat :=
  span.start + span.length

def contents (span : Span) : String :=
  String.ofList span.inside

def position (span : Span) : Position :=
  Position.atEnd span.before

/-- A text that shows the fields of a span. -/
def describe (span : Span) : String :=
  "Span \x7b contents: " ++ Text.quote span.inside ++ ", start: " ++ toString span.start ++
    ", end: " ++ toString span.stop ++ " \x7d"

end Span

end Intcode
