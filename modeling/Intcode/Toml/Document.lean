/-
This file reads documents. A document is a list of tables, of which the first has no header.
-/

import Intcode.Toml.Value

namespace Intcode.Toml

/-- A table under its header. -/
structure Table where
  path : List String
  /-- Whether the header is one of an array of tables. -/
  isItem : Bool
  entries : Entries

abbrev Document := List Table

namespace Reader

/-- Reads a header after its first bracket. -/
def header : Reader Table := do
  let isItem ← accept .leftBracket
  skipBlanks
  let (first, more) ← keys
  expect .rightBracket
  if isItem then expect .rightBracket
  skipBlanks
  unless ← acceptComment do lineEnd
  return { path := first :: more, isItem := isItem, entries := [] }

/-- Reads a key and its value, and adds them. -/
def entry (entries : Entries) : Reader Entries := do
  let (key, more) ← keys
  skipBlanks
  expect .equals
  skipBlanks
  let item ← value (2 * (← get).length + 2)
  skipBlanks
  unless ← acceptComment do lineEnd
  ofOption (entries.add key item more)

/-- Reads the rest of a document, whose current table may get further entries. -/
def tables : Nat → Table → Reader Document
  | 0, _ => failure
  | bound + 1, table => do
      skipAll
      match ← get with
      | [] => return [table]
      | .leftBracket :: rest =>
          set rest
          let next ← header
          return table :: (← tables bound next)
      | _ =>
          let entries ← entry table.entries
          tables bound { table with entries := entries }

def document : Reader Document := do
  tables ((← get).length + 1) { path := [], isItem := false, entries := [] }

end Reader

namespace Document

/-- The earlier tables that a header can clash with. Those before the last item
of an array that the header is inside of are out of its reach. -/
def reach (earlier : Document) (path : List String) : Document :=
  (earlier.reverse.takeWhile fun table =>
    !(table.isItem && table.path.isPrefixOf path && table.path != path)).reverse

/-- Whether a header clashes with earlier ones. A table has one header, and an array
of tables starts with the first header that it is in. -/
def clashes (earlier : Document) (table : Table) : Bool :=
  if table.isItem then
    match (reach earlier table.path).find? fun other => table.path.isPrefixOf other.path with
    | some other => !(other.isItem && other.path == table.path)
    | none => false
  else
    (reach earlier table.path).any (·.path == table.path)

/-- Whether no header clashes with an earlier one. -/
def isConsistent : Document → Document → Bool
  | _, [] => true
  | earlier, table :: rest => !clashes earlier table && isConsistent (earlier ++ [table]) rest

/-- Reads a document. -/
def parse? (text : List Char) : Option Document := do
  let tokens ← Token.ofDocument text
  let (document, _) ← Reader.document.run tokens
  if isConsistent [] document then some document else none

end Document

/-- What stands under a key. -/
inductive Field where
  | value (value : Value)
  /-- Tables whose headers go through the key. -/
  | tables

def Entries.fields (entries : Entries) : List (String × Field) :=
  entries.map fun (key, value) => (key, .value value)

/-- What stands under the keys of the table at a path. -/
def Document.fields (document : Document) (path : List String) : List (String × Field) :=
  let here := document.filter (·.path == path)
  let below := document.filterMap fun table =>
    if path.isPrefixOf table.path then table.path[path.length]? else none
  here.flatMap (fun table => Entries.fields table.entries) ++ below.eraseDups.map (·, .tables)

end Intcode.Toml
