/-
This file reads manifests from text. Keys that a manifest has no use for are ignored.
-/

import Intcode.Manifest.Basic
import Intcode.Toml.Document
import Intcode.Version

namespace Intcode.Manifest

open Toml

/-- The parts of a record, by their keys or in the order of its definition. -/
inductive Parts where
  | named (fields : List (String × Field))
  | ordered (items : List Value)

/-- What stands under a key. It is an error if more than one thing does. -/
def field? (fields : List (String × Field)) (key : String) : Option (Option Field) :=
  match fields.filter (·.1 == key) with
  | [] => some none
  | [(_, field)] => some (some field)
  | _ => none

def string? : Field → Option String
  | .value (.string text) => some text
  | _ => none

def boolean? : Field → Option Bool
  | .value (.boolean value) => some value
  | _ => none

def strings? : Field → Option (List String)
  | .value (.array items) => items.mapM fun item => string? (.value item)
  | _ => none

def integers? : Field → Option (List Cell)
  | .value (.array items) =>
      items.mapM fun item =>
        match item with
        | .integer value => some value
        | _ => none
  | _ => none

/-- What stands under a key, read by `decode`. -/
def required {Result : Type} (decode : Field → Option Result)
    (fields : List (String × Field)) (key : String) : Option Result := do
  decode (← ← field? fields key)

/-- What stands under a key that may be missing. -/
def optional {Result : Type} (decode : Field → Option Result)
    (fields : List (String × Field)) (key : String) : Option (Option Result) := do
  match ← field? fields key with
  | none => some none
  | some field => (decode field).map some

/-- The parts of the record under a key of the document. A date counts as a record
without parts. -/
def parts? (document : Document) (key : String) : Field → Option Parts
  | .tables =>
      if document.any fun table => table.isItem && table.path == [key] then none
      else some (.named (document.fields [key]))
  | .value (.table _ entries) => some (.named (Entries.fields entries))
  | .value (.array items) => some (.ordered items)
  | .value .datetime => some (.named [])
  | .value _ => none

def package? : Parts → Option Package
  | .named fields => do
      return {
        name := ← required string? fields "name"
        version := ← required string? fields "version"
        authors := ← required strings? fields "authors"
        readme := ← optional string? fields "readme"
        license := ← optional string? fields "license"
        repository := ← optional string? fields "repository" }
  | .ordered [name, version, authors, readme, license, repository] => do
      return {
        name := ← string? (.value name)
        version := ← string? (.value version)
        authors := ← strings? (.value authors)
        readme := ← string? (.value readme)
        license := ← string? (.value license)
        repository := ← string? (.value repository) }
  | .ordered _ => none

def orderedSettings? : List Value → Option RunSettings
  | [] => some .standard
  | [entrypoint] => do
      return { RunSettings.standard with entrypoint := ← string? (.value entrypoint) }
  | [entrypoint, input] => do
      return { RunSettings.standard with
        entrypoint := ← string? (.value entrypoint)
        input := ← integers? (.value input) }
  | [entrypoint, input, dump] => do
      return {
        entrypoint := ← string? (.value entrypoint)
        input := ← integers? (.value input)
        dump := ← boolean? (.value dump) }
  | _ => none

def settings? : Parts → Option RunSettings
  | .named fields => do
      let standard := RunSettings.standard
      return {
        entrypoint := (← optional string? fields "entrypoint").getD standard.entrypoint
        input := (← optional integers? fields "input").getD standard.input
        dump := (← optional boolean? fields "dump").getD standard.dump }
  | .ordered items => orderedSettings? items

/-- The manifest that a document holds. -/
def ofDocument? (document : Document) : Option Manifest := do
  let fields := document.fields []
  let package ← package? (← parts? document "package" (← ← field? fields "package"))
  match ← field? fields "run" with
  | none => return { package := package, run := .standard }
  | some field =>
      return { package := package, run := ← settings? (← parts? document "run" field) }

/-- Why there is no manifest. -/
inductive Problem where
  | notFound
  | unreadable
  /-- The text is no document, or not one of a manifest. The reader's complaint, which would follow
  the message, is left out. -/
  | malformed
  | invalidVersion (version : String)
deriving DecidableEq

def Problem.message : Problem → String
  | notFound => "The manifest file could not be found"
  | unreadable => "The manifest file could not be read"
  | malformed => "Could not parse the manifest file"
  | invalidVersion version =>
      "The package version '" ++ version ++ "' is not a valid semantic version"

/-- Reads a manifest from text. -/
def parse (text : String) : Except Problem Manifest :=
  match (Document.parse? text.toList).bind ofDocument? with
  | none => .error .malformed
  | some manifest =>
      if Version.isValid manifest.package.version.toList then .ok manifest
      else .error (.invalidVersion manifest.package.version)

end Intcode.Manifest
