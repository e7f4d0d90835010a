/-
This file defines manifests, which describe packages and how their programs are run.
-/

import Intcode.Cell
import Intcode.Toml.Quoted

namespace Intcode

/-- What a package says about itself. -/
structure Package where
  name : String
  version : String
  authors : List String
  readme : Option String
  license : Option String
  repository : Option String
deriving DecidableEq

/-- How the program of a package is run. -/
structure RunSettings where
  /-- The program file, relative to the source directory. -/
  entrypoint : String
  /-- The values that the program is given before any others. -/
  input : List Cell
  /-- Whether memory is shown once the program halts. -/
  dump : Bool
deriving DecidableEq

structure Manifest where
  package : Package
  run : RunSettings
deriving DecidableEq

namespace Manifest

/-- The name of manifest files. -/
def fileName : String := "intcode.toml"

/-- The name of source directories. -/
def sourceName : String := "src"

/-- The name of the program file if the manifest gives none. -/
def entrypointName : String := "main.ic"

end Manifest

def RunSettings.standard : RunSettings :=
  { entrypoint := Manifest.entrypointName, input := [], dump := false }

/-- The manifest of a package that has just been made. -/
def Manifest.fresh (name : String) : Manifest :=
  { package :=
      { name := name
        version := "0.0.0"
        authors := []
        readme := none
        license := none
        repository := none }
    run := .standard }

namespace Manifest

def writeString (text : String) : String :=
  String.ofList (Toml.writeQuoted text.toList)

/-- The written form of an array. Two items or more take a line each. -/
def writeArray (items : List String) : String :=
  if items.length < 2 then "[" ++ String.join items ++ "]"
  else "[\n" ++ String.join (items.map fun item => "    " ++ item ++ ",\n") ++ "]"

/-- The lines of keys with values that are written already. -/
def writeLines (entries : List (String × String)) : String :=
  String.join (entries.map fun (key, value) => key ++ " = " ++ value ++ "\n")

def writeTable (name : String) (entries : List (String × String)) : String :=
  "[" ++ name ++ "]\n" ++ writeLines entries

end Manifest

/-- The keys of a package and their written values. Keys without a value are left out. -/
def Package.entries (package : Package) : List (String × String) :=
  [("name", Manifest.writeString package.name),
    ("version", Manifest.writeString package.version),
    ("authors", Manifest.writeArray (package.authors.map Manifest.writeString))] ++
  [("readme", package.readme), ("license", package.license),
    ("repository", package.repository)].filterMap fun (key, value) =>
      value.map fun text => (key, Manifest.writeString text)

def RunSettings.entries (settings : RunSettings) : List (String × String) :=
  [("entrypoint", Manifest.writeString settings.entrypoint),
    ("input", Manifest.writeArray (settings.input.map Cell.render)),
    ("dump", if settings.dump then "true" else "false")]

/-- The text of a manifest. -/
def Manifest.write (manifest : Manifest) : String :=
  writeTable "package" manifest.package.entries ++ "\n" ++
    writeTable "run" manifest.run.entries

/-- The text of a new package's manifest. -/
def Manifest.freshText (name : String) : String :=
  (fresh name).write

end Intcode
