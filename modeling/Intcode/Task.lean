/-
This file works out what is to be run. A file runs on its own, and a directory stands
for the package that it is in.
-/

import Intcode.Manifest.Search
import Intcode.Program.Parse

namespace Intcode

/-- A program file, the values that are queued for it, and whether memory is shown
once it halts. -/
structure Task where
  file : Path
  input : List Cell
  dump : Bool
deriving DecidableEq

namespace Task

/-- Why a program can not be run. -/
inductive Problem where
  | nothingAt (path : Path)
  | noManifest (problem : Manifest.Problem)
  | unreadable (file : Path)
  | malformed (error : Program.ParseError)
deriving DecidableEq

def Problem.message : Problem → String
  | nothingAt path => "No program or package found at '" ++ path.render ++ "'"
  | noManifest problem => problem.message
  | unreadable file => "Could not read program '" ++ file.render ++ "'"
  | malformed error => error.diagnostic.render

/-- The task of a package. The manifest's values come before further ones. -/
def ofManifest (manifest : Manifest) (directory : Path) (further : List Cell) (dump : Bool) : Task :=
  { file := (directory.join (.ofString Manifest.sourceName)).join
      (.ofString manifest.run.entrypoint)
    input := manifest.run.input ++ further
    dump := dump || manifest.run.dump }

def resolve (system : FileSystem) (path : Path) (further : List Cell) (dump : Bool) :
    Except Problem Task :=
  if system.isFile path then
    .ok { file := path, input := further, dump := dump }
  else if system.isDirectory path then
    match Manifest.search system path with
    | .ok (manifest, directory) => .ok (ofManifest manifest directory further dump)
    | .error problem => .error (.noManifest problem)
  else
    .error (.nothingAt path)

/-- The program of a task. -/
def program (system : FileSystem) (task : Task) : Except Problem Program :=
  match system.readText? task.file with
  | none => .error (.unreadable task.file)
  | some text => (Program.parse { text := text, path := task.file.render }).mapError .malformed

end Task

end Intcode
