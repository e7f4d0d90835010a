/-
This file finds the manifest of the package that a path is in.
-/

import Intcode.FileSystem
import Intcode.Manifest.Parse

namespace Intcode.Manifest

/-- The path that a manifest has in a directory. -/
def inDirectory (directory : Path) : Path :=
  directory.join (.ofString fileName)

/-- The manifest at a path where there is something. -/
def read (system : FileSystem) (path : Path) : Except Problem Manifest :=
  match system.readText? path with
  | some text => parse text
  | none => .error .unreadable

/-- The manifest in the first directory that has one, and that directory. -/
def searchIn (system : FileSystem) : List Path → Except Problem (Manifest × Path)
  | [] => .error .notFound
  | directory :: rest =>
      if (system.entry? (inDirectory directory)).isSome then
        (read system (inDirectory directory)).map (·, directory)
      else
        searchIn system rest

/-- The manifest nearest to a path, and the directory that it is in. -/
def search (system : FileSystem) (path : Path) : Except Problem (Manifest × Path) :=
  searchIn system path.ancestors

end Intcode.Manifest
