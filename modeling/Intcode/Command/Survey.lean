/-
This file says which places a command looks at, so that no more of a disk has to be read.
-/

import Intcode.Command.Execute

namespace Intcode

/-- The places that segments lead through. -/
def Location.along (location : Location) : List Segment → List Location
  | [] => [location]
  | segment :: rest =>
      let next :=
        if segment.isIdle then location
        else if segment = Segment.dotDot then location.dropLast
        else location ++ [segment]
      location :: Location.along next rest

/-- The places that a path leads through. -/
def Path.places (workingDirectory : Location) (path : Path) : List Location :=
  Location.along (if path.absolute then [] else workingDirectory) path.segments

/-- The paths that a command looks at before it knows which program to run. -/
def Command.paths : Command → List Path
  | .new path => path.ancestors ++ [Scaffold.manifestPath path, Scaffold.programPath path]
  | .run options => options.path :: options.path.ancestors.map Manifest.inDirectory

/-- What a file system has that an earlier one does not, in the order of its making. -/
def FileSystem.additions (earlier later : FileSystem) : List (Location × Entry) :=
  (later.entries.filter fun (location, _) => (earlier.lookup location).isNone).reverse

end Intcode
