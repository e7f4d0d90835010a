/-
This file defines file systems and the operations on them.
-/

import Intcode.Path

namespace Intcode

/-- A place in the tree of directories, as the names that lead there from the root. -/
abbrev Location := List Segment

/-- What is at a place. Links and special files are left out. -/
inductive Entry where
  | file (contents : List UInt8)
  | directory
deriving DecidableEq

/-- A tree of files and directories. Links, special files, permissions, the ban on NUL bytes in
names and the limit on whole paths are left out. -/
structure FileSystem where
  /-- What is below the root. -/
  entries : List (Location × Entry)
  workingDirectory : Location
deriving DecidableEq

/-- Why an operation on a file system is refused. -/
inductive Obstacle where
  | missing
  | notDirectory
  | exists
  | nameTooLong
deriving DecidableEq

namespace FileSystem

def lookup (system : FileSystem) (location : Location) : Option Entry :=
  if location = [] then some .directory else system.entries.lookup location

def put (system : FileSystem) (location : Location) (entry : Entry) : FileSystem :=
  { system with
    entries := (location, entry) :: system.entries.filter fun (other, _) => other != location }

/-- The most bytes that a name can have. -/
def nameLimit : Nat := 255

/-- Goes on from a directory by one segment. -/
def enter (system : FileSystem) (location : Location) (segment : Segment) :
    Except Obstacle Location :=
  match system.lookup location with
  | none => .error .missing
  | some (.file _) => .error .notDirectory
  | some .directory =>
      if segment.isIdle then .ok location
      else if segment = Segment.dotDot then .ok location.dropLast
      else if nameLimit < segment.length then .error .nameTooLong
      else .ok (location ++ [segment])

/-- Goes on from the place where a path begins. -/
def follow (system : FileSystem) (path : Path) (segments : List Segment) :
    Except Obstacle Location :=
  segments.foldlM system.enter (if path.absolute then [] else system.workingDirectory)

/-- The place that a path leads to. The empty path leads nowhere. -/
def locate (system : FileSystem) (path : Path) : Except Obstacle Location :=
  if path.absolute || !path.segments.isEmpty then system.follow path path.segments
  else .error .missing

/-- What a path leads to. -/
def entry? (system : FileSystem) (path : Path) : Option Entry :=
  match system.locate path with
  | .ok location => system.lookup location
  | .error _ => none

def isFile (system : FileSystem) (path : Path) : Bool :=
  match system.entry? path with
  | some (.file _) => true
  | _ => false

def isDirectory (system : FileSystem) (path : Path) : Bool :=
  system.entry? path = some .directory

/-- The text of a file, if it is well formed. -/
def readText? (system : FileSystem) (path : Path) : Option String :=
  match system.entry? path with
  | some (.file contents) => Text.decode? contents
  | _ => none

/-- Creates a directory. The directory that it is to be in must be there. -/
def createDirectory (system : FileSystem) (path : Path) : Except Obstacle FileSystem := do
  let segments := (path.segments.reverse.dropWhile (· == [])).reverse
  match segments.getLast? with
  | none => .error (if path.absolute then .exists else .missing)
  | some last =>
      let location ← system.enter (← system.follow path segments.dropLast) last
      if last = Segment.dot ∨ last = Segment.dotDot ∨ (system.lookup location).isSome then
        .error .exists
      else
        return system.put location .directory

/-- Creates a directory and those that lead to it, and says whether it is there at the end.
The ones created before a failure stay. -/
def createDirectories (system : FileSystem) (path : Path) : FileSystem × Bool :=
  if !path.absolute && path.segments.isEmpty then
    (system, true)
  else
    match system.createDirectory path with
    | .ok created => (created, true)
    | .error .missing =>
        match _ : path.parent? with
        | none => (system, false)
        | some parent =>
            match system.createDirectories parent with
            | (prepared, false) => (prepared, false)
            | (prepared, true) =>
                match prepared.createDirectory path with
                | .ok created => (created, true)
                | .error _ => (prepared, prepared.isDirectory path)
    | .error _ => (system, system.isDirectory path)
termination_by path.segments.length
decreasing_by exact Path.length_parent? (by assumption)

/-- Creates a file or replaces its contents. -/
def write (system : FileSystem) (path : Path) (contents : List UInt8) : Option FileSystem :=
  match path.segments.getLast?, system.locate path with
  | some last, .ok location =>
      if last.isIdle || last == Segment.dotDot || system.lookup location = some .directory then none
      else some (system.put location (.file contents))
  | _, _ => none

end FileSystem

end Intcode
