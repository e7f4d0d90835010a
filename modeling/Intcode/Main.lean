/-
This file is the command line. It reads the disk and standard input, and prints.
-/

import Intcode.Command.Survey

namespace Intcode.CommandLine

/-- More pauses than a program makes, and more instructions than it executes between two. -/
def budget : Nat := 1000000000000000

def usage : String :=
  "Usage: intcode new [path]\n" ++
  "       intcode run [path] [-i value]... [--stdin] [--dump]"

def log (report : Report) : IO Unit := do
  let stream ← IO.getStderr
  stream.putStr (report.render (← stream.isTty))

/-- Prints and reports what an outcome has, and gives its exit code. -/
def finish (outcome : Outcome) : IO UInt32 := do
  outcome.output.forM IO.println
  outcome.reports.forM log
  return UInt32.ofNat outcome.exitCode

/-- The path of a place, as the system takes it. -/
def nameOf (location : Location) : String :=
  Path.render { absolute := true, segments := location }

def entryAt (location : Location) : IO (Option Entry) := do
  let name := nameOf location
  let here ← IO.currentDir
  if ← (here / name).isDir then
    return some .directory
  try
    let contents ← IO.FS.readBinFile name
    return some (.file contents.data.toList)
  catch _ =>
    return none

/-- The part of the disk that some paths lead through. -/
def survey (workingDirectory : Location) (paths : List Path) : IO FileSystem := do
  let places := (paths.flatMap (·.places workingDirectory)).eraseDups
  let entries ← places.filterMapM fun place => do
    return (← entryAt place).map (place, ·)
  return { entries := entries, workingDirectory := workingDirectory }

def store (location : Location) : Entry → IO Unit
  | .directory => IO.FS.createDir (nameOf location)
  | .file contents => IO.FS.writeBinFile (nameOf location) ⟨contents.toArray⟩

def create (system : FileSystem) (path : Path) : IO UInt32 := do
  let outcome := Command.executeNew system path
  for (location, entry) in FileSystem.additions system outcome.system do
    store location entry
  finish outcome

/-- The bytes of the next line of standard input. -/
partial def readLine (stream : IO.FS.Stream) (line : Array UInt8) : IO (List UInt8) := do
  let read ← stream.read 1
  if read.isEmpty then
    return line.toList
  else if read.data.back? = some 0x0a then
    return (line ++ read.data).toList
  else
    readLine stream (line ++ read.data)

/-- The next value that a feed of standard input has. -/
def nextValue (reads : Bool) : IO (Except Shortage Cell) := do
  let feed ← if reads then Feed.ofBytes <$> readLine (← IO.getStdin) #[] else pure .nothing
  return feed.next.map Prod.fst

/-- Runs a machine and prints each value as soon as it is there. -/
def talk (reads : Bool) (program : Program) (queue : List Cell) :
    IO (Option (Option Breakdown × Machine)) :=
  (Machine.load program).drive (fun value => IO.println value.render) (nextValue reads) budget none
    queue

def run (workingDirectory : Location) (options : RunOptions) : IO UInt32 := do
  let paths := (Command.run options).paths
  let system ← survey workingDirectory paths
  -- Only a manifest that has been read tells which file the program is in.
  let files :=
    match Task.resolve system options.path options.input options.dump with
    | .ok task => [task.file]
    | .error _ => []
  let whole ← survey workingDirectory (files ++ paths)
  match Command.load whole options with
  | .error problem => finish (.refused whole [] problem.message)
  | .ok (task, program) =>
      log (Command.running task program)
      match ← talk options.stdin program task.input with
      | some (breakdown, machine) => finish (Command.closing whole task breakdown machine)
      -- The budget is larger than any run takes.
      | none => return 1

end Intcode.CommandLine

open Intcode

def main (arguments : List String) : IO UInt32 := do
  let workingPath := Path.ofString (← IO.currentDir).toString
  let workingDirectory := workingPath.segments.filter fun segment => !segment.isIdle
  match Arguments.parse workingPath (arguments.map Text.encode) with
  | .error .help =>
      IO.println CommandLine.usage
      return 0
  | .error .usage =>
      IO.eprintln CommandLine.usage
      return 1
  | .ok (.new path) =>
      let system ← CommandLine.survey workingDirectory (Command.new path).paths
      CommandLine.create system path
  | .ok (.run options) => CommandLine.run workingDirectory options
