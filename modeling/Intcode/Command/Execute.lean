/-
This file carries out commands.
-/

import Intcode.Command.Arguments
import Intcode.Command.Scaffold
import Intcode.Dialogue
import Intcode.Task

namespace Intcode

/-- What a command leaves behind. -/
structure Outcome where
  /-- The lines on standard output. -/
  output : List String
  reports : List Report
  succeeded : Bool
  system : FileSystem

namespace Outcome

def exitCode (outcome : Outcome) : Nat :=
  if outcome.succeeded then 0 else 1

def stdout (outcome : Outcome) : String :=
  String.join (outcome.output.map (· ++ "\n"))

def stderr (colours : Bool) (outcome : Outcome) : String :=
  String.join (outcome.reports.map (Report.render colours))

/-- A failure without further output. -/
def refused (system : FileSystem) (reports : List Report) (message : String) : Outcome :=
  { output := []
    reports := reports ++ [⟨.fatal, message⟩]
    succeeded := false
    system := system }

end Outcome

namespace Command

def executeNew (system : FileSystem) (path : Path) : Outcome :=
  match (Scaffold.package path).run.run { system := system, reports := [] } with
  | (.ok (), progress) =>
      { output := [], reports := progress.reports, succeeded := true, system := progress.system }
  | (.error problem, progress) => .refused progress.system progress.reports problem.message

/-- The report that a program is about to run. -/
def running (task : Task) (program : Program) : Report :=
  { tag := .info
    message :=
      "Running '" ++ task.file.render ++ "' (" ++ toString program.length ++ " cells)" }

/-- The report that a program has halted. -/
def halted : Report :=
  { tag := .finished, message := "The program halted" }

/-- What is to be run, and its program. -/
def load (system : FileSystem) (options : RunOptions) : Except Task.Problem (Task × Program) := do
  let task ← Task.resolve system options.path options.input options.dump
  let program ← task.program system
  return (task, program)

/-- What is left to print and to report at the end of a dialogue. Memory is shown only if the
machine halted. -/
def closing (system : FileSystem) (task : Task) (breakdown : Option Breakdown)
    (machine : Machine) : Outcome :=
  match breakdown with
  | some breakdown => .refused system [] breakdown.message
  | none =>
      { output := if task.dump then [machine.memory.render] else []
        reports := [halted]
        succeeded := true
        system := system }

/-- The outcome of a dialogue. -/
def conclude (system : FileSystem) (task : Task) (program : Program) (dialogue : Dialogue) :
    Outcome :=
  let closing := closing system task dialogue.breakdown dialogue.machine
  { closing with
    output := dialogue.outputs.map Cell.render ++ closing.output
    reports := running task program :: closing.reports }

/-- Runs a program. There is no outcome if the budget is not enough. -/
def executeRun (budget : Nat) (system : FileSystem) (stdin : List UInt8) (options : RunOptions) :
    Option Outcome :=
  match load system options with
  | .error problem => some (.refused system [] problem.message)
  | .ok (task, program) =>
      let feed := if options.stdin then Feed.ofBytes stdin else .nothing
      (converse budget program task.input feed).map (conclude system task program)

def execute (budget : Nat) (system : FileSystem) (stdin : List UInt8) :
    Command → Option Outcome
  | .new path => some (executeNew system path)
  | .run options => executeRun budget system stdin options

end Command

end Intcode
