/-
This file shows what the command that runs a program prints, and with which code it
exits. It prints what a run of that program on the queued values computes, and it
leaves the file system as it is.
-/

import Intcode.Command.Execute
import Intcode.Proofs.Exchange

namespace Intcode

/-- Values in decimal, each with a line feed behind it. -/
def printed (values : List Cell) : String :=
  String.join (values.map fun value => value.render ++ "\n")

namespace Program

/-- The program returns these outputs if it is given the first of these values, and then this
machine is left, which has halted. -/
def Halts (program : Program) (values outputs : List Cell) (machine : Machine) : Prop :=
  ∃ given rest, given ++ rest = values ∧ (Machine.load program).Exchange given outputs machine ∧
    machine.status = .halted

/-- The program returns these outputs if it is given the first of these values, and then it can
not go on with the others, for this reason. -/
def Stops (program : Program) (values outputs : List Cell) (trap : Trap) : Prop :=
  ∃ given rest machine, given ++ rest = values ∧
    (Machine.load program).Exchange given outputs machine ∧ machine.Breaks rest trap

/-- The dialogue on these values goes this way, so only one machine can be left. -/
theorem Halts.converses {program : Program} {values outputs : List Cell} {machine : Machine}
    (halts : program.Halts values outputs machine) :
    (Machine.load program).Converses none values ⟨outputs, none, machine⟩ := by
  obtain ⟨given, rest, rfl, exchange, halted⟩ := halts
  exact exchange.converses_of_halted nofun halted rest

end Program

section Runs

variable {budget : Nat} {program : Program} {values outputs : List Cell} {trap : Trap}

/-- The dialogue of a run that returns its outputs. -/
theorem converse_of_run (ended : run budget program values = some (.ok outputs)) :
    ∃ machine, converse budget program values .nothing = some ⟨outputs, none, machine⟩ ∧
      program.Halts values outputs machine := by
  rw [run_eq_converse] at ended
  obtain ⟨dialogue, conversed, told⟩ := Option.map_eq_some_iff.mp ended
  obtain ⟨given, rest, last, division, exchange, halts, -⟩ := Machine.exchange_of_converse conversed
  have settled := converse_settled conversed
  rcases dialogue with ⟨returned, _ | cause | shortage, machine⟩ <;> cases told
  cases halts rfl
  exact ⟨machine, conversed, given, rest, division, exchange, settled⟩

/-- The dialogue of a run that fails. -/
theorem converse_of_failed_run (ended : run budget program values = some (.error trap)) :
    ∃ dialogue, converse budget program values .nothing = some dialogue ∧
      dialogue.breakdown ≠ none ∧ program.Stops values dialogue.outputs trap := by
  rw [run_eq_converse] at ended
  obtain ⟨dialogue, conversed, told⟩ := Option.map_eq_some_iff.mp ended
  obtain ⟨given, rest, last, division, exchange, -, breaks⟩ :=
    Machine.exchange_of_converse conversed
  have broken : dialogue.breakdown ≠ none := by
    intro ended
    simp [Dialogue.result, ended] at told
  exact ⟨dialogue, conversed, broken, given, rest, last, division, exchange, breaks trap told⟩

end Runs

section Tasks

variable {system : FileSystem} {path : Path}

/-- What is a directory is not a file. -/
theorem FileSystem.isFile_of_isDirectory (directory : system.isDirectory path = true) :
    system.isFile path = false := by
  have found : system.entry? path = some .directory := by
    simpa [isDirectory] using directory
  simp [isFile, found]

/-- The task of a directory is that of the package which it is in. -/
theorem Task.resolve_of_isDirectory {manifest : Manifest} {root : Path} (input : List Cell)
    (dump : Bool) (directory : system.isDirectory path = true)
    (found : Manifest.search system path = .ok (manifest, root)) :
    resolve system path input dump = .ok (ofManifest manifest root input dump) := by
  simp [resolve, FileSystem.isFile_of_isDirectory directory, directory, found]

/-- A file is a task of its own, whatever is around it. -/
theorem Task.resolve_of_isFile (input : List Cell) (dump : Bool) (file : system.isFile path = true) :
    resolve system path input dump = .ok ⟨path, input, dump⟩ := by
  simp [resolve, file]

end Tasks

namespace Command

/-- The options lead to a task, and the task's file is well-formed text of this program. -/
structure Loads (system : FileSystem) (options : RunOptions) (task : Task) (program : Program) :
    Prop where
  resolved : Task.resolve system options.path options.input options.dump = .ok task
  loaded : ∃ text, system.readText? task.file = some text ∧
    Program.parse { text := text, path := task.file.render } = .ok program

/-- The options lead to no task, or to a file that can not be read, or to one that is not the text
of a program. -/
inductive Fails (system : FileSystem) (options : RunOptions) : Prop where
  | unresolved {problem : Task.Problem}
      (refused : Task.resolve system options.path options.input options.dump = .error problem)
  | unreadable {task : Task}
      (resolved : Task.resolve system options.path options.input options.dump = .ok task)
      (unreadable : system.readText? task.file = none)
  | malformed {task : Task} {text : String} {error : Program.ParseError}
      (resolved : Task.resolve system options.path options.input options.dump = .ok task)
      (readable : system.readText? task.file = some text)
      (refused : Program.parse { text := text, path := task.file.render } = .error error)

section Stages

variable {system : FileSystem} {options : RunOptions} {task : Task} {program : Program}

/-- There is a program to run, or there is none. -/
theorem loads_or_fails (system : FileSystem) (options : RunOptions) :
    (∃ task program, Loads system options task program) ∨ Fails system options := by
  cases resolved : Task.resolve system options.path options.input options.dump with
  | error problem => exact .inr (.unresolved resolved)
  | ok task =>
      cases readable : system.readText? task.file with
      | none => exact .inr (.unreadable resolved readable)
      | some text =>
          cases parsed : Program.parse { text := text, path := task.file.render } with
          | error error => exact .inr (.malformed resolved readable parsed)
          | ok program => exact .inl ⟨task, program, resolved, text, readable, parsed⟩

/-- A program that is loaded is run in a dialogue. -/
theorem Loads.execute (loads : Loads system options task program) (queued : options.stdin = false)
    (budget : Nat) (stdin : List UInt8) :
    execute budget system stdin (.run options) =
      (converse budget program task.input .nothing).map (conclude system task program) := by
  obtain ⟨resolved, text, readable, parsed⟩ := loads
  have ready : task.program system = .ok program := by
    simp [Task.program, readable, parsed, Except.mapError]
  simp [Command.execute, executeRun, load, resolved, ready, queued]

/-- A command that has no program to run is refused. -/
theorem Fails.execute (fails : Fails system options) (budget : Nat) (stdin : List UInt8) :
    ∃ problem : Task.Problem, execute budget system stdin (.run options) =
      some (.refused system [] problem.message) := by
  cases fails with
  | @unresolved problem refused =>
      refine ⟨problem, ?_⟩
      simp [Command.execute, executeRun, load, refused]
  | @unreadable task resolved unreadable =>
      have failed : task.program system = .error (.unreadable task.file) := by
        simp [Task.program, unreadable]
      refine ⟨.unreadable task.file, ?_⟩
      simp [Command.execute, executeRun, load, resolved, failed]
  | @malformed task text error resolved readable refused =>
      have failed : task.program system = .error (.malformed error) := by
        simp [Task.program, readable, refused, Except.mapError]
      refine ⟨.malformed error, ?_⟩
      simp [Command.execute, executeRun, load, resolved, failed]

/-- What is printed once the program halts. -/
theorem stdout_conclude (system : FileSystem) (task : Task) (program : Program)
    (outputs : List Cell) (machine : Machine) :
    (conclude system task program ⟨outputs, none, machine⟩).stdout =
      printed outputs ++ if task.dump then machine.memory.render ++ "\n" else "" := by
  cases dumped : task.dump <;>
    simp [conclude, closing, Outcome.stdout, printed, dumped, Function.comp_def,
      String.join_append, String.join_cons]

/-- What is printed if the program stops before it halts. -/
theorem conclude_of_breakdown {dialogue : Dialogue} (broken : dialogue.breakdown ≠ none)
    (system : FileSystem) (task : Task) (program : Program) :
    (conclude system task program dialogue).exitCode = 1 ∧
      (conclude system task program dialogue).stdout = printed dialogue.outputs := by
  obtain ⟨breakdown, broken⟩ := Option.ne_none_iff_exists'.mp broken
  simp [conclude, closing, broken, Outcome.refused, Outcome.exitCode, Outcome.stdout, printed,
    Function.comp_def]

@[simp]
theorem system_conclude (system : FileSystem) (task : Task) (program : Program)
    (dialogue : Dialogue) : (conclude system task program dialogue).system = system := by
  unfold conclude closing
  cases dialogue.breakdown <;> rfl

/-- A command that runs a program leaves the file system as it is. -/
theorem system_of_execute {budget : Nat} {stdin : List UInt8} {outcome : Outcome}
    (queued : options.stdin = false)
    (executed : execute budget system stdin (.run options) = some outcome) :
    outcome.system = system := by
  rcases loads_or_fails system options with ⟨task, program, loads⟩ | fails
  · rw [loads.execute queued] at executed
    obtain ⟨dialogue, -, rfl⟩ := Option.map_eq_some_iff.mp executed
    exact system_conclude system task program dialogue
  · obtain ⟨problem, refused⟩ := fails.execute budget stdin
    rw [refused] at executed
    cases executed
    rfl

end Stages

section Files

variable {system other : FileSystem}

/-- A task runs in the same way wherever its file has the same text. -/
theorem execute_of_same_task {budget : Nat} {stdin : List UInt8} {options : RunOptions} {task : Task}
    (resolved : Task.resolve system options.path options.input options.dump = .ok task)
    (resolvedToo : Task.resolve other options.path options.input options.dump = .ok task)
    (sameText : other.readText? task.file = system.readText? task.file) :
    execute budget other stdin (.run options) =
      (execute budget system stdin (.run options)).map ({ · with system := other }) := by
  have sameProgram : task.program other = task.program system := by
    rw [Task.program, Task.program, sameText]
  cases ready : task.program system with
  | error problem =>
      simp [execute, executeRun, load, resolved, resolvedToo, sameProgram, ready, Outcome.refused]
  | ok program =>
      have concluded : conclude other task program =
          ({ · with system := other }) ∘ conclude system task program := by
        funext dialogue
        rcases dialogue with ⟨outputs, _ | breakdown, machine⟩ <;> rfl
      simp [execute, executeRun, load, resolved, resolvedToo, sameProgram, ready, concluded]

/-- A file runs in the same way wherever it is the same. -/
theorem execute_of_same_file {budget : Nat} {stdin : List UInt8} {options : RunOptions}
    (file : system.isFile options.path = true)
    (same : other.entry? options.path = system.entry? options.path) :
    execute budget other stdin (.run options) =
      (execute budget system stdin (.run options)).map ({ · with system := other }) := by
  have fileToo : other.isFile options.path = true := by
    rwa [FileSystem.isFile, same, ← FileSystem.isFile]
  have sameText : other.readText? options.path = system.readText? options.path := by
    rw [FileSystem.readText?, same, ← FileSystem.readText?]
  exact execute_of_same_task (Task.resolve_of_isFile _ _ file) (Task.resolve_of_isFile _ _ fileToo)
    sameText

end Files

end Command

/-- The command prints what a run of the program computes, and its exit code tells whether the
program halted. It prints nothing if there is no program. A package has settings of its own, a
file does not, and the file system stays as it is. -/
theorem run_command_prints_run (system : FileSystem) (stdin : List UInt8) (options : RunOptions)
    (queued : options.stdin = false) :
    (∀ task program, Command.Loads system options task program →
      (∀ budget outputs, run budget program task.input = some (.ok outputs) →
        ∃ machine outcome, program.Halts task.input outputs machine ∧
          Command.execute budget system stdin (.run options) = some outcome ∧
          outcome.exitCode = 0 ∧
          outcome.stdout =
            printed outputs ++ if task.dump then machine.memory.render ++ "\n" else "") ∧
      ∀ budget trap, run budget program task.input = some (.error trap) →
        ∃ outputs outcome, program.Stops task.input outputs trap ∧
          Command.execute budget system stdin (.run options) = some outcome ∧
          outcome.exitCode = 1 ∧ outcome.stdout = printed outputs) ∧
    (Command.Fails system options → ∀ budget, ∃ outcome,
      Command.execute budget system stdin (.run options) = some outcome ∧
        outcome.exitCode = 1 ∧ outcome.stdout = "") ∧
    (∀ manifest root, system.isDirectory options.path = true →
      Manifest.search system options.path = .ok (manifest, root) →
      ∃ task, Task.resolve system options.path options.input options.dump = .ok task ∧
        task.file = (root.join (.ofString "src")).join (.ofString manifest.run.entrypoint) ∧
        task.input = manifest.run.input ++ options.input ∧
        task.dump = (options.dump || manifest.run.dump)) ∧
    (system.isFile options.path = true →
      Task.resolve system options.path options.input options.dump =
        .ok ⟨options.path, options.input, options.dump⟩ ∧
      ∀ other budget, other.entry? options.path = system.entry? options.path →
        Command.execute budget other stdin (.run options) =
          (Command.execute budget system stdin (.run options)).map ({ · with system := other })) ∧
    ∀ budget outcome, Command.execute budget system stdin (.run options) = some outcome →
      outcome.system = system := by
  refine ⟨?_, ?_, ?_, ?_, ?_⟩
  · intro task program loads
    constructor
    · intro budget outputs ended
      obtain ⟨machine, conversed, halts⟩ := converse_of_run ended
      refine ⟨machine, _, halts, ?_, ?_, Command.stdout_conclude system task program outputs machine⟩
      · rw [loads.execute queued, conversed, Option.map_some]
      · rfl
    · intro budget trap ended
      obtain ⟨dialogue, conversed, broken, stops⟩ := converse_of_failed_run ended
      refine ⟨dialogue.outputs, _, stops, ?_,
        Command.conclude_of_breakdown broken system task program⟩
      rw [loads.execute queued, conversed, Option.map_some]
  · intro fails budget
    obtain ⟨problem, refused⟩ := fails.execute budget stdin
    exact ⟨_, refused, rfl, rfl⟩
  · intro manifest root directory found
    exact ⟨_, Task.resolve_of_isDirectory _ _ directory found, rfl, rfl, rfl⟩
  · intro file
    refine ⟨Task.resolve_of_isFile _ _ file, ?_⟩
    intro other budget same
    exact Command.execute_of_same_file file same
  · intro budget outcome executed
    exact Command.system_of_execute queued executed

/-- A package whose manifest gives the first of two values. -/
theorem echo_package_prints_run :
    let manifestText := "[package]\nname='e'\nversion='1.0.0'\nauthors=[]\n[run]\ninput=[1]"
    let system : FileSystem :=
      { entries :=
          [([Text.encode "e"], .directory),
           ([Text.encode "e", Text.encode "intcode.toml"], .file (Text.encode manifestText)),
           ([Text.encode "e", Text.encode "src"], .directory),
           ([Text.encode "e", Text.encode "src", Text.encode "main.ic"],
            .file (Text.encode "3,0,4,0,99"))]
        workingDirectory := [] }
    let options : RunOptions :=
      { path := .ofString "e", input := [2], stdin := false, dump := true }
    let task : Task := { file := .ofString "e/src/main.ic", input := [1, 2], dump := true }
    options.stdin = false ∧ Command.Loads system options task [3, 0, 4, 0, 99] ∧
    ∃ outcome, Command.execute 4 system [] (.run options) = some outcome ∧
      outcome.exitCode = 0 ∧ outcome.stdout = "1\n1,0,4,0,99\n" ∧ outcome.system = system := by
  intro manifestText system options task
  have resolved : Task.resolve system options.path options.input options.dump = .ok task := by
    decide +kernel
  have prints := run_command_prints_run system [] options rfl
  have rendered : task.file.render = "e/src/main.ic" := by decide
  have program : Program.parse { text := "3,0,4,0,99", path := task.file.render } =
      .ok [3, 0, 4, 0, 99] := by
    rw [rendered]
    rfl
  have loads : Command.Loads system options task [3, 0, 4, 0, 99] :=
    ⟨resolved, _, Text.decode?_encode _, program⟩
  obtain ⟨machine, outcome, halts, executed, succeeded, shown⟩ :=
    (prints.1 task _ loads).1 4 [1] (by decide)
  have same := halts.converses.unique ⟨4, rfl⟩
  refine ⟨rfl, loads, outcome, executed, succeeded, ?_, prints.2.2.2.2 4 outcome executed⟩
  cases same
  rw [shown]
  decide

end Intcode
