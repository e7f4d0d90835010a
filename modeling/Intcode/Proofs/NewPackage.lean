/-
This file shows that a package which has just been made can be run. Its manifest is found
and read, and its program gives back the first value that it is given.
-/

import Intcode.Proofs.FreshManifest
import Intcode.Proofs.Grammar
import Intcode.Proofs.Scaffolding
import Intcode.Proofs.Search

namespace Intcode

namespace Program

/-- Whether a text is loaded does not depend on where it is from. -/
theorem parse_eq_ok_of_text {source : Source} (other : Source) {program : Program}
    (same : other.text = source.text) (parsed : parse source = .ok program) :
    parse other = .ok program := by
  obtain ⟨body, headed⟩ := exists_headed source.text.toList
  rw [parse_eq_ok headed] at parsed
  rw [← same] at headed
  exact (parse_eq_ok headed).mpr parsed

end Program

namespace Scaffold

section Packages

variable {path : Path} {name : String}
variable {system prepared described housed after : FileSystem}

/-- The nearest manifest of a package is its own. -/
theorem Made.resolve (made : Made path name system prepared described housed after)
    (vacant : Vacant system after path) (further : List Cell) (dump : Bool) :
    Task.resolve after path further dump = .ok ⟨programPath path, further, dump⟩ := by
  obtain ⟨directory, manifest, -⟩ := made.contents vacant
  have holds := Manifest.Holds.text manifest (Text.decode?_encode _)
  rw [Manifest.parse_freshText] at holds
  have nearest : Manifest.Nearest after path path := ⟨[], .here path, nofun, _, manifest⟩
  refine (Manifest.resolve_eq_ok directory).mpr ⟨path, Manifest.fresh name, nearest, holds, ?_⟩
  rw [Task.ofManifest, Manifest.fresh, RunSettings.standard, Bool.or_false]
  rfl

theorem parse_programText (path : String) :
    Program.parse { text := programText, path := path } = .ok [3, 0, 4, 0, 99] := by
  have unnamed : Program.parse (.unnamed programText) = .ok [3, 0, 4, 0, 99] := by decide +kernel
  have same : programText = (Source.unnamed programText).text := rfl
  exact Program.parse_eq_ok_of_text ⟨programText, path⟩ same unnamed

theorem Made.readText? (made : Made path name system prepared described housed after)
    (vacant : Vacant system after path) :
    after.readText? (programPath path) = some programText := by
  obtain ⟨-, -, program⟩ := made.contents vacant
  simp [FileSystem.readText?, program]

/-- What is run is the program that was meant for the package. -/
theorem Made.loads (made : Made path name system prepared described housed after)
    (vacant : Vacant system after path) (input : List Cell) (stdin dump : Bool) :
    Command.Loads after ⟨path, input, stdin, dump⟩ ⟨programPath path, input, dump⟩
      [3, 0, 4, 0, 99] :=
  ⟨made.resolve vacant input dump, programText, made.readText? vacant, parse_programText _⟩

theorem Made.program (made : Made path name system prepared described housed after)
    (vacant : Vacant system after path) (input : List Cell) (dump : Bool) :
    (Task.mk (programPath path) input dump).program after = .ok [3, 0, 4, 0, 99] := by
  simp only [Task.program, made.readText? vacant, parse_programText, Except.mapError]

end Packages

end Scaffold

section Echo

/-- A machine that waits for the value which its program gives back. -/
def awaitingEcho : Machine :=
  { Machine.load [3, 0, 4, 0, 99] with ip := 1, status := .awaitingInput }

/-- A machine that has been given the value, before the instruction at an address. -/
def echoing (value : Cell) (ip instruction : Nat) : Machine :=
  { Machine.load [value, 0, 4, 0, 99] with
    ip := ip, instruction := instruction, status := .running }

theorem echoing_output (value : Cell) :
    (echoing value 2 0).Pauses (echoing value 4 2) (.ok (.output value)) := by
  have code : (Memory.load [value, 0, 4, 0, 99]).read 2 = 4 := rfl
  have parameter : (Memory.load [value, 0, 4, 0, 99]).read 3 = 0 := rfl
  have modes : Opcode.modesOf 4 = 0 := by decide
  have opcode : Opcode.ofNumber? (Opcode.numberOf 4) = some .output := by decide
  have mode : Mode.ofDigit? (Mode.digitAt 0 0) = some .position := by decide
  have location : Machine.location 0 = .ok 0 := by decide
  have fetched : (echoing value 2 0).fetch = echoing value 2 2 := by
    simp [Machine.fetch, echoing, Machine.load, code, modes]
  refine Machine.pauses_output.mpr ⟨?_, ?_⟩
  · rw [fetched]
    simp [Machine.evaluate, code, opcode, Machine.perform, Machine.value, Machine.address,
      Machine.mode, mode, echoing, Machine.load, Machine.slot, parameter, location]
    rfl
  · rw [fetched]
    rfl

theorem echoing_halted (value : Cell) :
    (echoing value 4 2).Pauses { echoing value 5 4 with status := .halted } (.ok .halted) := by
  have code : (Memory.load [value, 0, 4, 0, 99]).read 4 = 99 := rfl
  have modes : Opcode.modesOf 99 = 0 := by decide
  have opcode : Opcode.ofNumber? (Opcode.numberOf 99) = some .halt := by decide
  have fetched : (echoing value 4 2).fetch = echoing value 4 4 := by
    simp [Machine.fetch, echoing, Machine.load, code, modes]
  refine Machine.pauses_halted.mpr ⟨?_, ?_⟩
  · rw [fetched]
    simp [Machine.evaluate, code, opcode, Machine.perform, echoing, Machine.load]
  · rw [fetched]
    rfl

theorem resume_echo (budget : Nat) :
    (Machine.load [3, 0, 4, 0, 99]).resume (budget + 1) none =
      some (awaitingEcho, .ok .needInput) := by
  have pauses : ({ Machine.load [3, 0, 4, 0, 99] with status := .running } : Machine).Pauses
      awaitingEcho (.ok .needInput) := rfl
  exact Machine.advance_of_pauses pauses budget

theorem converse_echo (budget : Nat) (value : Cell) (rest : List Cell) :
    converse (budget + 3) [3, 0, 4, 0, 99] (value :: rest) .nothing =
      some ⟨[value], none, { echoing value 5 4 with status := .halted }⟩ := by
  have supplied : awaitingEcho.resume (budget + 2) (some value) =
      some (echoing value 4 2, .ok (.output value)) :=
    Machine.advance_of_pauses (echoing_output value) (budget + 1)
  have ended : (echoing value 4 2).resume (budget + 1) none =
      some ({ echoing value 5 4 with status := .halted }, .ok .halted) :=
    Machine.advance_of_pauses (echoing_halted value) budget
  rw [converse, Machine.converse_queued (resume_echo _), Machine.converse_output supplied,
    Machine.converse_halted ended]
  rfl

theorem converse_echo_nil (budget : Nat) :
    converse (budget + 1) [3, 0, 4, 0, 99] [] .nothing =
      some ⟨[], some (.shortage .nothingQueued), awaitingEcho⟩ :=
  Machine.converse_short (resume_echo budget) rfl

/-- The answer to a run on values, and on none. -/
theorem run_echo (budget : Nat) (value : Cell) (rest : List Cell) :
    run (budget + 3) [3, 0, 4, 0, 99] (value :: rest) = some (.ok [value]) := by
  rw [run_eq_converse, converse_echo]
  rfl

theorem run_echo_nil (budget : Nat) :
    run (budget + 1) [3, 0, 4, 0, 99] [] = some (.error ⟨.missingInput, 0⟩) := by
  rw [run_eq_converse, converse_echo_nil]
  rfl

end Echo

section Commands

variable {system : FileSystem} {path : Path}

/-- The command that runs the program prints the first value, and then memory if it is told to. -/
theorem execute_echo {options : RunOptions} {task : Task} {value : Cell} {rest : List Cell}
    (loads : Command.Loads system options task [3, 0, 4, 0, 99]) (queued : options.stdin = false)
    (values : task.input = value :: rest) (budget : Nat) (stdin : List UInt8) :
    ∃ outcome, Command.execute (budget + 3) system stdin (.run options) = some outcome ∧
      outcome.exitCode = 0 ∧
      outcome.stdout = printed [value] ++
        if task.dump then Program.render [value, 0, 4, 0, 99] ++ "\n" else "" := by
  rw [loads.execute queued, values, converse_echo]
  exact ⟨_, rfl, rfl, Command.stdout_conclude system task _ [value] _⟩

/-- Without a value it prints nothing and says what it lacks. -/
theorem execute_echo_nil {options : RunOptions} {task : Task}
    (loads : Command.Loads system options task [3, 0, 4, 0, 99]) (queued : options.stdin = false)
    (values : task.input = []) (budget : Nat) (stdin : List UInt8) :
    ∃ outcome, Command.execute (budget + 1) system stdin (.run options) = some outcome ∧
      outcome.exitCode = 1 ∧ outcome.stdout = "" ∧
      outcome.reports.getLast? =
        some ⟨.fatal, "The program requested input, but none remains"⟩ := by
  rw [loads.execute queued, values, converse_echo_nil]
  exact ⟨_, rfl, rfl, rfl, rfl⟩

/-- Once a package has been made where nothing was in the places of its files, its path stands for
its program with the values that are given, and the program gives back the first of them and halts,
or fails if there is none. In a tree nothing was in those places if the path does not go up and did
not lead to the files before. -/
theorem new_package_gives_back_first_value
    (succeeded : (Command.executeNew system path).succeeded = true)
    (fresh : Scaffold.Vacant system (Command.executeNew system path).system path ∨
      system.IsTree ∧ Segment.dotDot ∉ path.segments ∧
        system.entry? (path.join (.ofString "intcode.toml")) = none ∧
        system.entry? ((path.join (.ofString "src")).join (.ofString "main.ic")) = none) :
    let after := (Command.executeNew system path).system
    (∀ further dump,
      let task : Task :=
        ⟨(path.join (.ofString "src")).join (.ofString "main.ic"), further, dump⟩
      Task.resolve after path further dump = .ok task ∧
        task.program after = .ok [3, 0, 4, 0, 99]) ∧
    ∀ budget, 3 ≤ budget →
      (∀ value rest, run budget [3, 0, 4, 0, 99] (value :: rest) = some (.ok [value])) ∧
      run budget [3, 0, 4, 0, 99] [] = some (.error ⟨.missingInput, 0⟩) ∧
      ∀ stdin dump,
        (∀ value rest, ∃ outcome,
          Command.execute budget after stdin (.run ⟨path, value :: rest, false, dump⟩) =
            some outcome ∧
          outcome.exitCode = 0 ∧
          outcome.stdout = printed [value] ++
            if dump then Program.render [value, 0, 4, 0, 99] ++ "\n" else "") ∧
        ∃ outcome,
          Command.execute budget after stdin (.run ⟨path, [], false, dump⟩) = some outcome ∧
          outcome.exitCode = 1 ∧ outcome.stdout = "" ∧
          outcome.reports.getLast? =
            some ⟨.fatal, "The program requested input, but none remains"⟩ := by
  intro after
  obtain ⟨name, prepared, described, housed, made⟩ := Scaffold.made_of_executeNew succeeded
  have vacant : Scaffold.Vacant system after path := by
    rcases fresh with vacant | ⟨tree, down, noManifest, noProgram⟩
    · exact vacant
    · exact made.vacant tree down noManifest noProgram
  refine ⟨?_, ?_⟩
  · intro further dump
    exact ⟨made.resolve vacant further dump, made.program vacant further dump⟩
  · intro budget enough
    obtain ⟨more, rfl⟩ := Nat.exists_eq_add_of_le' enough
    refine ⟨run_echo more, run_echo_nil (more + 2), ?_⟩
    intro stdin dump
    constructor
    · intro value rest
      exact execute_echo (made.loads vacant (value :: rest) false dump) rfl rfl more stdin
    · exact execute_echo_nil (made.loads vacant [] false dump) rfl rfl (more + 2) stdin

/-- A package whose name has quotation marks, a line end and a control character in it. -/
theorem awkwardly_named_package_runs :
    let system : FileSystem :=
      { entries := [([Text.encode "w"], .directory)], workingDirectory := [Text.encode "w"] }
    let path := Path.ofString "d/it's \"é\"\n\x01'"
    let after := (Command.executeNew system path).system
    (Command.executeNew system path).succeeded = true ∧ system.IsTree ∧
    Task.resolve after path [7, 8] true =
      .ok ⟨.ofString "d/it's \"é\"\n\x01'/src/main.ic", [7, 8], true⟩ ∧
    run 3 [3, 0, 4, 0, 99] [7, 8] = some (.ok [7]) := by
  intro system path after
  have succeeded : (Command.executeNew system path).succeeded = true := by decide +kernel
  have tree : system.IsTree := by
    intro location segment entry found
    cases location with
    | nil => rfl
    | cons first location =>
        have deeper : (first :: location ++ [segment] == [Text.encode "w"]) = false :=
          beq_false_of_ne (by simp)
        rw [FileSystem.lookup, if_neg (by simp), List.lookup_cons, deeper] at found
        cases found
  have echoes := new_package_gives_back_first_value succeeded
    (.inr ⟨tree, by decide +kernel, by decide +kernel, by decide +kernel⟩)
  exact ⟨succeeded, tree, (echoes.1 [7, 8] true).1, (echoes.2 3 le_rfl).1 7 [8]⟩

/-- A path that goes through a directory which is still to be made leads to nothing before, but to
an old manifest afterwards, which is kept. -/
theorem roundabout_path_keeps_old_manifest :
    let system : FileSystem :=
      { entries :=
          [([Text.encode "b"], .directory),
           ([Text.encode "b", Text.encode "intcode.toml"], .file (Text.encode "junk"))]
        workingDirectory := [] }
    let path := Path.ofString "x/../b"
    system.entry? (path.join (.ofString "intcode.toml")) = none ∧
    system.entry? ((path.join (.ofString "src")).join (.ofString "main.ic")) = none ∧
    (Command.executeNew system path).succeeded = true ∧
    ∀ task, Task.resolve (Command.executeNew system path).system path [] false ≠ .ok task := by
  intro system path
  have refused : Task.resolve (Command.executeNew system path).system path [] false =
      .error (.noManifest .malformed) := by decide +kernel
  refine ⟨by decide +kernel, by decide +kernel, by decide +kernel, ?_⟩
  intro task resolved
  cases refused.symm.trans resolved

end Commands

end Intcode
