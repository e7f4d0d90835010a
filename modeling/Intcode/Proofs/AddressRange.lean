/-
This file bounds the addresses that a machine uses. Cells from 2 ^ 63 on are never
written and select no operation, so the instruction pointer can not get far past them.
-/

import Intcode.Proofs.Completion
import Intcode.Proofs.Cursor
import Intcode.Proofs.Protocol

namespace Intcode

/-- The dense cells are those of a program that ends before 2 ^ 63, and no other cell is written
from there on. -/
structure Memory.Confined (length : Nat) (memory : Memory) : Prop where
  short : length ≤ 2 ^ 63
  size : memory.cells.size = length
  sparse : ∀ address, address ∈ memory.sparse → length ≤ address ∧ address < 2 ^ 63

theorem Memory.load_confined {program : Program} (short : program.length ≤ 2 ^ 63) :
    (load program).Confined program.length where
  short := short
  size := List.size_toArray
  sparse _ written := absurd written Std.ExtTreeMap.not_mem_empty

theorem Memory.Confined.write {length : Nat} {memory : Memory} (confined : memory.Confined length)
    {address : Nat} (inside : address < 2 ^ 63) (value : Cell) :
    (memory.write address value).Confined length where
  short := confined.short
  size := by rw [size_write, confined.size]
  sparse other written := by
    rcases (memory.mem_sparse_write address value other).mp written with old | ⟨beyond, rfl⟩
    · exact confined.sparse other old
    · exact ⟨confined.size ▸ beyond, inside⟩

/-- Memory holds zero from 2 ^ 63 on. -/
theorem Memory.Confined.read {length : Nat} {memory : Memory} (confined : memory.Confined length)
    {address : Nat} (beyond : 2 ^ 63 ≤ address) : memory.read address = 0 := by
  have outside : memory.cells.size ≤ address := by
    rw [confined.size]
    exact confined.short.trans beyond
  have unwritten : address ∉ memory.sparse := by
    intro written
    have inside := (confined.sparse address written).2
    omega
  rw [read_of_size_le outside]
  exact Std.ExtTreeMap.getD_eq_fallback unwritten

namespace Machine

theorem location_lt {address : Cell} {target : Nat} (located : location address = .ok target) :
    target < 2 ^ 63 := by
  have narrow := address.toInt_lt
  unfold location at located
  split at located <;> cases located
  omega

/-- A parameter that is written through refers to an address below 2 ^ 63. -/
theorem target_lt {machine : Machine} {index address : Nat}
    (written : machine.target index = .ok address) : address < 2 ^ 63 := by
  obtain ⟨_, checked, resolved⟩ := bind_eq_ok.mp written
  obtain ⟨mode, selected, resolved⟩ := bind_eq_ok.mp resolved
  obtain ⟨same, found, permitted⟩ := bind_eq_ok.mp checked
  rw [selected] at found
  cases found
  cases mode with
  | position => exact location_lt resolved
  | immediate => cases permitted
  | relative =>
      dsimp only at resolved
      split at resolved
      · exact location_lt resolved
      · cases resolved

/-- The addresses of a machine are in range. -/
structure Bounded (program : Program) (machine : Machine) : Prop where
  memory : machine.memory.Confined program.length
  ip : machine.ip ≤ 2 ^ 63 + 3
  instruction : machine.instruction ≤ 2 ^ 63 + 3

variable {program : Program} {machine next : Machine}

/-- A cell that selects an operation is below 2 ^ 63. -/
theorem Bounded.ip_lt (bounded : machine.Bounded program) {opcode : Opcode}
    (selected : Opcode.ofNumber? (Opcode.numberOf (machine.memory.read machine.ip)) = some opcode) :
    machine.ip < 2 ^ 63 := by
  by_contra beyond
  rw [bounded.memory.read (by omega)] at selected
  cases selected

theorem Bounded.fetch (bounded : machine.Bounded program) : machine.fetch.Bounded program where
  memory := bounded.memory
  ip := bounded.ip
  instruction := bounded.ip

theorem load_bounded (short : program.length ≤ 2 ^ 63) : (load program).Bounded program where
  memory := Memory.load_confined short
  ip := Nat.zero_le _
  instruction := Nat.zero_le _

/-- Every instruction keeps the addresses of a machine in range. -/
theorem Bounded.step (bounded : machine.Bounded program)
    {result : Except Trap (Option Event)} (stepped : machine.step = (next, result)) :
    next.Bounded program := by
  have reach := bounded.ip
  rcases result with trap | event
  · obtain ⟨_, rfl, _⟩ := step_eq_error.mp stepped
    exact bounded.fetch
  obtain ⟨effect, evaluated, applied⟩ := step_eq_ok.mp stepped
  obtain ⟨opcode, selected, grounds⟩ := evaluate_grounds evaluated
  have low := bounded.ip_lt (Opcode.ofNumber?_eq_some.mpr selected.symm)
  cases effect with
  | store address value =>
      cases applied
      refine ⟨bounded.memory.write (target_lt grounds) value, ?_, reach⟩
      dsimp only [fetch_instruction]
      omega
  | jump target =>
      cases applied
      obtain ⟨destination, located⟩ := grounds
      have near := location_lt located
      exact ⟨bounded.memory, by dsimp only; omega, reach⟩
  | fallThrough | await | emit | rebase | halt =>
      cases applied
      refine ⟨bounded.memory, ?_, reach⟩
      dsimp only [fetch_instruction]
      omega

/-- Storing a supplied value keeps the addresses of a machine in range. -/
theorem Bounded.supply (bounded : machine.Bounded program)
    (waiting : machine.Waiting) {value : Cell} {result : Except Trap Unit}
    (supplied : machine.supply value = (next, result)) : next.Bounded program := by
  have reach := bounded.instruction
  rcases result with trap | ⟨⟩
  · obtain ⟨_, rfl, _⟩ := supply_eq_error.mp supplied
    exact ⟨bounded.memory, reach, reach⟩
  obtain ⟨address, written, rfl⟩ := supply_eq_ok.mp supplied
  have low : machine.instruction < 2 ^ 63 := by
    by_contra beyond
    have number := waiting.number
    rw [head, bounded.memory.read (by omega)] at number
    cases number
  refine ⟨bounded.memory.write (target_lt written) value, ?_, reach⟩
  dsimp only
  omega

theorem Bounded.starts (bounded : machine.Bounded program)
    (coherent : machine.Coherent program) {input : Option Cell} (starts : machine.Starts input next) :
    next.Bounded program := by
  cases starts with
  | onward => exact ⟨bounded.memory, bounded.ip, bounded.instruction⟩
  | supplied awaits stored => exact bounded.supply (coherent.waiting awaits) stored

theorem Bounded.executes (bounded : machine.Bounded program)
    (executes : machine.Executes next) : next.Bounded program :=
  executes.keeps (fun _ _ before continues => before.step continues) bounded

theorem Bounded.resume (bounded : machine.Bounded program)
    (coherent : machine.Coherent program) {budget : Nat} {input : Option Cell}
    {result : Except Trap Event} (resumed : machine.resume budget input = some (next, result)) :
    next.Bounded program := by
  rw [resume_eq_some] at resumed
  cases resumed with
  | closed | again | refused => exact bounded
  | unstored awaits failed => exact bounded.supply (coherent.waiting awaits) failed
  | executed starts advanced =>
      obtain ⟨last, executes, pauses⟩ := pauses_of_advance advanced
      have before := (bounded.starts coherent starts).executes executes
      exact before.step pauses

/-- The machine occurs in a session, between two calls or before an instruction. -/
inductive Visited (program : Program) : Machine → Prop where
  | between {calls : List (Option Cell × Except Trap Event)} {machine : Machine}
      (session : (load program).Session calls machine) : Visited program machine
  | within {calls : List (Option Cell × Except Trap Event)} {last start machine : Machine}
      {input : Option Cell} (session : (load program).Session calls last)
      (starts : last.Starts input start) (executes : start.Executes machine) :
      Visited program machine

theorem Session.bounded {calls : List (Option Cell × Except Trap Event)}
    (session : (load program).Session calls machine) (short : program.length ≤ 2 ^ 63) :
    machine.Bounded program := by
  induction session with
  | opened => exact load_bounded short
  | resumed before call inductionHypothesis =>
      exact inductionHypothesis.resume before.coherent call

theorem Visited.bounded (visited : Visited program machine) (short : program.length ≤ 2 ^ 63) :
    machine.Bounded program := by
  cases visited with
  | between session => exact session.bounded short
  | within session starts executes =>
      exact ((session.bounded short).starts session.coherent starts).executes executes

/-- A machine that waits for a value is between two calls. -/
theorem Visited.waiting (visited : Visited program machine)
    (awaits : machine.status = .awaitingInput) : machine.Waiting := by
  cases visited with
  | between session => exact session.coherent.waiting awaits
  | within _ starts executes =>
      have running := executes.status.trans starts.status
      exact nomatch awaits.symm.trans running

/-- Nothing can be executed from 2 ^ 63 on. -/
theorem Bounded.pauses (bounded : machine.Bounded program) (beyond : 2 ^ 63 ≤ machine.ip) :
    machine.Pauses machine.fetch (.error ⟨.invalidOpcode 0, machine.ip⟩) := by
  have empty : machine.memory.read machine.ip = 0 := bounded.memory.read beyond
  rw [pauses_trap]
  refine ⟨?_, rfl, rfl⟩
  unfold evaluate
  rw [fetch_memory, fetch_instruction, empty]
  rfl

/-- A fault of the instruction at the last address that can be written, or of a cell behind it. -/
def AtEnd (trap : Trap) : Prop :=
  trap.address = 2 ^ 63 - 1 ∨
    trap.fault = .invalidOpcode 0 ∧ 2 ^ 63 ≤ trap.address ∧ trap.address ≤ 2 ^ 63 + 3

theorem Bounded.fails (bounded : machine.Bounded program)
    (beyond : 2 ^ 63 ≤ machine.ip) (values : List Cell) :
    ∃ trap, AtEnd trap ∧ machine.Completes values (.error trap) values :=
  ⟨_, .inr ⟨rfl, beyond, bounded.ip⟩, .trap (bounded.pauses beyond)⟩

/-- An input instruction at the last address that can be written leads to a fault, whether there
is a value for it or not. -/
theorem Bounded.fails_at_input (bounded : machine.Bounded program)
    (running : machine.status = .running) (last : machine.ip = 2 ^ 63 - 1)
    (pauses : machine.Pauses next (.ok .needInput)) (values : List Cell) :
    ∃ trap rest, AtEnd trap ∧ machine.Completes values (.error trap) rest := by
  have decoded : next.instruction = 2 ^ 63 - 1 := by
    obtain ⟨_, rfl⟩ := pauses_needInput.mp pauses
    exact last
  cases values with
  | nil => exact ⟨_, [], .inl decoded, .missing pauses⟩
  | cons value values =>
      have after : next.Bounded program := bounded.step pauses
      have coherent : next.Coherent program := pauses.coherent running
      rcases supplied : next.supply value with ⟨start, trap | ⟨⟩⟩
      · obtain ⟨_, _, address⟩ := supply_eq_error.mp supplied
        exact ⟨trap, values, .inl (address.trans decoded), .unstored pauses supplied⟩
      · have stored := after.supply (coherent.waiting pauses.status_of_needInput) supplied
        have beyond : 2 ^ 63 ≤ start.ip := by
          obtain ⟨address, _, rfl⟩ := supply_eq_ok.mp supplied
          dsimp only
          omega
        obtain ⟨trap, atEnd, completes⟩ := stored.fails beyond values
        exact ⟨trap, values, atEnd, .stored pauses supplied completes⟩

/-- An instruction at the last address that can be written leads to a fault, unless it halts or
jumps away. -/
theorem Bounded.fails_at_end (bounded : machine.Bounded program)
    (running : machine.status = .running) (last : machine.ip = 2 ^ 63 - 1) (values : List Cell) :
    machine.fetch.evaluate = .ok .halt ∨ (∃ target, machine.fetch.evaluate = .ok (.jump target)) ∨
      ∃ trap rest, AtEnd trap ∧ machine.Completes values (.error trap) rest := by
  rcases stepped : machine.step with ⟨next, trap | event⟩
  · obtain ⟨_, _, address⟩ := step_eq_error.mp stepped
    exact .inr (.inr ⟨trap, values, .inl (address.trans last), .trap stepped⟩)
  have after : next.Bounded program := bounded.step stepped
  obtain ⟨effect, evaluated, applied⟩ := step_eq_ok.mp stepped
  cases effect with
  | halt => exact .inl evaluated
  | jump target => exact .inr (.inl ⟨target, evaluated⟩)
  | store | fallThrough | rebase =>
      cases applied
      obtain ⟨trap, atEnd, completes⟩ :=
        after.fails (by dsimp only [fetch_instruction]; omega) values
      exact .inr (.inr ⟨trap, values, atEnd, .continues stepped completes⟩)
  | emit value =>
      cases applied
      obtain ⟨trap, atEnd, completes⟩ :=
        after.fails (by dsimp only [fetch_instruction]; omega) values
      exact .inr (.inr ⟨trap, values, atEnd, .output stepped completes⟩)
  | await =>
      cases applied
      exact .inr (.inr (bounded.fails_at_input running last stepped values))

/-- Whatever calls are made, no address above 2 ^ 63 - 1 is written and the instruction pointer is
never moved from one above 2 ^ 63 + 3, so that it does not wrap. An instruction at address
2 ^ 63 - 1 that neither halts nor jumps leads to a fault there or in a cell behind. -/
theorem addresses_stay_in_range (short : program.length ≤ 2 ^ 63) (visited : Visited program machine) :
    machine.memory.cells.size = program.length ∧
    (∀ address, address ∈ machine.memory.sparse →
      program.length ≤ address ∧ address ≤ 2 ^ 63 - 1) ∧
    machine.ip ≤ 2 ^ 63 + 3 ∧ machine.instruction ≤ 2 ^ 63 + 3 ∧
    Cursor.runOn (Cursor.step (2 ^ 63 + 3)) machine = Cursor.outcome machine.step ∧
    (machine.status = .awaitingInput → ∀ value,
      Cursor.runOn (Cursor.supply (2 ^ 63 + 3) value) machine =
        Cursor.outcome (machine.supply value)) ∧
    (machine.status = .running → machine.ip = 2 ^ 63 - 1 → ∀ values,
      machine.fetch.evaluate = .ok .halt ∨ (∃ target, machine.fetch.evaluate = .ok (.jump target)) ∨
        ∃ budget trap, AtEnd trap ∧ machine.complete budget none values = some (.error trap)) := by
  have bounded := visited.bounded short
  refine ⟨bounded.memory.size, ?_, bounded.ip, bounded.instruction, ?_, ?_, ?_⟩
  · intro address written
    have inside := bounded.memory.sparse address written
    omega
  · refine Cursor.runOn_step bounded.ip ?_
    intro opcode selected
    have low := bounded.ip_lt selected
    omega
  · intro awaits value
    exact Cursor.runOn_supply value (visited.waiting awaits).ip bounded.ip
  · intro running last values
    rcases bounded.fails_at_end running last values with halts | jumps | ⟨trap, _, atEnd, completes⟩
    · exact .inl halts
    · exact .inr (.inl jumps)
    · obtain ⟨budget, completed⟩ := complete_of_completes completes running
      exact .inr (.inr ⟨budget, trap, atEnd, completed⟩)

/-- A program that prints at the last address that can be written fails in the cells behind. -/
theorem last_output_stays_in_range :
    let program : Program := [1101, 104, 0, 9223372036854775807, 1106, 0, 9223372036854775807]
    let machine : Machine :=
      { started program with
        memory := (Memory.load program).write (2 ^ 63 - 1) 104
        ip := 2 ^ 63 - 1, instruction := 4, modes := 11 }
    program.length ≤ 2 ^ 63 ∧ Visited program machine ∧
    Cursor.runOn (Cursor.step (2 ^ 63 + 3)) machine = Cursor.outcome machine.step ∧
    ∃ budget trap, AtEnd trap ∧ machine.complete budget none [] = some (.error trap) := by
  intro program machine
  have short : program.length ≤ 2 ^ 63 := by decide
  have stored : (started program).step = ({ machine with ip := 4, instruction := 0 }, .ok none) := by
    decide
  have jumped : step { machine with ip := 4, instruction := 0 } = (machine, .ok none) := by decide
  have visited : Visited program machine :=
    .within .opened (.onward (.inl rfl)) (.tail (.single stored) jumped)
  have prints : machine.fetch.evaluate = .ok (.emit 0) := by decide
  obtain ⟨_, _, _, _, executed, _, ends⟩ := addresses_stay_in_range short visited
  refine ⟨short, visited, executed, ?_⟩
  rcases ends rfl rfl [] with halts | ⟨target, jumps⟩ | fails
  · cases prints.symm.trans halts
  · cases prints.symm.trans jumps
  · exact fails

/-- A program can halt at the last address that can be written, and can jump away from it. -/
theorem last_address_need_not_fail :
    let halting : Program := [1101, 99, 0, 9223372036854775807, 1106, 0, 9223372036854775807]
    let jumping : Program := [1101, 1106, 0, 9223372036854775807, 1101, 99, 0, 0,
      1106, 0, 9223372036854775807]
    (∃ machine, Visited halting machine ∧ machine.ip = 2 ^ 63 - 1 ∧
      machine.fetch.evaluate = .ok .halt) ∧
    run 3 halting [] = some (.ok []) ∧
    (∃ machine, Visited jumping machine ∧ machine.ip = 2 ^ 63 - 1 ∧
      machine.fetch.evaluate = .ok (.jump 0)) ∧
    run 5 jumping [] = some (.ok []) := by
  intro halting jumping
  refine ⟨?_, by decide, ?_, by decide⟩
  · let machine : Machine :=
      { started halting with
        memory := (Memory.load halting).write (2 ^ 63 - 1) 99
        ip := 2 ^ 63 - 1, instruction := 4, modes := 11 }
    have stored : (started halting).step = ({ machine with ip := 4, instruction := 0 }, .ok none) := by
      decide
    have jumped : step { machine with ip := 4, instruction := 0 } = (machine, .ok none) := by decide
    exact ⟨machine, .within .opened (.onward (.inl rfl)) (.tail (.single stored) jumped), rfl, by decide⟩
  · let written : Memory := (Memory.load jumping).write (2 ^ 63 - 1) 1106
    let machine : Machine :=
      { started jumping with
        memory := written.write 0 99, ip := 2 ^ 63 - 1, instruction := 8, modes := 11 }
    have stored : (started jumping).step =
        ({ machine with memory := written, ip := 4, instruction := 0 }, .ok none) := by
      decide
    have replaced : step { machine with memory := written, ip := 4, instruction := 0 } =
        ({ machine with ip := 8, instruction := 4 }, .ok none) := by
      decide
    have jumped : step { machine with ip := 8, instruction := 4 } = (machine, .ok none) := by decide
    exact ⟨machine, .within .opened (.onward (.inl rfl)) (.tail (.tail (.single stored) replaced) jumped),
      rfl, by decide⟩

end Machine

end Intcode
