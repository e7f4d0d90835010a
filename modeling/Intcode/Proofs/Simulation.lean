/-
This file compares the machine with the interpreter instruction by instruction.
-/

import Intcode.Proofs.Interpreter
import Intcode.Proofs.Session

namespace Intcode

/-- The digit of a parameter is found by one division. -/
theorem Mode.digitAt_eq (digits : Int) (index : Nat) :
    Mode.digitAt digits index = digits / 10 ^ index % 10 := by
  induction index generalizing digits with
  | zero => simp [digitAt]
  | succ index inductionHypothesis =>
      rw [digitAt, inductionHypothesis, Int.ediv_ediv_of_nonneg (by decide), ← pow_succ']

/-- The mode digits of a cell are its decimal digits above the lowest two. -/
theorem Opcode.digitAt_modesOf (cell : Cell) (index : Nat) :
    Mode.digitAt (modesOf cell) index = cell.toInt / 10 ^ (index + 2) % 10 := by
  have scale : (10 : Int) ^ (index + 2) = 100 * 10 ^ index := by
    rw [pow_add, mul_comm]
    rfl
  rw [Mode.digitAt_eq, modesOf, Int.ediv_ediv_of_nonneg (by decide), scale]

theorem Cell.ofInt?_ofBool (condition : Bool) :
    Cell.ofInt? (if condition then 1 else 0) = some (Cell.ofBool condition) := by
  cases condition <;> decide

theorem Memory.read_write_eq (memory : Memory) (address : Nat) (value : Cell) :
    (memory.write address value).read = Function.update memory.read address value := by
  funext other
  rw [Memory.read_write, Function.update_apply]
  simp only [eq_comm]

theorem Memory.read_load (program : Program) :
    (Memory.load program).read = fun address => program.getD address 0 := by
  funext address
  simp [load, read, List.getD]
  cases program[address]? <;> simp

namespace Interpreter

/-- The machine has decoded the instruction that the interpreter is at. -/
structure Mirrors (state : Interpreter) (machine : Machine) : Prop where
  memory : machine.memory.read = state.memory
  instruction : machine.instruction = state.ip
  base : machine.base = state.base
  modes : machine.modes = Opcode.modesOf (state.memory state.ip)

variable {state : Interpreter} {machine : Machine}

theorem Mirrors.code_eq (mirrors : state.Mirrors machine) :
    Opcode.numberOf (machine.memory.read machine.instruction) = state.code % 100 := by
  rw [mirrors.memory, mirrors.instruction]
  rfl

theorem Mirrors.digitAt (mirrors : state.Mirrors machine) (index : Nat) :
    Mode.digitAt machine.modes index = state.modeDigit (index + 1) := by
  rw [mirrors.modes, Opcode.digitAt_modesOf]
  rfl

theorem location_eq_point (address : Cell) : Machine.location address = point address := by
  unfold Machine.location point
  by_cases negative : address.toInt < 0
  · rw [if_pos negative, if_neg (by omega)]
  · rw [if_neg negative, if_pos (by omega)]

theorem Mirrors.address (mirrors : state.Mirrors machine) (index : Nat) :
    machine.address index = state.operand (index + 1) := by
  have cell : machine.slot index = state.ip + (index + 1) := by
    rw [Machine.slot, mirrors.instruction]
    omega
  unfold Machine.address Machine.mode operand
  simp only [mirrors.digitAt, mirrors.memory, mirrors.base, cell, location_eq_point, Cell.add?]
  generalize state.modeDigit (index + 1) = digit
  rcases digit with (_ | _ | _ | _) | _ <;> rfl

theorem Mirrors.value (mirrors : state.Mirrors machine) (index : Nat) :
    machine.value index = state.read (index + 1) := by
  unfold Machine.value read
  rw [mirrors.address, mirrors.memory]

theorem Mirrors.checkTarget (mirrors : state.Mirrors machine) (index : Nat) :
    machine.checkTarget index = state.writable (index + 1) := by
  unfold Machine.checkTarget Machine.mode writable
  rw [mirrors.digitAt]
  generalize state.modeDigit (index + 1) = digit
  rcases digit with (_ | _ | _ | _) | _ <;> rfl

theorem Mirrors.target (mirrors : state.Mirrors machine) (index : Nat) :
    machine.target index = (state.writable (index + 1) >>= fun _ => state.operand (index + 1)) := by
  unfold Machine.target
  rw [mirrors.checkTarget, mirrors.address]

/-- What an effect of the machine does to the interpreter. -/
def follow (state : Interpreter) : Effect → Except Fault (Option Interpreter)
  | .store address value =>
      .ok (some { state with
        memory := Function.update state.memory address value, ip := state.ip + 4 })
  | .jump target => .ok (some { state with ip := target })
  | .fallThrough => .ok (some { state with ip := state.ip + 3 })
  | .await => some <$> state.receive
  | .emit value =>
      .ok (some { state with output := state.output ++ [value], ip := state.ip + 2 })
  | .rebase base => .ok (some { state with base := base, ip := state.ip + 2 })
  | .halt => .ok none

theorem Mirrors.combine (mirrors : state.Mirrors machine) {operation : Cell → Cell → Option Cell}
    {exact : Int → Int → Int}
    (agree : ∀ left right, operation left right = Cell.ofInt? (exact left.toInt right.toInt)) :
    (machine.combine operation >>= state.follow) = some <$> state.compute exact := by
  unfold Machine.combine compute store
  rw [mirrors.value, mirrors.value, mirrors.target]
  simp only [agree]
  rcases state.read 1 with fault | left
  · rfl
  rcases state.read 2 with fault | right
  · rfl
  simp only [ok_bind]
  rcases Cell.ofInt? (exact left.toInt right.toInt) with _ | result
  · rfl
  rcases state.writable 3 with fault | _
  · rfl
  rcases state.operand 3 with fault | address <;> rfl

theorem Mirrors.jumpIf (mirrors : state.Mirrors machine) {taken : Cell → Bool} {exact : Int → Bool}
    (agree : ∀ condition, taken condition = exact condition.toInt) :
    (machine.jumpIf taken >>= state.follow) = some <$> state.jump exact := by
  unfold Machine.jumpIf jump
  rw [mirrors.value, mirrors.value]
  simp only [agree, location_eq_point]
  rcases state.read 1 with fault | condition
  · rfl
  rcases state.read 2 with fault | destination
  · rfl
  simp only [ok_bind]
  cases exact condition.toInt with
  | false => rfl
  | true => rcases point destination with fault | target <;> rfl

theorem Mirrors.perform (mirrors : state.Mirrors machine) {opcode : Opcode}
    (selected : state.code % 100 = opcode.number) :
    (machine.perform opcode >>= state.follow) = state.step := by
  unfold Interpreter.step
  rw [selected]
  cases opcode with
  | add => exact mirrors.combine fun _ _ => rfl
  | multiply => exact mirrors.combine fun _ _ => rfl
  | input =>
      change (machine.checkTarget 0 >>= _) >>= _ = some <$> (state.writable 1 >>= _)
      rw [mirrors.checkTarget]
      rcases state.writable 1 with fault | _ <;> rfl
  | output =>
      change (machine.value 0 >>= _) >>= _ = some <$> (state.read 1 >>= _)
      rw [mirrors.value]
      rcases state.read 1 with fault | value <;> rfl
  | jumpTrue =>
      apply mirrors.jumpIf
      intro condition
      simp [bne, ← Int64.toInt_inj]
  | jumpZero =>
      apply mirrors.jumpIf
      intro condition
      simp [← Int64.toInt_inj]
  | less =>
      rw [Machine.perform]
      apply mirrors.combine
      intro left right
      rw [← Cell.ofInt?_ofBool]
      simp only [decide_eq_true_eq, Int64.lt_iff_toInt_lt]
  | equal =>
      rw [Machine.perform]
      apply mirrors.combine
      intro left right
      rw [← Cell.ofInt?_ofBool]
      simp only [beq_iff_eq, ← Int64.toInt_inj]
  | rebase =>
      change (machine.value 0 >>= _) >>= _ = some <$> (state.read 1 >>= _)
      rw [mirrors.value]
      rcases state.read 1 with fault | value
      · rfl
      simp only [ok_bind, mirrors.base, Cell.add?]
      rcases Cell.ofInt? (state.base.toInt + value.toInt) with _ | base <;> rfl
  | halt => rfl

/-- The interpreter does what the machine's evaluation says. -/
theorem Mirrors.step (mirrors : state.Mirrors machine) :
    state.step = machine.evaluate >>= state.follow := by
  unfold Machine.evaluate
  dsimp only
  rw [mirrors.code_eq, mirrors.memory, mirrors.instruction]
  cases selected : Opcode.ofNumber? (state.code % 100) with
  | some opcode => exact (mirrors.perform (Opcode.ofNumber?_eq_some.mp selected).symm).symm
  | none =>
      unfold Opcode.ofNumber? at selected
      unfold Interpreter.step
      split at selected <;> simp_all

/-- The machine is about to decode the instruction that the interpreter is at. -/
structure Simulates (state : Interpreter) (machine : Machine) : Prop where
  memory : machine.memory.read = state.memory
  ip : machine.ip = state.ip
  base : machine.base = state.base

theorem Simulates.fetch (simulates : state.Simulates machine) : state.Mirrors machine.fetch where
  memory := simulates.memory
  instruction := simulates.ip
  base := simulates.base
  modes := by rw [Machine.fetch_modes, simulates.memory, simulates.ip]

variable {next : Machine}

/-- An instruction that does not pause the machine is one of the interpreter. -/
theorem Simulates.continues (simulates : state.Simulates machine) (continues : machine.Continues next) :
    ∃ following, state.Continues following ∧ following.Simulates next ∧
      following.input = state.input ∧ following.output = state.output := by
  obtain ⟨effect, evaluated, applied⟩ := Machine.step_eq_ok.mp continues
  have stepped := simulates.fetch.step
  rw [evaluated, ok_bind] at stepped
  cases effect with
  | store address value =>
      cases applied
      refine ⟨_, stepped, ⟨?_, ?_, simulates.base⟩, rfl, rfl⟩
      · rw [Memory.read_write_eq, Machine.fetch_memory, simulates.memory]
      · rw [Machine.fetch_instruction, simulates.ip]
  | jump target =>
      cases applied
      exact ⟨_, stepped, ⟨simulates.memory, rfl, simulates.base⟩, rfl, rfl⟩
  | fallThrough =>
      cases applied
      refine ⟨_, stepped, ⟨simulates.memory, ?_, simulates.base⟩, rfl, rfl⟩
      rw [Machine.fetch_instruction, simulates.ip]
  | rebase base =>
      cases applied
      refine ⟨_, stepped, ⟨simulates.memory, ?_, rfl⟩, rfl, rfl⟩
      rw [Machine.fetch_instruction, simulates.ip]
  | await | emit | halt => cases applied

/-- An output pauses the machine and not the interpreter. -/
theorem Simulates.output {value : Cell} (simulates : state.Simulates machine)
    (pauses : machine.Pauses next (.ok (.output value))) :
    ∃ following, state.Continues following ∧ following.Simulates next ∧
      following.input = state.input ∧ following.output = state.output ++ [value] := by
  obtain ⟨evaluated, rfl⟩ := Machine.pauses_output.mp pauses
  have stepped := simulates.fetch.step
  rw [evaluated, ok_bind] at stepped
  refine ⟨_, stepped, ⟨simulates.memory, ?_, simulates.base⟩, rfl, rfl⟩
  rw [simulates.ip]

theorem Simulates.halted (simulates : state.Simulates machine)
    (pauses : machine.Pauses next (.ok .halted)) : state.Stops (.ok state.output) := by
  obtain ⟨evaluated, _⟩ := Machine.pauses_halted.mp pauses
  have stepped := simulates.fetch.step
  rw [evaluated, ok_bind] at stepped
  exact ⟨stepped, rfl⟩

theorem Simulates.trap {trap : Trap} (simulates : state.Simulates machine)
    (pauses : machine.Pauses next (.error trap)) : state.Stops (.error trap) := by
  obtain ⟨evaluated, _, stopped⟩ := Machine.pauses_trap.mp pauses
  have stepped := simulates.fetch.step
  rw [evaluated, error_bind] at stepped
  exact ⟨stepped, by rw [stopped, simulates.ip]⟩

/-- The machine waits in the input instruction that the interpreter is at. -/
structure Awaits (state : Interpreter) (machine : Machine) : Prop extends state.Mirrors machine where
  status : machine.status = .awaitingInput
  code : state.code % 100 = 3
  writable : state.writable 1 = .ok ()

theorem Simulates.needInput (simulates : state.Simulates machine)
    (pauses : machine.Pauses next (.ok .needInput)) : state.Awaits next := by
  obtain ⟨evaluated, rfl⟩ := Machine.pauses_needInput.mp pauses
  obtain ⟨opcode, selected, rfl, checked⟩ := Machine.evaluate_grounds evaluated
  rw [simulates.fetch.code_eq] at selected
  rw [simulates.fetch.checkTarget] at checked
  exact { simulates.fetch with status := rfl, code := selected, writable := checked }

theorem Awaits.step (awaits : state.Awaits machine) : state.step = some <$> state.receive := by
  rw [Interpreter.step, awaits.code]
  change some <$> (state.writable 1 >>= fun _ => state.receive) = _
  rw [awaits.writable, ok_bind]

/-- The value that an awaiting machine is supplied with is not left over. -/
theorem Awaits.leftover (awaits : state.Awaits machine) : state.leftover = state.input.tail := by
  rw [Interpreter.leftover, awaits.code, awaits.writable]
  rfl

/-- No value is taken by an instruction that does not await one. -/
theorem Mirrors.leftover (mirrors : state.Mirrors machine)
    (other : machine.evaluate ≠ .ok .await) : state.leftover = state.input := by
  unfold Interpreter.leftover
  split
  next selected checked =>
    rw [← mirrors.code_eq] at selected
    rw [← mirrors.checkTarget] at checked
    exact absurd (Machine.evaluate_input selected checked) other
  next => rfl

theorem Awaits.target (awaits : state.Awaits machine) : machine.target 0 = state.operand 1 := by
  rw [awaits.toMirrors.target, awaits.writable, ok_bind]

theorem Awaits.missing (awaits : state.Awaits machine) (exhausted : state.input = []) :
    state.Stops (.error ⟨.missingInput, machine.instruction⟩) := by
  refine ⟨?_, awaits.instruction.symm⟩
  rw [awaits.step, receive, exhausted]
  rfl

variable {value : Cell} {rest : List Cell}

/-- The interpreter takes the value that the machine is supplied with. -/
theorem Awaits.receive (awaits : state.Awaits machine) (given : state.input = value :: rest) :
    state.step = some <$> (state.operand 1 >>= fun address =>
      .ok { state with
        input := rest
        memory := Function.update state.memory address value
        ip := state.ip + 2 }) := by
  rw [awaits.step, Interpreter.receive, given]
  rfl

/-- A value that is supplied completes the input instruction. -/
theorem Awaits.supplied (awaits : state.Awaits machine) (given : state.input = value :: rest)
    (stored : machine.supply value = (next, .ok ())) :
    ∃ following, state.Continues following ∧ following.Simulates next ∧
      following.input = rest ∧ following.output = state.output := by
  obtain ⟨address, located, rfl⟩ := Machine.supply_eq_ok.mp stored
  have stepped := awaits.receive given
  rw [← awaits.target, located, ok_bind] at stepped
  refine ⟨_, stepped, ⟨?_, ?_, awaits.base⟩, rfl, rfl⟩
  · rw [Memory.read_write_eq, awaits.memory]
  · rw [awaits.instruction]

theorem Awaits.unstored {trap : Trap} (awaits : state.Awaits machine)
    (given : state.input = value :: rest) (failed : machine.supply value = (next, .error trap)) :
    state.Stops (.error trap) := by
  obtain ⟨located, _, stopped⟩ := Machine.supply_eq_error.mp failed
  have stepped := awaits.receive given
  rw [← awaits.target, located, error_bind] at stepped
  exact ⟨stepped, by rw [stopped, awaits.instruction]⟩

end Interpreter

end Intcode
