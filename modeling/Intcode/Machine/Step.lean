/-
This file executes single instructions. An instruction is evaluated first, which
leaves the machine as it is, and takes effect only if it raises no fault.
-/

import Intcode.Machine.Basic
import Intcode.Mode

namespace Intcode

/-- What an instruction does to the machine. -/
inductive Effect where
  | store (address : Nat) (value : Cell)
  | jump (target : Nat)
  /-- Goes on behind a jump that is not taken. -/
  | fallThrough
  | await
  | emit (value : Cell)
  | rebase (base : Cell)
  | halt
deriving DecidableEq

namespace Machine

/-- The mode of the parameter at `index`, counted from zero. -/
def mode (machine : Machine) (index : Nat) : Except Fault Mode :=
  match Mode.ofDigit? (Mode.digitAt machine.modes index) with
  | some mode => .ok mode
  | none => .error (.invalidMode (Mode.digitAt machine.modes index))

/-- The address that a cell denotes. -/
def location (address : Cell) : Except Fault Nat :=
  if address.toInt < 0 then .error (.negativeAddress address) else .ok address.toInt.toNat

/-- The address of the cell that holds the parameter at `index`. -/
def slot (machine : Machine) (index : Nat) : Nat :=
  machine.instruction + 1 + index

/-- The address that the parameter at `index` refers to. -/
def address (machine : Machine) (index : Nat) : Except Fault Nat := do
  match ← machine.mode index with
  | .position => location (machine.memory.read (machine.slot index))
  | .immediate => .ok (machine.slot index)
  | .relative =>
      match (machine.memory.read (machine.slot index)).add? machine.base with
      | some address => location address
      | none => .error .overflow

/-- The value of the parameter at `index`. -/
def value (machine : Machine) (index : Nat) : Except Fault Cell := do
  return machine.memory.read (← machine.address index)

/-- Refuses a parameter that can not be written through. -/
def checkTarget (machine : Machine) (index : Nat) : Except Fault Unit := do
  match ← machine.mode index with
  | .immediate => .error .immediateWrite
  | _ => .ok ()

/-- The address that the parameter at `index` writes to. -/
def target (machine : Machine) (index : Nat) : Except Fault Nat := do
  machine.checkTarget index
  machine.address index

/-- Stores the result of an operation on the first two parameters through the third.
The result is known to fit before the third is looked at. -/
def combine (machine : Machine) (operation : Cell → Cell → Option Cell) : Except Fault Effect := do
  let left ← machine.value 0
  let right ← machine.value 1
  match operation left right with
  | some result => return .store (← machine.target 2) result
  | none => .error .overflow

/-- Jumps to the second parameter if the first meets a condition. -/
def jumpIf (machine : Machine) (taken : Cell → Bool) : Except Fault Effect := do
  let condition ← machine.value 0
  let destination ← machine.value 1
  if taken condition then
    return .jump (← location destination)
  else
    return .fallThrough

/-- The effect of an operation whose parameters follow the instruction decoded last. -/
def perform (machine : Machine) : Opcode → Except Fault Effect
  | .add => machine.combine Cell.add?
  | .multiply => machine.combine Cell.multiply?
  | .input => do
      machine.checkTarget 0
      return .await
  | .output => do return .emit (← machine.value 0)
  | .jumpTrue => machine.jumpIf (· != 0)
  | .jumpZero => machine.jumpIf (· == 0)
  | .less => machine.combine fun left right => some (.ofBool (left < right))
  | .equal => machine.combine fun left right => some (.ofBool (left == right))
  | .rebase => do
      match machine.base.add? (← machine.value 0) with
      | some base => return .rebase base
      | none => .error .overflow
  | .halt => .ok .halt

/-- The effect of the instruction decoded last. -/
def evaluate (machine : Machine) : Except Fault Effect :=
  let cell := machine.memory.read machine.instruction
  match Opcode.ofNumber? (Opcode.numberOf cell) with
  | some opcode => machine.perform opcode
  | none => .error (.invalidOpcode cell)

/-- Lets an effect happen and moves past its instruction. -/
def apply (machine : Machine) : Effect → Machine × Option Event
  | .store address value =>
      ({ machine with
          memory := machine.memory.write address value, ip := machine.instruction + 4 }, none)
  | .jump target => ({ machine with ip := target }, none)
  | .fallThrough => ({ machine with ip := machine.instruction + 3 }, none)
  | .await =>
      ({ machine with ip := machine.instruction + 1, status := .awaitingInput }, some .needInput)
  | .emit value => ({ machine with ip := machine.instruction + 2 }, some (.output value))
  | .rebase base => ({ machine with ip := machine.instruction + 2, base := base }, none)
  | .halt => ({ machine with ip := machine.instruction + 1, status := .halted }, some .halted)

/-- Stops at the instruction decoded last, which can then be tried again. -/
def fail {Result : Type} (machine : Machine) (fault : Fault) : Machine × Except Trap Result :=
  ({ machine with ip := machine.instruction }, .error ⟨fault, machine.instruction⟩)

/-- Decodes the instruction at `ip`. -/
def fetch (machine : Machine) : Machine :=
  { machine with
    instruction := machine.ip, modes := Opcode.modesOf (machine.memory.read machine.ip) }

/-- Executes one instruction. The event is there if the machine pauses. -/
def step (machine : Machine) : Machine × Except Trap (Option Event) :=
  match machine.fetch.evaluate with
  | .ok effect =>
      let (next, event) := machine.fetch.apply effect
      (next, .ok event)
  | .error fault => machine.fetch.fail fault

end Machine

end Intcode
