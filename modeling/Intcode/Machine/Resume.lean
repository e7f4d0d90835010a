/-
This file runs machines from one pause to the next. A run has a budget of instructions,
and `none` stands for a run that is not over when the budget is spent.
-/

import Intcode.Machine.Step

namespace Intcode.Machine

/-- Executes instructions until one pauses the machine or raises a fault. -/
def advance : Nat → Machine → Option (Machine × Except Trap Event)
  | 0, _ => none
  | budget + 1, machine =>
      match machine.step with
      | (next, .error trap) => some (next, .error trap)
      | (next, .ok (some event)) => some (next, .ok event)
      | (next, .ok none) => advance budget next

/-- Completes the input instruction that the machine waits in. -/
def supply (machine : Machine) (value : Cell) : Machine × Except Trap Unit :=
  let running := { machine with status := .running }
  match running.target 0 with
  | .ok address =>
      ({ running with
          memory := running.memory.write address value, ip := running.instruction + 2 }, .ok ())
  | .error fault => running.fail fault

/-- Runs the machine until it needs input, produces output or halts.
A machine that waits for input goes on only with a value, any other only without one,
and a halted machine never. -/
def resume (budget : Nat) (machine : Machine) (input : Option Cell) :
    Option (Machine × Except Trap Event) :=
  match machine.status, input with
  | .halted, _ => some (machine, .error ⟨.resumeAfterHalt, machine.instruction⟩)
  | .awaitingInput, none => some (machine, .ok .needInput)
  | .awaitingInput, some value =>
      match machine.supply value with
      | (next, .ok ()) => advance budget next
      | (next, .error trap) => some (next, .error trap)
  | _, some value => some (machine, .error ⟨.unexpectedInput value, machine.ip⟩)
  | _, none => advance budget { machine with status := .running }

end Intcode.Machine
