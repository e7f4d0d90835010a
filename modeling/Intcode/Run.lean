/-
This file runs programs to completion on a list of values.
-/

import Intcode.Machine.Resume

namespace Intcode

/-- Runs a machine to completion. It answers each request with the next value and collects
the output. The budget bounds the pauses, and the instructions from one to the next. -/
def Machine.complete : Nat → Machine → Option Cell → List Cell → Option (Except Trap (List Cell))
  | 0, _, _, _ => none
  | budget + 1, machine, supplied, values =>
      match machine.resume (budget + 1) supplied with
      | none => none
      | some (_, .error trap) => some (.error trap)
      | some (_, .ok .halted) => some (.ok [])
      | some (next, .ok (.output value)) =>
          (next.complete budget none values).map (·.map (value :: ·))
      | some (next, .ok .needInput) =>
          match values with
          | [] => some (.error ⟨.missingInput, next.instruction⟩)
          | value :: rest => next.complete budget (some value) rest

/-- Runs a program to completion. -/
def run (budget : Nat) (program : Program) (values : List Cell) :
    Option (Except Trap (List Cell)) :=
  (Machine.load program).complete budget none values

end Intcode
