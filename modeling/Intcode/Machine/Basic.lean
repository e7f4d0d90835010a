/-
This file defines the machine and what it reports.
-/

import Intcode.Fault
import Intcode.Memory

namespace Intcode

inductive Status where
  | ready
  | running
  | awaitingInput
  | halted
deriving DecidableEq

/-- What a machine reports when it pauses. -/
inductive Event where
  | needInput
  | output (value : Cell)
  | halted
deriving DecidableEq

structure Machine where
  memory : Memory
  /-- The address of the next cell to decode. -/
  ip : Nat
  /-- The relative base. -/
  base : Cell
  status : Status
  /-- The address of the instruction decoded last. -/
  instruction : Nat
  /-- The mode digits of the instruction decoded last. -/
  modes : Int
deriving DecidableEq

/-- A machine with a program loaded, before its first instruction. -/
def Machine.load (program : Program) : Machine :=
  { memory := .load program, ip := 0, base := 0, status := .ready, instruction := 0, modes := 0 }

end Intcode
