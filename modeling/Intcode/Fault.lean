/-
This file defines what can go wrong while a program runs, and its wording.
-/

import Intcode.Opcode

namespace Intcode

inductive Fault where
  /-- The low two digits of the cell select no operation. -/
  | invalidOpcode (cell : Cell)
  | invalidMode (digit : Int)
  /-- An address or a jump target is below zero. -/
  | negativeAddress (address : Cell)
  | immediateWrite
  | overflow
  | resumeAfterHalt
  /-- A value was supplied to a machine that did not ask for one. -/
  | unexpectedInput (value : Cell)
  /-- A machine asked for a value when none was left. -/
  | missingInput
deriving DecidableEq

namespace Fault

def topic : Fault → String
  | invalidOpcode _ => "Opcode"
  | invalidMode _ => "Mode"
  | negativeAddress _ => "Address"
  | immediateWrite => "Write"
  | overflow => "Overflow"
  | resumeAfterHalt => "Resume"
  | unexpectedInput _ => "Input"
  | missingInput => "Input"

def message : Fault → String
  | invalidOpcode cell =>
      "invalid opcode " ++ toString (Opcode.numberOf cell) ++ " in cell " ++ cell.render
  | invalidMode digit => "invalid parameter mode " ++ toString digit
  | negativeAddress address => "negative address " ++ address.render
  | immediateWrite => "immediate mode used as a write target"
  | overflow => "integer overflow"
  | resumeAfterHalt => "the machine has already halted"
  | unexpectedInput value => "input " ++ value.render ++ " was supplied, but none was requested"
  | missingInput => "input was requested, but none remains"

end Fault

/-- A fault and the address of the instruction that it stopped. -/
structure Trap where
  fault : Fault
  address : Nat
deriving DecidableEq

def Trap.message (trap : Trap) : String :=
  "Runtime " ++ trap.fault.topic ++ " Error: " ++ trap.fault.message ++ ", at ip " ++
    toString trap.address

end Intcode
