/-
This file holds dialogues, in which a machine is given values for as long as it asks for them.
-/

import Intcode.Feed
import Intcode.Machine.Resume

namespace Intcode

/-- Why a dialogue ends before the machine halts. -/
inductive Breakdown where
  | trap (cause : Trap)
  | shortage (cause : Shortage)
deriving DecidableEq

def Breakdown.message : Breakdown → String
  | .trap cause => cause.message
  | .shortage cause => cause.message

/-- Runs a machine to completion. Every output is handed to `emit`, and `ask` gives values when
no queued ones are left. What comes back is why the dialogue broke down, if it did, and the machine
at the end. The budget bounds the pauses, and the instructions from one to the next. -/
@[specialize]
def Machine.drive {Action : Type → Type} [Monad Action] (emit : Cell → Action Unit)
    (ask : Action (Except Shortage Cell)) :
    Nat → Machine → Option Cell → List Cell → Action (Option (Option Breakdown × Machine))
  | 0, _, _, _ => return none
  | budget + 1, machine, supplied, queue =>
      match machine.resume (budget + 1) supplied with
      | none => return none
      | some (next, .error trap) => return some (some (.trap trap), next)
      | some (next, .ok .halted) => return some (none, next)
      | some (next, .ok (.output value)) => do
          emit value
          next.drive emit ask budget none queue
      | some (next, .ok .needInput) =>
          match queue with
          | value :: rest => next.drive emit ask budget (some value) rest
          | [] => do
              match ← ask with
              | .ok value => next.drive emit ask budget (some value) []
              | .error shortage => return some (some (.shortage shortage), next)

/-- What a dialogue can still be given, and what it has put out so far. -/
structure Transcript where
  feed : Feed
  /-- The last output comes first. -/
  spoken : List Cell

namespace Transcript

def emit (value : Cell) : StateM Transcript Unit :=
  modify fun transcript => { transcript with spoken := value :: transcript.spoken }

def ask : StateM Transcript (Except Shortage Cell) := do
  match (← get).feed.next with
  | .ok (value, left) =>
      modify fun transcript => { transcript with feed := left }
      return .ok value
  | .error shortage => return .error shortage

end Transcript

/-- Runs a machine to completion on a transcript. -/
def Machine.transcribe (budget : Nat) (machine : Machine) (supplied : Option Cell)
    (queue : List Cell) : StateM Transcript (Option (Option Breakdown × Machine)) :=
  machine.drive Transcript.emit Transcript.ask budget supplied queue

/-- How a dialogue went. -/
structure Dialogue where
  outputs : List Cell
  breakdown : Option Breakdown
  /-- The machine at the end. -/
  machine : Machine

/-- Runs a machine to completion. Queued values are given before those of the feed. -/
def Machine.converse (budget : Nat) (machine : Machine) (supplied : Option Cell)
    (queue : List Cell) (feed : Feed) : Option Dialogue :=
  let (ending, transcript) :=
    (machine.transcribe budget supplied queue).run { feed := feed, spoken := [] }
  ending.map fun (breakdown, machine) =>
    { outputs := transcript.spoken.reverse, breakdown := breakdown, machine := machine }

/-- Runs a program to completion. -/
def converse (budget : Nat) (program : Program) (queue : List Cell) (feed : Feed) :
    Option Dialogue :=
  (Machine.load program).converse budget none queue feed

end Intcode
