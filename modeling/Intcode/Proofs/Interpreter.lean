/-
This file defines an interpreter that never pauses. Its memory is a function of
addresses, it has its whole input from the start, and it keeps its own output.
-/

import Intcode.Fault
import Intcode.Program.Basic
import Mathlib.Logic.Function.Basic
import Mathlib.Logic.Relation
import Mathlib.Tactic

namespace Intcode

structure Interpreter where
  memory : Nat → Cell
  /-- The address of the current instruction. -/
  ip : Nat
  /-- The relative base. -/
  base : Cell
  /-- The values that no instruction has taken yet. -/
  input : List Cell
  output : List Cell

namespace Interpreter

def load (program : Program) (input : List Cell) : Interpreter :=
  { memory := fun address => program.getD address 0, ip := 0, base := 0, input := input, output := [] }

/-- The integer in the first cell of the current instruction. -/
def code (state : Interpreter) : Int :=
  (state.memory state.ip).toInt

/-- The mode digit of a parameter. The first parameter has position one. -/
def modeDigit (state : Interpreter) (position : Nat) : Int :=
  state.code / 10 ^ (position + 1) % 10

/-- Only integers from zero on are addresses. -/
def point (address : Cell) : Except Fault Nat :=
  if 0 ≤ address.toInt then .ok address.toInt.toNat else .error (.negativeAddress address)

/-- The address that a parameter refers to. -/
def operand (state : Interpreter) (position : Nat) : Except Fault Nat :=
  match state.modeDigit position with
  | 0 => point (state.memory (state.ip + position))
  | 1 => .ok (state.ip + position)
  | 2 =>
      match Cell.ofInt? ((state.memory (state.ip + position)).toInt + state.base.toInt) with
      | some address => point address
      | none => .error .overflow
  | digit => .error (.invalidMode digit)

def read (state : Interpreter) (position : Nat) : Except Fault Cell := do
  return state.memory (← state.operand position)

/-- A parameter is written through only if its mode is not immediate. -/
def writable (state : Interpreter) (position : Nat) : Except Fault Unit :=
  match state.modeDigit position with
  | 0 | 2 => .ok ()
  | 1 => .error .immediateWrite
  | digit => .error (.invalidMode digit)

/-- Stores a value through the last parameter of the current instruction and goes to the next. -/
def store (state : Interpreter) (position : Nat) (value : Cell) : Except Fault Interpreter := do
  let address ← state.operand position
  return { state with
    memory := Function.update state.memory address value, ip := state.ip + position + 1 }

/-- Stores an integer that two others give, if a cell can hold it. -/
def compute (state : Interpreter) (operation : Int → Int → Int) : Except Fault Interpreter := do
  let left ← state.read 1
  let right ← state.read 2
  match Cell.ofInt? (operation left.toInt right.toInt) with
  | some result =>
      state.writable 3
      state.store 3 result
  | none => .error .overflow

def jump (state : Interpreter) (taken : Int → Bool) : Except Fault Interpreter := do
  let condition ← state.read 1
  let destination ← state.read 2
  if taken condition.toInt then
    return { state with ip := ← point destination }
  else
    return { state with ip := state.ip + 3 }

/-- Takes the next value of the input and stores it. -/
def receive (state : Interpreter) : Except Fault Interpreter :=
  match state.input with
  | [] => .error .missingInput
  | value :: rest => store { state with input := rest } 1 value

/-- The mode of the parameter is checked before a value is taken, its address only then. -/
def take (state : Interpreter) : Except Fault Interpreter := do
  state.writable 1
  state.receive

def emit (state : Interpreter) : Except Fault Interpreter := do
  let value ← state.read 1
  return { state with output := state.output ++ [value], ip := state.ip + 2 }

def rebase (state : Interpreter) : Except Fault Interpreter := do
  let offset ← state.read 1
  match Cell.ofInt? (state.base.toInt + offset.toInt) with
  | some base => return { state with base := base, ip := state.ip + 2 }
  | none => .error .overflow

/-- Executes the current instruction. There is no next state after a halt. -/
def step (state : Interpreter) : Except Fault (Option Interpreter) :=
  match state.code % 100 with
  | 1 => some <$> state.compute (· + ·)
  | 2 => some <$> state.compute (· * ·)
  | 3 => some <$> state.take
  | 4 => some <$> state.emit
  | 5 => some <$> state.jump (· != 0)
  | 6 => some <$> state.jump (· == 0)
  | 7 => some <$> state.compute fun left right => if left < right then 1 else 0
  | 8 => some <$> state.compute fun left right => if left = right then 1 else 0
  | 9 => some <$> state.rebase
  | 99 => .ok none
  | _ => .error (.invalidOpcode (state.memory state.ip))

/-- Only a halt has no next state and raises no fault. -/
theorem step_eq_none {state : Interpreter} : state.step = .ok none ↔ state.code % 100 = 99 := by
  have never : ∀ next : Except Fault Interpreter, some <$> next ≠ .ok none := by
    rintro (fault | next) <;> exact fun same => nomatch same
  unfold step
  split
  all_goals simp_all

/-- One instruction leads from a state to the next. -/
def Continues (state next : Interpreter) : Prop :=
  state.step = .ok (some next)

abbrev Executes : Interpreter → Interpreter → Prop :=
  Relation.ReflTransGen Continues

/-- The current instruction is the last one, and this is how the program ends. -/
def Stops (state : Interpreter) : Except Trap (List Cell) → Prop
  | .ok output => state.step = .ok none ∧ state.output = output
  | .error trap => state.step = .error trap.fault ∧ state.ip = trap.address

/-- The values that are left over at the end. An input instruction that can not store its value
has taken it all the same. -/
def leftover (state : Interpreter) : List Cell :=
  match state.code % 100, state.writable 1 with
  | 3, .ok () => state.input.tail
  | _, _ => state.input

/-- The program ends with a result. -/
def Ends (program : Program) (input : List Cell) (result : Except Trap (List Cell)) : Prop :=
  ∃ last, (load program input).Executes last ∧ last.Stops result

/-- The program never ends. -/
def Diverges (program : Program) (input : List Cell) : Prop :=
  ∃ states : Nat → Interpreter, states 0 = load program input ∧
    ∀ count, (states count).Continues (states (count + 1))

theorem stops_or_continues (state : Interpreter) :
    (∃ result, state.Stops result) ∨ ∃ next, state.Continues next := by
  rcases stepped : state.step with fault | none | next
  · exact .inl ⟨.error ⟨fault, state.ip⟩, stepped, rfl⟩
  · exact .inl ⟨.ok state.output, stepped, rfl⟩
  · exact .inr ⟨next, stepped⟩

theorem Stops.not_continues {state next : Interpreter} {result : Except Trap (List Cell)}
    (stops : state.Stops result) : ¬ state.Continues next := by
  intro continues
  rw [Continues] at continues
  cases result <;> simp [Stops, continues] at stops

theorem Stops.unique {state : Interpreter} {first second : Except Trap (List Cell)}
    (one : state.Stops first) (other : state.Stops second) : first = second := by
  rcases first with ⟨fault, address⟩ | output <;> rcases second with ⟨fault', address'⟩ | output'
  · obtain ⟨stepped, rfl⟩ := one
    obtain ⟨stepped', rfl⟩ := other
    rw [stepped] at stepped'
    cases stepped'
    rfl
  · exact nomatch one.1.symm.trans other.1
  · exact nomatch one.1.symm.trans other.1
  · rw [← one.2, ← other.2]

theorem Continues.unique {state first second : Interpreter} (one : state.Continues first)
    (other : state.Continues second) : first = second := by
  rw [Continues, one] at other
  cases other
  rfl

/-- An endless sequence of states passes through every state that is executed. -/
theorem Executes.visited {states : Nat → Interpreter} {last : Interpreter}
    (continues : ∀ count, (states count).Continues (states (count + 1)))
    (executes : (states 0).Executes last) : ∃ count, states count = last := by
  induction executes with
  | refl => exact ⟨0, rfl⟩
  | tail _ stepped inductionHypothesis =>
      obtain ⟨count, rfl⟩ := inductionHypothesis
      exact ⟨count + 1, (continues count).unique stepped⟩

/-- A program diverges if it has no end. -/
theorem diverges_iff (program : Program) (input : List Cell) :
    Diverges program input ↔ ∀ result, ¬ Ends program input result := by
  constructor
  · intro diverges result ends
    obtain ⟨states, begins, continues⟩ := diverges
    obtain ⟨last, executes, stops⟩ := ends
    rw [← begins] at executes
    obtain ⟨count, rfl⟩ := executes.visited continues
    exact stops.not_continues (continues count)
  · intro endless
    have onward : ∀ state, (load program input).Executes state → ∃ next, state.Continues next := by
      intro state executes
      rcases state.stops_or_continues with ⟨result, stops⟩ | onward
      · exact absurd ⟨state, executes, stops⟩ (endless result)
      · exact onward
    have : Nonempty Interpreter := ⟨load program input⟩
    choose! follow follows using onward
    have executes : ∀ count, (load program input).Executes (follow^[count] (load program input)) := by
      intro count
      induction count with
      | zero => exact .refl
      | succ count inductionHypothesis =>
          rw [Function.iterate_succ_apply']
          exact inductionHypothesis.tail (follows _ inductionHypothesis)
    refine ⟨fun count => follow^[count] (load program input), rfl, fun count => ?_⟩
    dsimp only
    rw [Function.iterate_succ_apply']
    exact follows _ (executes count)

end Interpreter

end Intcode
