/-
This file executes instructions cell by cell, with an instruction pointer that moves
past each cell as it is decoded and that is taken back when a fault is raised. The
pointer may be moved from addresses up to a limit only, and addresses have 64 bits.
-/

import Intcode.Proofs.Session

namespace Intcode.Cursor

open Machine

/-- Why an action ends early. -/
inductive Stop where
  | trap (trap : Trap)
  /-- The pointer was to be moved from an address above the limit. -/
  | overrun (ip : Nat)
  /-- An address does not have 64 bits. -/
  | tooWide (address : Cell)

/-- An action changes the machine even when it ends early. -/
abbrev Action (Result : Type) := ExceptT Stop (StateM Machine) Result

variable {Result : Type}

/-- Moves the pointer past one cell. -/
def next (limit : Nat) : Action Unit := do
  let machine ← get
  if machine.ip ≤ limit then
    set { machine with ip := machine.ip + 1 }
  else
    throw (.overrun machine.ip)

/-- Takes the pointer back to the instruction being executed. -/
def fault (cause : Fault) : Action Result := do
  let machine ← get
  set { machine with ip := machine.instruction }
  throw (.trap ⟨cause, machine.instruction⟩)

def location (address : Cell) : Action Nat := do
  if address.toInt < 0 then
    fault (.negativeAddress address)
  else if address.toInt < 2 ^ 64 then
    return address.toInt.toNat
  else
    throw (.tooWide address)

def mode (index : Nat) : Action Mode := do
  let digit := Mode.digitAt (← get).modes index
  match Mode.ofDigit? digit with
  | some mode => return mode
  | none => fault (.invalidMode digit)

/-- The address of a parameter. Its cell is the one at the pointer. -/
def address (limit index : Nat) : Action Nat := do
  let mode ← mode index
  let cell := (← get).ip
  next limit
  let machine ← get
  let raw := machine.memory.read cell
  match mode with
  | .position => location raw
  | .immediate => return cell
  | .relative =>
      match raw.add? machine.base with
      | some address => location address
      | none => fault .overflow

def value (limit index : Nat) : Action Cell := do
  let address ← address limit index
  return (← get).memory.read address

def checkTarget (index : Nat) : Action Unit := do
  match ← mode index with
  | .immediate => fault .immediateWrite
  | _ => return ()

def store (limit index : Nat) (value : Cell) : Action (Option Event) := do
  checkTarget index
  let address ← address limit index
  modify fun machine => { machine with memory := machine.memory.write address value }
  return none

def combine (limit : Nat) (operation : Cell → Cell → Option Cell) : Action (Option Event) := do
  let left ← value limit 0
  let right ← value limit 1
  match operation left right with
  | some result => store limit 2 result
  | none => fault .overflow

def jumpIf (limit : Nat) (taken : Cell → Bool) : Action (Option Event) := do
  let condition ← value limit 0
  let destination ← value limit 1
  if taken condition then
    let target ← location destination
    modify fun machine => { machine with ip := target }
  return none

def rebase (limit : Nat) : Action (Option Event) := do
  let offset ← value limit 0
  match (← get).base.add? offset with
  | some base =>
      modify fun machine => { machine with base := base }
      return none
  | none => fault .overflow

def perform (limit : Nat) : Opcode → Action (Option Event)
  | .add => combine limit Cell.add?
  | .multiply => combine limit Cell.multiply?
  | .input => do
      checkTarget 0
      modify fun machine => { machine with status := .awaitingInput }
      return some .needInput
  | .output => do return some (.output (← value limit 0))
  | .jumpTrue => jumpIf limit (· != 0)
  | .jumpZero => jumpIf limit (· == 0)
  | .less => combine limit fun left right => some (.ofBool (left < right))
  | .equal => combine limit fun left right => some (.ofBool (left == right))
  | .rebase => rebase limit
  | .halt => do
      modify fun machine => { machine with status := .halted }
      return some .halted

/-- Decodes and executes the instruction at the pointer. -/
def step (limit : Nat) : Action (Option Event) := do
  modify fun machine => { machine with instruction := machine.ip }
  let machine ← get
  let cell := machine.memory.read machine.ip
  set { machine with modes := Opcode.modesOf cell }
  next limit
  match Opcode.ofNumber? (Opcode.numberOf cell) with
  | some opcode => perform limit opcode
  | none => fault (.invalidOpcode cell)

/-- Completes the input instruction that the machine waits in. -/
def supply (limit : Nat) (value : Cell) : Action Unit := do
  modify fun machine => { machine with status := .running }
  let _ ← store limit 0 value
  return ()

/-- What an action gives on a machine, and the machine behind it. -/
def runOn (action : Action Result) (machine : Machine) : Except Stop Result × Machine :=
  (action.run.run machine).run

section Run

variable {Second : Type} (machine : Machine)

theorem runOn_bind (action : Action Result) (rest : Result → Action Second) :
    runOn (action >>= rest) machine =
      match runOn action machine with
      | (.ok value, next) => runOn (rest value) next
      | (.error stop, next) => (.error stop, next) := by
  unfold runOn
  simp only [ExceptT.run_bind, StateT.run_bind]
  rcases action.run.run machine with ⟨stop | value, next⟩ <;> rfl

@[simp] theorem runOn_get : runOn get machine = (.ok machine, machine) := rfl

@[simp] theorem runOn_set (next : Machine) : runOn (set next) machine = (.ok ⟨⟩, next) := rfl

@[simp] theorem runOn_modify (change : Machine → Machine) :
    runOn (modify change) machine = (.ok ⟨⟩, change machine) := rfl

end Run

/-- What is left of an evaluation: the pointer is at `ip` if it succeeds, and is taken back to the
instruction if it fails. Nothing else has changed. -/
def settle (machine : Machine) (ip : Nat) : Except Fault Result → Except Stop Result × Machine
  | .ok value => (.ok value, { machine with ip := ip })
  | .error fault => (.error (.trap ⟨fault, machine.instruction⟩), { machine with ip := machine.instruction })

variable {machine : Machine} {ip limit index : Nat}

theorem runOn_location (address : Cell) :
    runOn (location address) machine = settle machine machine.ip (Machine.location address) := by
  have narrow := address.toInt_lt
  unfold location Machine.location
  split
  · rfl
  · rw [if_pos (by omega)]
    rfl

theorem runOn_mode (index : Nat) :
    runOn (mode index) machine = settle machine machine.ip (machine.mode index) := by
  unfold mode Machine.mode
  rw [runOn_bind, runOn_get]
  dsimp only
  rcases Mode.ofDigit? (Mode.digitAt machine.modes index) with _ | mode <;> rfl

/-- The pointer that an evaluation starts with has no part in what is left of it. -/
theorem settle_moved (machine : Machine) (begun ip : Nat) (evaluation : Except Fault Result) :
    settle { machine with ip := begun } ip evaluation = settle machine ip evaluation := by
  cases evaluation <;> rfl

/-- Actions follow one another as evaluations do. -/
theorem runOn_bind_settle {Second : Type} {action : Action Result} {rest : Result → Action Second}
    {first : Except Fault Result} {second : Result → Except Fault Second} {middle : Nat}
    (before : runOn action machine = settle machine middle first)
    (after : ∀ value, runOn (rest value) { machine with ip := middle } = settle machine ip (second value)) :
    runOn (action >>= rest) machine = settle machine ip (first >>= second) := by
  rw [runOn_bind, before]
  cases first with
  | ok value => exact after value
  | error fault => rfl

theorem runOn_next (room : machine.ip ≤ limit) :
    runOn (next limit) machine = (.ok (), { machine with ip := machine.ip + 1 }) := by
  unfold next
  rw [runOn_bind, runOn_get]
  dsimp only
  rw [if_pos room]
  rfl

theorem runOn_address (cell : machine.ip = machine.slot index) (room : machine.ip ≤ limit) :
    runOn (address limit index) machine = settle machine (machine.ip + 1) (machine.address index) := by
  apply runOn_bind_settle (runOn_mode index)
  intro mode
  rw [runOn_bind, runOn_get]
  dsimp only
  rw [runOn_bind, runOn_next room]
  dsimp only
  rw [runOn_bind, runOn_get, ← cell]
  dsimp only
  cases mode with
  | position =>
      rw [runOn_location]
      exact settle_moved ..
  | immediate => rfl
  | relative =>
      dsimp only
      rcases (machine.memory.read machine.ip).add? machine.base with _ | address
      · rfl
      · rw [runOn_location]
        exact settle_moved ..

theorem runOn_value (cell : machine.ip = machine.slot index) (room : machine.ip ≤ limit) :
    runOn (value limit index) machine = settle machine (machine.ip + 1) (machine.value index) := by
  apply runOn_bind_settle (runOn_address cell room)
  intro address
  rfl

theorem runOn_checkTarget (index : Nat) :
    runOn (checkTarget index) machine = settle machine machine.ip (machine.checkTarget index) := by
  apply runOn_bind_settle (runOn_mode index)
  intro mode
  cases mode <;> rfl

theorem runOn_target (cell : machine.ip = machine.slot index) (room : machine.ip ≤ limit) :
    runOn (do checkTarget index; address limit index) machine =
      settle machine (machine.ip + 1) (machine.target index) := by
  apply runOn_bind_settle (runOn_checkTarget index)
  intro _
  exact runOn_address cell room

/-- What is left of an instruction: its effect, or the machine that was taken back to it. -/
def conclude (machine : Machine) : Except Fault Effect → Except Stop (Option Event) × Machine
  | .ok effect => (.ok (machine.apply effect).2, (machine.apply effect).1)
  | .error fault => (.error (.trap ⟨fault, machine.instruction⟩), { machine with ip := machine.instruction })

theorem conclude_moved (machine : Machine) (begun : Nat) (evaluation : Except Fault Effect) :
    conclude { machine with ip := begun } evaluation = conclude machine evaluation := by
  rcases evaluation with fault | effect
  · rfl
  · cases effect <;> rfl

/-- An instruction goes on behind a parameter as its evaluation does. -/
theorem runOn_bind_conclude {action : Action Result} {rest : Result → Action (Option Event)}
    {first : Except Fault Result} {second : Result → Except Fault Effect}
    (before : runOn action machine = settle machine ip first)
    (after : ∀ value, runOn (rest value) { machine with ip := ip } =
      conclude { machine with ip := ip } (second value)) :
    runOn (action >>= rest) machine = conclude machine (first >>= second) := by
  rw [runOn_bind, before]
  cases first with
  | ok value => exact (after value).trans (conclude_moved machine ip (second value))
  | error fault => rfl

theorem runOn_store {value : Cell} (cell : machine.ip = machine.slot index) (room : machine.ip ≤ limit) :
    runOn (store limit index value) machine =
      match machine.target index with
      | .ok address =>
          (.ok none, { machine with
            memory := machine.memory.write address value, ip := machine.ip + 1 })
      | .error fault =>
          (.error (.trap ⟨fault, machine.instruction⟩), { machine with ip := machine.instruction }) := by
  have grouped : store limit index value = (do checkTarget index; address limit index) >>= fun address => do
      modify fun machine => { machine with memory := machine.memory.write address value }
      return none := by
    simp only [store, bind_assoc]
  rw [grouped, runOn_bind, runOn_target cell room]
  rcases machine.target index with fault | address <;> rfl

section Perform

variable (cell : machine.ip = machine.instruction + 1) (room : machine.instruction + 3 ≤ limit)

include cell room

theorem runOn_combine (operation : Cell → Cell → Option Cell) :
    runOn (combine limit operation) machine = conclude machine (machine.combine operation) := by
  refine runOn_bind_conclude (runOn_value cell (by omega)) fun left => ?_
  refine runOn_bind_conclude (runOn_value (congrArg (· + 1) cell) (by dsimp only; omega)) fun right => ?_
  dsimp only
  rcases operation left right with _ | result
  · rfl
  · rw [runOn_store (congrArg (· + 2) cell) (by dsimp only; omega), cell]
    change (match machine.target 2 with | .ok _ => _ | .error _ => _) =
      conclude _ (machine.target 2 >>= _)
    rcases machine.target 2 with fault | address <;> rfl

theorem runOn_jumpIf (taken : Cell → Bool) :
    runOn (jumpIf limit taken) machine = conclude machine (machine.jumpIf taken) := by
  refine runOn_bind_conclude (runOn_value cell (by omega)) fun condition => ?_
  refine runOn_bind_conclude (runOn_value (congrArg (· + 1) cell) (by dsimp only; omega))
    fun destination => ?_
  dsimp only
  rw [cell]
  cases taken condition with
  | false => rfl
  | true =>
      simp only [if_true]
      rw [runOn_bind, runOn_location]
      rcases Machine.location destination with fault | target <;> rfl

theorem runOn_rebase : runOn (rebase limit) machine = conclude machine (machine.perform .rebase) := by
  refine runOn_bind_conclude (runOn_value cell (by omega)) fun offset => ?_
  rw [runOn_bind, runOn_get, cell]
  dsimp only
  rcases machine.base.add? offset with _ | base <;> rfl

theorem runOn_perform (opcode : Opcode) :
    runOn (perform limit opcode) machine = conclude machine (machine.perform opcode) := by
  cases opcode with
  | add | multiply | less | equal =>
      rw [perform, Machine.perform]
      exact runOn_combine cell room _
  | jumpTrue | jumpZero => exact runOn_jumpIf cell room _
  | input =>
      refine runOn_bind_conclude (runOn_checkTarget 0) fun _ => ?_
      rw [cell]
      rfl
  | output =>
      refine runOn_bind_conclude (runOn_value cell (by omega)) fun value => ?_
      rw [cell]
      rfl
  | rebase => exact runOn_rebase cell room
  | halt =>
      change _ = (Except.ok (some Event.halted), { machine with ip := machine.instruction + 1, status := .halted })
      rw [← cell]
      rfl

end Perform

/-- The result of an instruction, as an action gives it. -/
def outcome : Machine × Except Trap Result → Except Stop Result × Machine
  | (next, .ok result) => (.ok result, next)
  | (next, .error trap) => (.error (.trap trap), next)

theorem outcome_step (machine : Machine) :
    outcome machine.step = conclude machine.fetch machine.fetch.evaluate := by
  unfold Machine.step
  rcases machine.fetch.evaluate with fault | effect <;> rfl

/-- Executing an instruction cell by cell comes to the same as evaluating it as a whole. The
pointer moves on past the first cell only if that cell selects an operation. -/
theorem runOn_step (reach : machine.ip ≤ limit)
    (room : ∀ opcode, Opcode.ofNumber? (Opcode.numberOf (machine.memory.read machine.ip)) = some opcode →
      machine.ip + 3 ≤ limit) :
    runOn (step limit) machine = outcome machine.step := by
  have decoded : runOn (step limit) machine =
      runOn (match Opcode.ofNumber? (Opcode.numberOf (machine.memory.read machine.ip)) with
        | some opcode => perform limit opcode
        | none => fault (.invalidOpcode (machine.memory.read machine.ip)))
        { machine.fetch with ip := machine.ip + 1 } := by
    unfold step
    simp only [runOn_bind, runOn_modify, runOn_get, runOn_set]
    rw [runOn_next]
    · rfl
    · exact reach
  rw [decoded, outcome_step, Machine.evaluate]
  dsimp only [fetch_memory, fetch_instruction]
  rcases selected : Opcode.ofNumber? (Opcode.numberOf (machine.memory.read machine.ip)) with _ | opcode
  · rfl
  · exact (runOn_perform rfl (room opcode selected) opcode).trans (conclude_moved machine.fetch _ _)

/-- Storing a supplied value cell by cell comes to the same as storing it as a whole. -/
theorem runOn_supply (value : Cell) (cell : machine.ip = machine.instruction + 1)
    (room : machine.ip ≤ limit) :
    runOn (supply limit value) machine = outcome (machine.supply value) := by
  unfold supply Machine.supply
  rw [runOn_bind, runOn_modify]
  dsimp only
  rw [runOn_bind, runOn_store, target_running]
  · dsimp only
    rw [cell]
    rcases machine.target 0 with fault | address <;> rfl
  · exact cell
  · exact room

end Intcode.Cursor
