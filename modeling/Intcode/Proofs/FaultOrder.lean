/-
This file says what one instruction does, in integers without a range. Everything that
can stop it is checked in a fixed order, and the first check that fails decides which
fault is raised. An instruction that passes its checks changes one thing.
-/

import Intcode.Proofs.AddressRange
import Intcode.Proofs.Simulation

namespace Intcode

/-- A condition that stops an instruction, and the fault that is then raised. -/
structure Check where
  applies : Bool
  fault : Fault

namespace Check

variable {Result Second : Type} {checks more : List Check}

/-- No check applies. -/
def Clear (checks : List Check) : Prop :=
  ∀ check ∈ checks, check.applies = false

/-- This is the fault of the first check that applies. -/
def Raises (checks : List Check) (fault : Fault) : Prop :=
  ∃ before check after, checks = before ++ check :: after ∧ Clear before ∧
    check.applies = true ∧ check.fault = fault

/-- The result, unless a check applies. -/
def verdict (result : Result) : List Check → Except Fault Result
  | [] => .ok result
  | check :: rest => if check.applies then .error check.fault else verdict result rest

theorem verdict_eq_ok {result other : Result} :
    verdict result checks = .ok other ↔ Clear checks ∧ other = result := by
  induction checks with
  | nil =>
      rw [verdict, Except.ok.injEq, eq_comm]
      exact (and_iff_right nofun).symm
  | cons check rest inductionHypothesis =>
      rw [Clear, List.forall_mem_cons, ← Clear, verdict]
      cases check.applies <;> simp [inductionHypothesis]

theorem verdict_eq_error {result : Result} {fault : Fault} :
    verdict result checks = .error fault ↔ Raises checks fault := by
  constructor
  · intro raised
    induction checks with
    | nil => cases raised
    | cons check rest inductionHypothesis =>
        rw [verdict] at raised
        split at raised
        next applies =>
          cases raised
          exact ⟨[], check, rest, rfl, nofun, applies, rfl⟩
        next passes =>
          obtain ⟨before, later, after, rfl, clear, applies, same⟩ := inductionHypothesis raised
          refine ⟨check :: before, later, after, rfl, ?_, applies, same⟩
          exact List.forall_mem_cons.mpr ⟨by simpa using passes, clear⟩
  · rintro ⟨before, check, after, rfl, clear, applies, rfl⟩
    induction before with
    | nil => simp [verdict, applies]
    | cons first before inductionHypothesis =>
        obtain ⟨passes, clear⟩ := List.forall_mem_cons.mp clear
        simpa [verdict, passes] using inductionHypothesis clear

/-- Checks are made one after another. -/
theorem verdict_bind {evaluation : Except Fault Result} {rest : Result → Except Fault Second}
    {first : Result} {second : Second} (before : evaluation = verdict first checks)
    (after : Clear checks → rest first = verdict second more) :
    (evaluation >>= rest) = verdict second (checks ++ more) := by
  rw [before]
  clear before
  induction checks with
  | nil => exact after nofun
  | cons check others inductionHypothesis =>
      rw [List.cons_append, verdict, verdict]
      cases passes : check.applies with
      | true => rfl
      | false =>
          refine inductionHypothesis ?_
          intro clear
          exact after (List.forall_mem_cons.mpr ⟨passes, clear⟩)

theorem verdict_map {evaluation : Except Fault Result} {first : Result} (change : Result → Second)
    (before : evaluation = verdict first checks) :
    (evaluation >>= fun result => .ok (change result)) = verdict (change first) checks := by
  have after : Clear checks → (Except.ok (change first) : Except Fault Second) =
      verdict (change first) [] := fun _ => rfl
  rw [verdict_bind before after, List.append_nil]

/-- Checks that have been made need not be made again. -/
theorem verdict_append {result : Result} (clear : Clear checks) :
    verdict result (checks ++ more) = verdict result more := by
  induction checks with
  | nil => rfl
  | cons check rest inductionHypothesis =>
      obtain ⟨passes, clear⟩ := List.forall_mem_cons.mp clear
      rw [List.cons_append, verdict, passes]
      exact inductionHypothesis clear

end Check

/-- What an instruction is read from: memory, the address of its first cell and the relative
base. -/
structure Instruction where
  memory : Nat → Cell
  address : Nat
  base : Cell

namespace Instruction

variable (instruction : Instruction)

/-- The integer in the first cell. -/
def code : Int :=
  (instruction.memory instruction.address).toInt

/-- The digits that select the operation. -/
def number : Int :=
  instruction.code % 100

/-- The digit that selects the mode of a parameter. -/
def digit (index : Nat) : Int :=
  instruction.code / 10 ^ (index + 2) % 10

/-- The integer in the cell of a parameter. -/
def raw (index : Nat) : Int :=
  (instruction.memory (instruction.address + 1 + index)).toInt

/-- The integer that a parameter resolves to. It is an address unless it is negative. -/
def place (index : Nat) : Int :=
  if instruction.digit index = 0 then instruction.raw index
  else if instruction.digit index = 1 then ↑(instruction.address + 1 + index)
  else instruction.raw index + instruction.base.toInt

/-- The cell that is found where a parameter resolves to. -/
def found (index : Nat) : Cell :=
  instruction.memory (instruction.place index).toNat

/-- The integer that is found there. -/
def operand (index : Nat) : Int :=
  (instruction.found index).toInt

theorem found_eq_zero (index : Nat) :
    instruction.found index = 0 ↔ instruction.operand index = 0 :=
  Int64.toInt_inj.symm

/-- The digit of a parameter is that of a mode. -/
def modeChecks (index : Nat) : List Check :=
  [⟨instruction.digit index ∉ [0, 1, 2], .invalidMode (instruction.digit index)⟩]

/-- A parameter can be written through. -/
def writeChecks (index : Nat) : List Check :=
  instruction.modeChecks index ++ [⟨instruction.digit index = 1, .immediateWrite⟩]

/-- A parameter resolves to an address. -/
def placeChecks (index : Nat) : List Check :=
  [⟨instruction.digit index = 2 ∧ ¬ Cell.Fits (instruction.place index), .overflow⟩,
    ⟨instruction.place index < 0, .negativeAddress (Int64.ofInt (instruction.place index))⟩]

/-- The checks of a parameter that is read. -/
def sourceChecks (index : Nat) : List Check :=
  instruction.modeChecks index ++ instruction.placeChecks index

/-- The checks of a parameter that is written through. -/
def targetChecks (index : Nat) : List Check :=
  instruction.writeChecks index ++ instruction.placeChecks index

/-- An integer that is to be stored fits in a cell. -/
def rangeChecks (value : Int) : List Check :=
  [⟨¬ Cell.Fits value, .overflow⟩]

/-- A jump that is taken goes to an address. -/
def jumpChecks (taken : Bool) : List Check :=
  [⟨taken ∧ instruction.operand 1 < 0, .negativeAddress (Int64.ofInt (instruction.operand 1))⟩]

/-- The first two parameters are read. -/
def operandChecks : List Check :=
  instruction.sourceChecks 0 ++ instruction.sourceChecks 1

/-- Everything that is checked, in its order. -/
def checks : List Check :=
  match instruction.number with
  | 1 =>
      instruction.operandChecks ++ (rangeChecks (instruction.operand 0 + instruction.operand 1) ++
        instruction.targetChecks 2)
  | 2 =>
      instruction.operandChecks ++ (rangeChecks (instruction.operand 0 * instruction.operand 1) ++
        instruction.targetChecks 2)
  | 3 => instruction.writeChecks 0
  | 4 => instruction.sourceChecks 0
  | 5 => instruction.operandChecks ++ instruction.jumpChecks (instruction.operand 0 ≠ 0)
  | 6 => instruction.operandChecks ++ instruction.jumpChecks (instruction.operand 0 = 0)
  | 7 | 8 => instruction.operandChecks ++ instruction.targetChecks 2
  | 9 =>
      instruction.sourceChecks 0 ++ rangeChecks (instruction.base.toInt + instruction.operand 0)
  | 99 => []
  | _ => [⟨true, .invalidOpcode (instruction.memory instruction.address)⟩]

/-- A first cell that selects no operation is a fault whatever follows it. -/
theorem checks_of_unselected (unselected : Opcode.ofNumber? instruction.number = none) :
    instruction.checks = [⟨true, .invalidOpcode (instruction.memory instruction.address)⟩] := by
  unfold checks
  generalize instruction.number = number at unselected ⊢
  unfold Opcode.ofNumber? at unselected
  split at unselected <;> simp_all

end Instruction

namespace Machine

open Check Instruction

/-- The instruction decoded last. -/
def decoded (machine : Machine) : Instruction :=
  { memory := machine.memory.read, address := machine.instruction, base := machine.base }

/-- What is left if an integer is stored through the third parameter. -/
def storing (machine : Machine) (value : Int) : Machine × Option Event :=
  ({ machine with
      memory := machine.memory.write (machine.decoded.place 2).toNat (Int64.ofInt value)
      ip := machine.instruction + 4 }, none)

/-- What is left if a jump is taken or not. -/
def jumping (machine : Machine) (taken : Bool) : Machine × Option Event :=
  ({ machine with
      ip := if taken then (machine.decoded.operand 1).toNat else machine.instruction + 3 }, none)

/-- What is left if the instruction decoded last passes its checks. -/
def outcome (machine : Machine) : Machine × Option Event :=
  let left := machine.decoded.operand 0
  let right := machine.decoded.operand 1
  match machine.decoded.number with
  | 1 => machine.storing (left + right)
  | 2 => machine.storing (left * right)
  | 3 =>
      ({ machine with ip := machine.instruction + 1, status := .awaitingInput }, some .needInput)
  | 4 => ({ machine with ip := machine.instruction + 2 }, some (.output (machine.decoded.found 0)))
  | 5 => machine.jumping (left ≠ 0)
  | 6 => machine.jumping (left = 0)
  | 7 => machine.storing (if left < right then 1 else 0)
  | 8 => machine.storing (if left = right then 1 else 0)
  | 9 =>
      ({ machine with
          base := Int64.ofInt (machine.base.toInt + left), ip := machine.instruction + 2 }, none)
  | 99 => ({ machine with ip := machine.instruction + 1, status := .halted }, some .halted)
  | _ => (machine, none)

theorem location_eq_verdict (address : Cell) :
    location address =
      Check.verdict address.toInt.toNat [⟨address.toInt < 0, .negativeAddress address⟩] := by
  unfold location
  by_cases negative : address.toInt < 0 <;> simp [Check.verdict, negative]

/-- An integer is an address if a cell holds it and it is not negative. -/
theorem resolve_eq_verdict (value : Int) :
    (match Cell.ofInt? value with
      | some address => location address
      | none => .error .overflow) =
      Check.verdict value.toNat
        [⟨¬ Cell.Fits value, .overflow⟩, ⟨value < 0, .negativeAddress (Int64.ofInt value)⟩] := by
  by_cases fits : Cell.Fits value
  · have located := location_eq_verdict (Int64.ofInt value)
    rw [Cell.toInt_ofInt fits] at located
    simp only [Cell.ofInt?, if_pos fits, located]
    simp [Check.verdict, fits]
  · simp [Cell.ofInt?, Check.verdict, fits]

theorem ofBool_eq (condition : Bool) :
    Cell.ofBool condition = Int64.ofInt (if condition then 1 else 0) := by
  cases condition <;> rfl

theorem apply_jump (machine : Machine) (condition : Bool) :
    machine.apply (if condition then .jump (machine.decoded.operand 1).toNat else .fallThrough) =
      machine.jumping condition := by
  cases condition <;> rfl

/-- A result that does not fit in a cell is an overflow. -/
def ranged : Option Cell → Except Fault Cell
  | some result => .ok result
  | none => .error .overflow

theorem ranged_eq_verdict (value : Int) :
    ranged (Cell.ofInt? value) = Check.verdict (Int64.ofInt value) (rangeChecks value) := by
  by_cases fits : Cell.Fits value <;> simp [ranged, Cell.ofInt?, rangeChecks, Check.verdict, fits]

section Evaluation

variable {machine : Machine} (modes : machine.modes = Opcode.modesOf machine.head)

include modes

theorem digitAt_eq_digit (index : Nat) :
    Mode.digitAt machine.modes index = machine.decoded.digit index := by
  rw [modes, Opcode.digitAt_modesOf]
  rfl

theorem mode_eq_verdict (index : Nat) :
    machine.mode index = Check.verdict
      (if machine.decoded.digit index = 0 then .position
        else if machine.decoded.digit index = 1 then .immediate else .relative)
      (machine.decoded.modeChecks index) := by
  unfold mode
  rw [digitAt_eq_digit modes, modeChecks]
  generalize machine.decoded.digit index = digit
  rcases digit with (_ | _ | _ | _) | _ <;> rfl

theorem address_eq_verdict (index : Nat) :
    machine.address index = Check.verdict (machine.decoded.place index).toNat
      (machine.decoded.sourceChecks index) := by
  refine verdict_bind (mode_eq_verdict modes index) fun clear => ?_
  have known : machine.decoded.digit index ∈ [0, 1, 2] := by
    have passes := clear _ List.mem_cons_self
    rwa [decide_eq_false_iff_not, not_not] at passes
  have held : (machine.memory.read (machine.slot index)).toInt = machine.decoded.raw index := rfl
  simp only [List.mem_cons, List.not_mem_nil, or_false] at known
  rcases known with position | immediate | relative
  · have place : machine.decoded.place index = machine.decoded.raw index := if_pos position
    rw [if_pos position, placeChecks, place, position, ← held, Int64.ofInt_toInt]
    exact location_eq_verdict _
  · have place : machine.decoded.place index = ↑(machine.slot index) := by
      rw [Instruction.place, immediate]
      rfl
    rw [immediate, placeChecks, place, immediate]
    simp [Check.verdict]
  · have place : machine.decoded.place index =
        (machine.memory.read (machine.slot index)).toInt + machine.base.toInt := by
      rw [Instruction.place, relative]
      rfl
    rw [relative, placeChecks, place, relative]
    simp only [true_and]
    exact resolve_eq_verdict _

theorem value_eq_verdict (index : Nat) :
    machine.value index =
      Check.verdict (machine.decoded.found index) (machine.decoded.sourceChecks index) :=
  verdict_map machine.memory.read (address_eq_verdict modes index)

theorem checkTarget_eq_verdict (index : Nat) :
    machine.checkTarget index = Check.verdict () (machine.decoded.writeChecks index) := by
  refine verdict_bind (mode_eq_verdict modes index) fun _ => ?_
  generalize machine.decoded.digit index = digit
  by_cases position : digit = 0
  · rw [if_pos position, position]
    rfl
  by_cases immediate : digit = 1
  · rw [if_neg position, if_pos immediate, immediate]
    rfl
  · simp [position, immediate, Check.verdict]

theorem target_eq_verdict (index : Nat) :
    machine.target index = Check.verdict (machine.decoded.place index).toNat
      (machine.decoded.targetChecks index) := by
  refine verdict_bind (checkTarget_eq_verdict modes index) fun clear => ?_
  rw [address_eq_verdict modes, sourceChecks]
  exact verdict_append fun check inside => clear check (List.mem_append_left _ inside)

/-- The first two parameters are read before anything else is looked at. -/
theorem operands_bind {Result : Type} {rest : Cell → Cell → Except Fault Result} {result : Result}
    {more : List Check}
    (after : rest (machine.decoded.found 0) (machine.decoded.found 1) = Check.verdict result more) :
    (do
      let left ← machine.value 0
      let right ← machine.value 1
      rest left right) = Check.verdict result (machine.decoded.operandChecks ++ more) := by
  rw [operandChecks, List.append_assoc]
  refine verdict_bind (value_eq_verdict modes 0) fun _ => ?_
  exact verdict_bind (value_eq_verdict modes 1) fun _ => after

/-- The result of an operation has to pass checks of its own before it is stored. -/
theorem combine_eq_verdict (operation : Cell → Cell → Option Cell) {value : Cell}
    {results : List Check}
    (computed : ranged (operation (machine.decoded.found 0) (machine.decoded.found 1)) =
      Check.verdict value results) :
    machine.combine operation = Check.verdict (.store (machine.decoded.place 2).toNat value)
      (machine.decoded.operandChecks ++ (results ++ machine.decoded.targetChecks 2)) := by
  refine operands_bind modes ?_
  have stored := verdict_map (Effect.store · value) (target_eq_verdict modes 2)
  have chained : (ranged (operation (machine.decoded.found 0) (machine.decoded.found 1)) >>=
      fun result => do return Effect.store (← machine.target 2) result) =
        Check.verdict (.store (machine.decoded.place 2).toNat value)
          (results ++ machine.decoded.targetChecks 2) :=
    verdict_bind computed fun _ => stored
  rw [← chained]
  cases operation (machine.decoded.found 0) (machine.decoded.found 1) <;> rfl

/-- The result of a comparison fits in any case. -/
theorem compare_eq_verdict (test : Cell → Cell → Bool) :
    machine.combine (fun left right => some (.ofBool (test left right))) =
      Check.verdict
        (.store (machine.decoded.place 2).toNat
          (.ofBool (test (machine.decoded.found 0) (machine.decoded.found 1))))
        (machine.decoded.operandChecks ++ machine.decoded.targetChecks 2) := by
  have computed : ranged (some (Cell.ofBool
      (test (machine.decoded.found 0) (machine.decoded.found 1)))) = Check.verdict _ [] := rfl
  exact combine_eq_verdict modes (fun left right => some (.ofBool (test left right))) computed

theorem jumpIf_eq_verdict {taken : Cell → Bool} {condition : Bool}
    (same : taken (machine.decoded.found 0) = condition) :
    machine.jumpIf taken =
      Check.verdict
        (if condition then .jump (machine.decoded.operand 1).toNat else .fallThrough)
        (machine.decoded.operandChecks ++ machine.decoded.jumpChecks condition) := by
  refine operands_bind modes ?_
  rw [same, jumpChecks, operand, Int64.ofInt_toInt]
  cases condition with
  | false => rfl
  | true =>
      simp only [true_and, if_true]
      exact verdict_map Effect.jump (location_eq_verdict (machine.decoded.found 1))

theorem rebase_eq_verdict :
    machine.perform .rebase =
      Check.verdict (.rebase (Int64.ofInt (machine.base.toInt + machine.decoded.operand 0)))
        (machine.decoded.sourceChecks 0 ++
          rangeChecks (machine.base.toInt + machine.decoded.operand 0)) := by
  refine verdict_bind (value_eq_verdict modes 0) fun _ => ?_
  rw [← verdict_map Effect.rebase (ranged_eq_verdict _), operand, ← Cell.add?]
  cases machine.base.add? (machine.decoded.found 0) <;> rfl

/-- An operation raises the fault of its first check that applies, and otherwise has the effect
that the outcome shows. -/
theorem perform_eq_verdict {opcode : Opcode} (selected : opcode.number = machine.decoded.number) :
    ∃ effect, machine.perform opcode = Check.verdict effect machine.decoded.checks ∧
      machine.apply effect = machine.outcome := by
  unfold checks outcome
  rw [← selected]
  cases opcode with
  | add => exact ⟨_, combine_eq_verdict modes Cell.add? (ranged_eq_verdict _), rfl⟩
  | multiply => exact ⟨_, combine_eq_verdict modes Cell.multiply? (ranged_eq_verdict _), rfl⟩
  | less =>
      refine ⟨_, compare_eq_verdict modes fun left right => left < right, ?_⟩
      rw [ofBool_eq]
      simp only [decide_eq_true_eq, Int64.lt_iff_toInt_lt]
      rfl
  | equal =>
      refine ⟨_, compare_eq_verdict modes fun left right => left == right, ?_⟩
      rw [ofBool_eq]
      simp only [beq_iff_eq, ← Int64.toInt_inj]
      rfl
  | jumpTrue =>
      have taken : (machine.decoded.found 0 != 0) = decide (machine.decoded.operand 0 ≠ 0) := by
        rw [Bool.eq_iff_iff]
        simp [found_eq_zero]
      exact ⟨_, jumpIf_eq_verdict modes taken, apply_jump machine _⟩
  | jumpZero =>
      have taken : (machine.decoded.found 0 == 0) = decide (machine.decoded.operand 0 = 0) := by
        rw [Bool.eq_iff_iff]
        simp [found_eq_zero]
      exact ⟨_, jumpIf_eq_verdict modes taken, apply_jump machine _⟩
  | input => exact ⟨_, verdict_map (fun _ => Effect.await) (checkTarget_eq_verdict modes 0), rfl⟩
  | output => exact ⟨_, verdict_map Effect.emit (value_eq_verdict modes 0), rfl⟩
  | rebase => exact ⟨_, rebase_eq_verdict modes, rfl⟩
  | halt => exact ⟨_, rfl, rfl⟩

theorem evaluate_eq_verdict :
    ∃ effect, machine.evaluate = Check.verdict effect machine.decoded.checks ∧
      (Clear machine.decoded.checks → machine.apply effect = machine.outcome) := by
  unfold evaluate
  dsimp only
  split
  next opcode selected =>
    obtain ⟨effect, performed, applied⟩ :=
      perform_eq_verdict modes (Opcode.ofNumber?_eq_some.mp selected)
    exact ⟨effect, performed, fun _ => applied⟩
  next unselected =>
    rw [machine.decoded.checks_of_unselected unselected]
    exact ⟨.halt, rfl, fun clear => nomatch clear _ List.mem_cons_self⟩

end Evaluation

variable {program : Program} {machine next : Machine}

theorem step_eq_error_iff {trap : Trap} :
    machine.step = (next, .error trap) ↔
      Raises machine.fetch.decoded.checks trap.fault ∧ next = machine.fetch ∧
        trap.address = machine.ip := by
  have decoded : machine.fetch.modes = Opcode.modesOf machine.fetch.head := rfl
  obtain ⟨effect, evaluated, _⟩ := evaluate_eq_verdict decoded
  rw [step_eq_error, evaluated, verdict_eq_error]

theorem step_eq_ok_iff {event : Option Event} :
    machine.step = (next, .ok event) ↔
      Clear machine.fetch.decoded.checks ∧ (next, event) = machine.fetch.outcome := by
  have decoded : machine.fetch.modes = Opcode.modesOf machine.fetch.head := rfl
  obtain ⟨effect, evaluated, applied⟩ := evaluate_eq_verdict decoded
  rw [step_eq_ok, evaluated]
  constructor
  · rintro ⟨other, passes, reached⟩
    obtain ⟨clear, rfl⟩ := verdict_eq_ok.mp passes
    exact ⟨clear, reached.symm.trans (applied clear)⟩
  · rintro ⟨clear, reached⟩
    exact ⟨effect, verdict_eq_ok.mpr ⟨clear, rfl⟩, (applied clear).trans reached.symm⟩

/-- A machine that waits for a value has made the first two checks of its destination. -/
theorem Waiting.target_eq_verdict (waiting : machine.Waiting) :
    machine.target 0 =
      Check.verdict (machine.decoded.place 0).toNat (machine.decoded.placeChecks 0) := by
  have checked : machine.checkTarget 0 = .ok () := by
    rw [checkTarget_eq_ok, waiting.modes]
    exact waiting.mode
  rw [checkTarget_eq_verdict waiting.modes] at checked
  obtain ⟨clear, _⟩ := verdict_eq_ok.mp checked
  rw [Machine.target_eq_verdict waiting.modes]
  exact verdict_append clear

theorem Waiting.supply_eq_error_iff (waiting : machine.Waiting) {value : Cell} {trap : Trap} :
    machine.supply value = (next, .error trap) ↔
      Raises (machine.decoded.placeChecks 0) trap.fault ∧
        next = { machine with ip := machine.instruction, status := .running } ∧
        trap.address = machine.instruction := by
  rw [supply_eq_error, waiting.target_eq_verdict, verdict_eq_error]

theorem Waiting.supply_eq_ok_iff (waiting : machine.Waiting) {value : Cell} :
    machine.supply value = (next, .ok ()) ↔
      Clear (machine.decoded.placeChecks 0) ∧
        next = { machine with
          memory := machine.memory.write (machine.decoded.place 0).toNat value
          ip := machine.instruction + 2
          status := .running } := by
  rw [supply_eq_ok, waiting.target_eq_verdict]
  constructor
  · rintro ⟨address, passes, reached⟩
    obtain ⟨clear, rfl⟩ := verdict_eq_ok.mp passes
    exact ⟨clear, reached⟩
  · rintro ⟨clear, reached⟩
    exact ⟨_, verdict_eq_ok.mpr ⟨clear, rfl⟩, reached⟩

/-- An instruction raises the fault of the first check that applies and changes nothing, or it
passes its checks and changes what its operation is for. An input instruction checks whether it can
be written through before it asks for a value, and where to only when it is given one. -/
theorem step_raises_first_fault (visited : Visited program machine) :
    (∀ next trap, machine.step = (next, .error trap) ↔
      Raises machine.fetch.decoded.checks trap.fault ∧ next = machine.fetch ∧
        trap.address = machine.ip) ∧
    (∀ next event, machine.step = (next, .ok event) ↔
      Clear machine.fetch.decoded.checks ∧ (next, event) = machine.fetch.outcome) ∧
    (machine.status = .awaitingInput → ∀ value next,
      (∀ trap, machine.supply value = (next, .error trap) ↔
        Raises (machine.decoded.placeChecks 0) trap.fault ∧
          next = { machine with ip := machine.instruction, status := .running } ∧
          trap.address = machine.instruction) ∧
      (machine.supply value = (next, .ok ()) ↔
        Clear (machine.decoded.placeChecks 0) ∧
          next = { machine with
            memory := machine.memory.write (machine.decoded.place 0).toNat value
            ip := machine.instruction + 2
            status := .running })) := by
  refine ⟨fun _ _ => step_eq_error_iff, fun _ _ => step_eq_ok_iff, ?_⟩
  intro awaits value next
  have waiting := visited.waiting awaits
  exact ⟨fun _ => waiting.supply_eq_error_iff, waiting.supply_eq_ok_iff⟩

/-- A sum that does not fit is reported before a destination that can not be written through. -/
theorem overflow_comes_before_immediate_write :
    let program : Program := [11101, 9223372036854775807, 1, 0]
    let machine := started program
    Visited program machine ∧ machine.fetch.decoded.digit 2 = 1 ∧
      machine.step = (machine.fetch, .error ⟨.overflow, 0⟩) := by
  intro program machine
  have visited : Visited program machine := .within .opened (.onward (.inl rfl)) .refl
  have raised : Raises machine.fetch.decoded.checks .overflow :=
    verdict_eq_error.mp (show Check.verdict () _ = _ by decide)
  exact ⟨visited, by decide, ((step_raises_first_fault visited).1 _ _).mpr ⟨raised, rfl, rfl⟩⟩

end Machine

end Intcode
