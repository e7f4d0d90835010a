/-
This file describes sessions, in which a machine is resumed again and again with
any values, and lists the ways in which one call can be answered.
-/

import Intcode.Proofs.Execution

namespace Intcode.Machine

/-- A call lets the machine execute instructions, and `start` is the machine before the first. -/
inductive Starts (machine : Machine) : Option Cell → Machine → Prop where
  | onward (idle : machine.status = .ready ∨ machine.status = .running) :
      Starts machine none { machine with status := .running }
  | supplied {value : Cell} {start : Machine} (awaits : machine.status = .awaitingInput)
      (stored : machine.supply value = (start, .ok ())) : Starts machine (some value) start

/-- The ways in which a call can be answered. -/
inductive Answers (budget : Nat) (machine : Machine) :
    Option Cell → Machine → Except Trap Event → Prop where
  | closed {input : Option Cell} (halted : machine.status = .halted) :
      Answers budget machine input machine (.error ⟨.resumeAfterHalt, machine.instruction⟩)
  | again (awaits : machine.status = .awaitingInput) :
      Answers budget machine none machine (.ok .needInput)
  | refused {value : Cell} (idle : machine.status = .ready ∨ machine.status = .running) :
      Answers budget machine (some value) machine (.error ⟨.unexpectedInput value, machine.ip⟩)
  | unstored {value : Cell} {next : Machine} {trap : Trap} (awaits : machine.status = .awaitingInput)
      (failed : machine.supply value = (next, .error trap)) :
      Answers budget machine (some value) next (.error trap)
  | executed {input : Option Cell} {start next : Machine} {result : Except Trap Event}
      (starts : machine.Starts input start) (advanced : advance budget start = some (next, result)) :
      Answers budget machine input next result

/-- A call returns exactly the answers listed. -/
theorem resume_eq_some {budget : Nat} {machine next : Machine} {input : Option Cell}
    {result : Except Trap Event} :
    machine.resume budget input = some (next, result) ↔
      Answers budget machine input next result := by
  constructor
  · intro resumed
    unfold resume at resumed
    split at resumed
    next halted => cases resumed; exact .closed halted
    next awaits => cases resumed; exact .again awaits
    next value awaits =>
      split at resumed
      next stored => exact .executed (.supplied awaits stored) resumed
      next failed => cases resumed; exact .unstored awaits failed
    next value notHalted notAwaiting =>
      cases resumed
      refine .refused ?_
      cases status : machine.status <;> simp_all
    next notHalted notAwaiting =>
      refine .executed (.onward ?_) resumed
      cases status : machine.status <;> simp_all
  · intro answers
    cases answers with
    | closed halted => simp [resume, halted]
    | again awaits => simp [resume, awaits]
    | refused idle => rcases idle with idle | idle <;> simp [resume, idle]
    | unstored awaits failed => simp [resume, awaits, failed]
    | executed starts advanced =>
        cases starts with
        | onward idle => rcases idle with idle | idle <;> simp [resume, idle, advanced]
        | supplied awaits stored => simp [resume, awaits, stored, advanced]

/-- A larger budget does not change the answer to a call. -/
theorem resume_mono {budget more : Nat} {machine next : Machine} {input : Option Cell}
    {result : Except Trap Event} (resumed : machine.resume budget input = some (next, result))
    (within : budget ≤ more) : machine.resume more input = some (next, result) := by
  rw [resume_eq_some] at resumed ⊢
  cases resumed with
  | closed halted => exact .closed halted
  | again awaits => exact .again awaits
  | refused idle => exact .refused idle
  | unstored awaits failed => exact .unstored awaits failed
  | executed starts advanced => exact .executed starts (advance_mono advanced within)

theorem resume_running {budget : Nat} {machine : Machine} (running : machine.status = .running) :
    machine.resume budget none = advance budget machine := by
  have same : { machine with status := .running } = machine := by rw [← running]
  simp [resume, running, same]

/-- A machine whose next instruction pauses it needs no budget but for that one. -/
theorem resume_of_pauses {machine next : Machine} {result : Except Trap Event}
    (running : machine.status = .running) (pauses : machine.Pauses next result) (budget : Nat) :
    machine.resume (budget + 1) none = some (next, result) := by
  rw [resume_running running, advance_of_pauses pauses]

theorem resume_supplied {budget : Nat} {machine start : Machine} {value : Cell}
    (awaits : machine.status = .awaitingInput) (stored : machine.supply value = (start, .ok ())) :
    machine.resume budget (some value) = advance budget start := by
  simp [resume, awaits, stored]

/-- A sequence of calls, each with what it was given and what it returned. -/
inductive Session (machine : Machine) : List (Option Cell × Except Trap Event) → Machine → Prop where
  | opened : Session machine [] machine
  | resumed {calls : List (Option Cell × Except Trap Event)} {last next : Machine} {budget : Nat}
      {input : Option Cell} {result : Except Trap Event} (session : Session machine calls last)
      (call : last.resume budget input = some (next, result)) :
      Session machine (calls ++ [(input, result)]) next

/-- The status of a machine has no part in what a parameter refers to. -/
theorem target_running (machine : Machine) (index : Nat) :
    { machine with status := .running }.target index = machine.target index := rfl

theorem supply_eq_ok {machine start : Machine} {value : Cell} :
    machine.supply value = (start, .ok ()) ↔
      ∃ address, machine.target 0 = .ok address ∧
        start = { machine with
          memory := machine.memory.write address value
          ip := machine.instruction + 2
          status := .running } := by
  simp only [supply, target_running]
  cases machine.target 0 with
  | ok address => simp [Prod.ext_iff, eq_comm]
  | error fault => simp [fail]

theorem supply_eq_error {machine next : Machine} {value : Cell} {trap : Trap} :
    machine.supply value = (next, .error trap) ↔
      machine.target 0 = .error trap.fault ∧
        next = { machine with ip := machine.instruction, status := .running } ∧
        trap.address = machine.instruction := by
  simp only [supply, target_running]
  cases machine.target 0 with
  | ok address => simp
  | error fault =>
      cases trap
      simp only [fail, Prod.mk.injEq, Except.error.injEq, Trap.mk.injEq]
      tauto

theorem Starts.status {machine start : Machine} {input : Option Cell}
    (starts : machine.Starts input start) : start.status = .running := by
  cases starts with
  | onward => rfl
  | supplied _ stored =>
      obtain ⟨address, _, rfl⟩ := supply_eq_ok.mp stored
      rfl

end Intcode.Machine
