/-
This file states the protocol between a machine and whoever resumes it: what the
status of a machine says between two calls, and how the results of calls go with it.
-/

import Intcode.Proofs.Session

namespace Intcode

/-- The status that a machine has after an event. -/
def Event.status : Event → Status
  | needInput => .awaitingInput
  | output _ => .running
  | halted => .halted

namespace Machine

/-- The first cell of the instruction decoded last. -/
def head (machine : Machine) : Cell :=
  machine.memory.read machine.instruction

/-- The machine is in an input instruction, and has decoded nothing but its first cell. -/
structure Waiting (machine : Machine) : Prop where
  ip : machine.ip = machine.instruction + 1
  number : Opcode.numberOf machine.head = 3
  mode : Mode.digitAt (Opcode.modesOf machine.head) 0 = 0 ∨
    Mode.digitAt (Opcode.modesOf machine.head) 0 = 2
  modes : machine.modes = Opcode.modesOf machine.head

/-- The machine is at an instruction that has failed, at once or when it was given a value. -/
structure Stalled (machine : Machine) : Prop where
  ip : machine.ip = machine.instruction
  modes : machine.modes = Opcode.modesOf machine.head
  fault : ∃ fault, machine.evaluate = .error fault ∨
    Opcode.numberOf machine.head = 3 ∧ machine.target 0 = .error fault

/-- What the status of a machine with a program says, whenever no call is under way. -/
def Coherent (program : Program) (machine : Machine) : Prop :=
  match machine.status with
  | .ready => machine = load program
  | .awaitingInput => machine.Waiting
  | .halted => machine.ip = machine.instruction + 1 ∧ Opcode.numberOf machine.head = 99
  | .running =>
      (machine.ip = machine.instruction + 2 ∧ Opcode.numberOf machine.head = 4) ∨ machine.Stalled

/-- How the result of a call goes with the machine before and after it. -/
structure Corresponds (machine : Machine) (input : Option Cell) (next : Machine)
    (result : Except Trap Event) : Prop where
  needInput : result = .ok .needInput ↔
    (∃ event, result = .ok event) ∧ next.status = .awaitingInput
  output : ∀ value, result = .ok (.output value) → next.status = .running
  halted : result = .ok .halted → next.status = .halted
  fault : ∀ trap, result = .error trap → trap.fault.OfInstruction →
    next.status = .running ∧ next.ip = trap.address ∧ next.instruction = trap.address
  unexpectedInput : ∀ value, (∃ address, result = .error ⟨.unexpectedInput value, address⟩) ↔
    input = some value ∧ (machine.status = .ready ∨ machine.status = .running)
  resumeAfterHalt : (∃ address, result = .error ⟨.resumeAfterHalt, address⟩) ↔
    machine.status = .halted
  /-- A call that is turned down changes nothing. -/
  unchanged : ∀ trap, result = .error trap → ¬ trap.fault.OfInstruction → next = machine

/-- An instruction that stops a running machine leaves a coherent one. -/
theorem Pauses.coherent {program : Program} {machine next : Machine} {result : Except Trap Event}
    (pauses : machine.Pauses next result) (running : machine.status = .running) :
    next.Coherent program := by
  unfold Coherent
  rcases result with trap | event
  · obtain ⟨evaluated, rfl, _⟩ := pauses_trap.mp pauses
    rw [fetch_status, running]
    exact .inr ⟨rfl, rfl, trap.fault, .inl evaluated⟩
  cases event with
  | needInput =>
      obtain ⟨evaluated, rfl⟩ := pauses_needInput.mp pauses
      obtain ⟨opcode, selected, rfl, checked⟩ := evaluate_grounds evaluated
      exact ⟨rfl, selected, checkTarget_eq_ok.mp checked, rfl⟩
  | output value =>
      obtain ⟨evaluated, rfl⟩ := pauses_output.mp pauses
      obtain ⟨opcode, selected, rfl⟩ := evaluate_grounds evaluated
      rw [fetch_status, running]
      exact .inl ⟨rfl, selected⟩
  | halted =>
      obtain ⟨evaluated, rfl⟩ := pauses_halted.mp pauses
      obtain ⟨opcode, selected, rfl⟩ := evaluate_grounds evaluated
      exact ⟨rfl, selected⟩

theorem Coherent.waiting {program : Program} {machine : Machine} (coherent : machine.Coherent program)
    (awaits : machine.status = .awaitingInput) : machine.Waiting := by
  unfold Coherent at coherent
  rw [awaits] at coherent
  exact coherent

/-- A machine that can not store its value is at the input instruction again. -/
theorem Waiting.stalled {machine next : Machine} {value : Cell} {trap : Trap}
    (waiting : machine.Waiting) (failed : machine.supply value = (next, .error trap)) :
    next.Stalled := by
  obtain ⟨refused, rfl, _⟩ := supply_eq_error.mp failed
  exact ⟨rfl, waiting.modes, trap.fault, .inr ⟨waiting.number, refused⟩⟩

theorem resume_coherent {program : Program} {budget : Nat} {machine next : Machine}
    {input : Option Cell} {result : Except Trap Event} (coherent : machine.Coherent program)
    (resumed : machine.resume budget input = some (next, result)) : next.Coherent program := by
  rw [resume_eq_some] at resumed
  cases resumed with
  | closed | again | refused => exact coherent
  | unstored awaits failed =>
      have stalled := (coherent.waiting awaits).stalled failed
      obtain ⟨_, rfl, _⟩ := supply_eq_error.mp failed
      exact .inr stalled
  | executed starts advanced =>
      obtain ⟨last, executes, pauses⟩ := pauses_of_advance advanced
      exact pauses.coherent (executes.status.trans starts.status)

/-- Every machine of a session is coherent. -/
theorem Session.coherent {program : Program} {calls : List (Option Cell × Except Trap Event)}
    {machine : Machine} (session : (load program).Session calls machine) :
    machine.Coherent program := by
  induction session with
  | opened => rfl
  | resumed _ call inductionHypothesis => exact resume_coherent inductionHypothesis call

theorem Pauses.ofInstruction {machine next : Machine} {trap : Trap}
    (pauses : machine.Pauses next (.error trap)) : trap.fault.OfInstruction :=
  machine.fetch.evaluate_contained trap.fault (pauses_trap.mp pauses).1

theorem ofInstruction_of_supply {machine next : Machine} {value : Cell} {trap : Trap}
    (failed : machine.supply value = (next, .error trap)) : trap.fault.OfInstruction :=
  machine.target_contained 0 trap.fault (supply_eq_error.mp failed).1

section Answers

variable {budget : Nat} {machine next : Machine} {input : Option Cell} {result : Except Trap Event}

theorem Pauses.status_of_event {event : Event} (pauses : machine.Pauses next (.ok event))
    (running : machine.status = .running) : next.status = event.status := by
  cases event with
  | needInput => exact pauses.status_of_needInput
  | output value => exact pauses.status_of_output.trans running
  | halted =>
      obtain ⟨_, rfl⟩ := pauses_halted.mp pauses
      rfl

/-- A call that reports an event leaves the machine in the status of that event. -/
theorem Answers.status_of_event {event : Event} (answers : Answers budget machine input next (.ok event)) :
    next.status = event.status := by
  cases answers with
  | again awaits => exact awaits
  | executed starts advanced =>
      obtain ⟨last, executes, pauses⟩ := pauses_of_advance advanced
      exact pauses.status_of_event (executes.status.trans starts.status)

/-- A fault of an instruction leaves the machine running, and at that instruction. -/
theorem Answers.stopped {trap : Trap} (answers : Answers budget machine input next (.error trap))
    (inner : trap.fault.OfInstruction) :
    next.status = .running ∧ next.ip = trap.address ∧ next.instruction = trap.address := by
  cases answers with
  | closed | refused => exact inner.elim
  | unstored awaits failed =>
      obtain ⟨_, rfl, stopped⟩ := supply_eq_error.mp failed
      exact ⟨rfl, stopped.symm, stopped.symm⟩
  | executed starts advanced =>
      obtain ⟨last, executes, pauses⟩ := pauses_of_advance advanced
      obtain ⟨_, rfl, stopped⟩ := pauses_trap.mp pauses
      exact ⟨executes.status.trans starts.status, stopped.symm, stopped.symm⟩

/-- A call that is turned down changes nothing. -/
theorem Answers.unchanged {trap : Trap} (answers : Answers budget machine input next (.error trap))
    (outer : ¬ trap.fault.OfInstruction) : next = machine := by
  cases answers with
  | closed | refused => rfl
  | unstored awaits failed => exact absurd (ofInstruction_of_supply failed) outer
  | executed starts advanced =>
      obtain ⟨last, executes, pauses⟩ := pauses_of_advance advanced
      exact absurd pauses.ofInstruction outer

/-- A call is turned down for its value if and only if the machine did not ask for one. -/
theorem Answers.unexpectedInput (answers : Answers budget machine input next result) (value : Cell) :
    (∃ address, result = .error ⟨.unexpectedInput value, address⟩) ↔
      input = some value ∧ (machine.status = .ready ∨ machine.status = .running) := by
  constructor
  · intro turnedDown
    obtain ⟨address, rfl⟩ := turnedDown
    cases answers with
    | refused idle => exact ⟨rfl, idle⟩
    | unstored awaits failed => exact (ofInstruction_of_supply failed).elim
    | executed starts advanced =>
        obtain ⟨last, executes, pauses⟩ := pauses_of_advance advanced
        exact pauses.ofInstruction.elim
  · intro unasked
    obtain ⟨rfl, idle⟩ := unasked
    have asleep : machine.status ≠ .awaitingInput ∧ machine.status ≠ .halted := by
      rcases idle with idle | idle <;> simp [idle]
    cases answers with
    | closed halted => exact absurd halted asleep.2
    | refused => exact ⟨machine.ip, rfl⟩
    | unstored awaits => exact absurd awaits asleep.1
    | executed starts =>
        cases starts with
        | supplied awaits => exact absurd awaits asleep.1

/-- A call is turned down altogether if and only if the machine has halted. -/
theorem Answers.resumeAfterHalt (answers : Answers budget machine input next result) :
    (∃ address, result = .error ⟨.resumeAfterHalt, address⟩) ↔ machine.status = .halted := by
  constructor
  · intro turnedDown
    obtain ⟨address, rfl⟩ := turnedDown
    cases answers with
    | closed halted => exact halted
    | unstored awaits failed => exact (ofInstruction_of_supply failed).elim
    | executed starts advanced =>
        obtain ⟨last, executes, pauses⟩ := pauses_of_advance advanced
        exact pauses.ofInstruction.elim
  · intro halted
    cases answers with
    | closed => exact ⟨machine.instruction, rfl⟩
    | again awaits | unstored awaits => exact nomatch awaits.symm.trans halted
    | refused idle => rcases idle with idle | idle <;> exact nomatch idle.symm.trans halted
    | executed starts =>
        cases starts with
        | onward idle => rcases idle with idle | idle <;> exact nomatch idle.symm.trans halted
        | supplied awaits => exact nomatch awaits.symm.trans halted

end Answers

theorem Answers.corresponds {budget : Nat} {machine next : Machine} {input : Option Cell}
    {result : Except Trap Event} (answers : Answers budget machine input next result) :
    Corresponds machine input next result where
  needInput := by
    constructor
    · intro same
      subst same
      exact ⟨⟨_, rfl⟩, answers.status_of_event⟩
    · intro succeeds
      obtain ⟨⟨event, rfl⟩, awaits⟩ := succeeds
      have status := answers.status_of_event.symm.trans awaits
      cases event <;> cases status
      rfl
  output value := by
    intro same
    subst same
    exact answers.status_of_event
  halted := by
    intro same
    subst same
    exact answers.status_of_event
  fault trap := by
    intro same
    subst same
    exact answers.stopped
  unexpectedInput := answers.unexpectedInput
  resumeAfterHalt := answers.resumeAfterHalt
  unchanged trap := by
    intro same
    subst same
    exact answers.unchanged

/-- The machines of every session are coherent, their calls have results that go with them, and
the calls that execute nothing return whatever the budget is. -/
theorem session_follows_protocol {program : Program}
    {calls : List (Option Cell × Except Trap Event)} {machine : Machine}
    (session : (load program).Session calls machine) :
    machine.Coherent program ∧
    (∀ budget input next result, machine.resume budget input = some (next, result) →
      Corresponds machine input next result) ∧
    (∀ budget value, machine.status = .ready ∨ machine.status = .running →
      machine.resume budget (some value) =
        some (machine, .error ⟨.unexpectedInput value, machine.ip⟩)) ∧
    (∀ budget, machine.status = .awaitingInput →
      machine.resume budget none = some (machine, .ok .needInput)) ∧
    ∀ budget input, machine.status = .halted →
      machine.resume budget input = some (machine, .error ⟨.resumeAfterHalt, machine.instruction⟩) := by
  refine ⟨session.coherent, ?_, ?_, ?_, ?_⟩
  · intro budget input next result resumed
    exact (resume_eq_some.mp resumed).corresponds
  · intro budget value idle
    exact resume_eq_some.mpr (.refused idle)
  · intro budget awaits
    exact resume_eq_some.mpr (.again awaits)
  · intro budget input halted
    exact resume_eq_some.mpr (.closed halted)

/-- A machine that could not store its value is coherent, and turns down the next one. -/
theorem failed_input_follows_protocol :
    let machine : Machine :=
      { load [109, -10, 203, 0, 99] with
        ip := 2, base := -10, status := .running, instruction := 2, modes := 2 }
    (load [109, -10, 203, 0, 99]).Session
      [(none, .ok .needInput), (some 1, .error ⟨.negativeAddress (-10), 2⟩)] machine ∧
    machine.Coherent [109, -10, 203, 0, 99] ∧
    machine.resume 0 (some 7) = some (machine, .error ⟨.unexpectedInput 7, 2⟩) := by
  intro machine
  have asked : (load [109, -10, 203, 0, 99]).resume 2 none =
      some ({ machine with ip := 3, status := .awaitingInput }, .ok .needInput) := by decide
  have failed : { machine with ip := 3, status := .awaitingInput }.resume 0 (some 1) =
      some (machine, .error ⟨.negativeAddress (-10), 2⟩) := by decide
  have session := Session.resumed (.resumed .opened asked) failed
  have protocol := session_follows_protocol session
  exact ⟨session, protocol.1, protocol.2.2.1 0 7 (.inr rfl)⟩

end Machine

end Intcode
