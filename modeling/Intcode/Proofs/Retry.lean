/-
This file shows what is left of an instruction that fails. Nothing is changed by
it, and a machine that is resumed tries the instruction again.
-/

import Intcode.Proofs.Protocol

namespace Intcode.Machine

variable {machine next : Machine} {trap : Trap}

/-- An instruction that has failed fails in the same way and leaves the machine as it is. -/
theorem Pauses.again (pauses : machine.Pauses next (.error trap)) : next.Pauses next (.error trap) := by
  obtain ⟨evaluated, rfl, stopped⟩ := pauses_trap.mp pauses
  exact pauses_trap.mpr ⟨evaluated, rfl, stopped⟩

/-- A machine that returns to itself does so any number of times. -/
theorem Session.replicate {budget : Nat} {input : Option Cell} {result : Except Trap Event}
    (returns : machine.resume budget input = some (machine, result)) (count : Nat) :
    machine.Session (List.replicate count (input, result)) machine := by
  induction count with
  | zero => exact .opened
  | succ count inductionHypothesis =>
      rw [List.replicate_succ']
      exact .resumed inductionHypothesis returns

theorem Waiting.evaluate (waiting : machine.Waiting) : machine.evaluate = .ok .await := by
  have checked : machine.checkTarget 0 = .ok () := by
    rw [checkTarget_eq_ok, waiting.modes]
    exact waiting.mode
  exact evaluate_input waiting.number checked

/-- A machine that is taken back to the input instruction it waits in asks for a value again. -/
theorem Waiting.asks_again (waiting : machine.Waiting) (awaits : machine.status = .awaitingInput) :
    { machine with ip := machine.instruction, status := .running }.Pauses machine
      (.ok .needInput) := by
  have decoded : fetch { machine with ip := machine.instruction, status := .running } =
      { machine with ip := machine.instruction, status := .running } := by
    rw [fetch, waiting.modes]
    rfl
  rw [pauses_needInput, decoded]
  refine ⟨waiting.evaluate, ?_⟩
  rw [← waiting.ip, ← awaits]

/-- An instruction that fails changes neither memory nor the relative base. If it failed as the
machine executed it, it fails alike however often the machine is resumed. If it failed to store
the value that it was given, the machine is back where it waited for one as soon as it is
resumed, and any value fails alike. -/
theorem fault_changes_nothing {program : Program} {calls : List (Option Cell × Except Trap Event)}
    {budget : Nat} {input : Option Cell} (session : (load program).Session calls machine)
    (resumed : machine.resume budget input = some (next, .error trap))
    (executing : ∀ value, trap.fault ≠ .unexpectedInput value)
    (live : trap.fault ≠ .resumeAfterHalt) :
    next.status = .running ∧ next.ip = trap.address ∧ next.instruction = trap.address ∧
    ((∃ start began, machine.Starts input start ∧ start.Executes began ∧
        began.step = (next, .error trap) ∧ began.ip = trap.address ∧
        next.memory = began.memory ∧ next.base = began.base ∧
        (∀ more, next.resume (more + 1) none = some (next, .error trap)) ∧
        ∀ count, next.Session (List.replicate count (none, .error trap)) next) ∨
      ∃ value, input = some value ∧ machine.status = .awaitingInput ∧
        machine.supply value = (next, .error trap) ∧ machine.instruction = trap.address ∧
        next.memory = machine.memory ∧ next.base = machine.base ∧
        (∀ more, next.resume (more + 1) none = some (machine, .ok .needInput)) ∧
        ∀ more other, machine.resume more (some other) = some (next, .error trap)) := by
  have stopped := (resume_eq_some.mp resumed).stopped
  cases resume_eq_some.mp resumed with
  | closed => exact absurd rfl live
  | refused => exact absurd rfl (executing _)
  | @unstored value _ _ awaits failed =>
      have stopped := stopped (ofInstruction_of_supply failed)
      have waiting := session.coherent.waiting awaits
      obtain ⟨refused, rfl, address⟩ := supply_eq_error.mp failed
      refine ⟨stopped.1, stopped.2.1, stopped.2.2, .inr ⟨value, rfl, awaits, failed, address.symm,
        rfl, rfl, ?_, ?_⟩⟩
      · exact resume_of_pauses rfl (waiting.asks_again awaits)
      · intro more other
        exact resume_eq_some.mpr (.unstored awaits (supply_eq_error.mpr ⟨refused, rfl, address⟩))
  | @executed _ start _ _ starts advanced =>
      obtain ⟨began, executes, pauses⟩ := pauses_of_advance advanced
      have stopped := stopped pauses.ofInstruction
      have repeats := resume_of_pauses stopped.1 pauses.again
      obtain ⟨_, rfl, address⟩ := pauses_trap.mp pauses
      exact ⟨stopped.1, stopped.2.1, stopped.2.2, .inl ⟨start, began, starts, executes, pauses,
        address.symm, rfl, rfl, repeats, .replicate (repeats 0)⟩⟩

/-- A value that can not be stored at a negative address changes nothing. -/
theorem negative_input_changes_nothing :
    let machine : Machine :=
      { load [109, -10, 203, 0, 99] with
        ip := 3, base := -10, status := .awaitingInput, instruction := 2, modes := 2 }
    let next : Machine := { machine with ip := 2, status := .running }
    (load [109, -10, 203, 0, 99]).Session [(none, .ok .needInput)] machine ∧
    machine.resume 0 (some 1) = some (next, .error ⟨.negativeAddress (-10), 2⟩) ∧
    next.status = .running ∧ next.ip = 2 ∧ next.instruction = 2 := by
  intro machine next
  have asked : (load [109, -10, 203, 0, 99]).resume 2 none = some (machine, .ok .needInput) := by decide
  have failed : machine.resume 0 (some 1) = some (next, .error ⟨.negativeAddress (-10), 2⟩) := by decide
  have session := Session.resumed .opened asked
  have kept := fault_changes_nothing session failed (by simp) (by simp)
  exact ⟨session, failed, kept.1, kept.2.1, kept.2.2.1⟩

end Intcode.Machine
