/-
This file describes how a machine executes instructions. It goes on until an
instruction pauses it or raises a fault, however large its budget is.
-/

import Intcode.Machine.Resume
import Intcode.Proofs.Evaluation

namespace Intcode.Machine

@[simp] theorem fetch_instruction (machine : Machine) : machine.fetch.instruction = machine.ip := rfl

@[simp] theorem fetch_ip (machine : Machine) : machine.fetch.ip = machine.ip := rfl

@[simp] theorem fetch_memory (machine : Machine) : machine.fetch.memory = machine.memory := rfl

@[simp] theorem fetch_base (machine : Machine) : machine.fetch.base = machine.base := rfl

@[simp] theorem fetch_status (machine : Machine) : machine.fetch.status = machine.status := rfl

@[simp] theorem fetch_modes (machine : Machine) :
    machine.fetch.modes = Opcode.modesOf (machine.memory.read machine.ip) := rfl

/-- A step succeeds if its evaluation does, and its effect then happens. -/
theorem step_eq_ok {machine next : Machine} {event : Option Event} :
    machine.step = (next, .ok event) ↔
      ∃ effect, machine.fetch.evaluate = .ok effect ∧ machine.fetch.apply effect = (next, event) := by
  unfold step
  cases machine.fetch.evaluate with
  | ok effect => simp [Prod.ext_iff]
  | error fault => simp [fail]

/-- A step fails if its evaluation does, and has then done nothing but decode. -/
theorem step_eq_error {machine next : Machine} {trap : Trap} :
    machine.step = (next, .error trap) ↔
      machine.fetch.evaluate = .error trap.fault ∧ next = machine.fetch ∧
        trap.address = machine.ip := by
  unfold step
  cases machine.fetch.evaluate with
  | ok effect => simp
  | error fault =>
      cases trap
      simp only [fail, fetch_instruction, Prod.mk.injEq, Except.error.injEq, Trap.mk.injEq]
      tauto

/-- The machine executes one instruction and does not pause. -/
def Continues (machine next : Machine) : Prop :=
  machine.step = (next, .ok none)

/-- The machine executes any number of instructions and does not pause. -/
abbrev Executes : Machine → Machine → Prop :=
  Relation.ReflTransGen Continues

/-- The machine executes one instruction and stops there with a result. -/
def Pauses (machine next : Machine) (result : Except Trap Event) : Prop :=
  machine.step = (next, result.map some)

/-- An event that comes from one effect only says what was evaluated. -/
theorem pauses_event {machine next : Machine} {effect : Effect} {event : Event}
    (alone : ∀ other, (machine.fetch.apply other).2 = some event ↔ other = effect) :
    machine.Pauses next (.ok event) ↔
      machine.fetch.evaluate = .ok effect ∧ next = (machine.fetch.apply effect).1 := by
  rw [Pauses, Except.map, step_eq_ok]
  constructor
  · intro stepped
    obtain ⟨other, evaluated, applied⟩ := stepped
    have same : other = effect := (alone other).mp (by rw [applied])
    subst same
    exact ⟨evaluated, by rw [applied]⟩
  · intro stepped
    obtain ⟨evaluated, reached⟩ := stepped
    exact ⟨effect, evaluated, Prod.ext reached.symm ((alone effect).mpr rfl)⟩

/-- A machine that asks for a value has decoded an input instruction and no parameter of it. -/
theorem pauses_needInput {machine next : Machine} :
    machine.Pauses next (.ok .needInput) ↔
      machine.fetch.evaluate = .ok .await ∧
        next = { machine.fetch with ip := machine.ip + 1, status := .awaitingInput } := by
  apply pauses_event
  intro other
  cases other <;> simp [apply]

theorem pauses_output {machine next : Machine} {value : Cell} :
    machine.Pauses next (.ok (.output value)) ↔
      machine.fetch.evaluate = .ok (.emit value) ∧
        next = { machine.fetch with ip := machine.ip + 2 } := by
  apply pauses_event
  intro other
  cases other <;> simp [apply]

theorem pauses_halted {machine next : Machine} :
    machine.Pauses next (.ok .halted) ↔
      machine.fetch.evaluate = .ok .halt ∧
        next = { machine.fetch with ip := machine.ip + 1, status := .halted } := by
  apply pauses_event
  intro other
  cases other <;> simp [apply]

theorem pauses_trap {machine next : Machine} {trap : Trap} :
    machine.Pauses next (.error trap) ↔
      machine.fetch.evaluate = .error trap.fault ∧ next = machine.fetch ∧
        trap.address = machine.ip := by
  rw [Pauses, Except.map, step_eq_error]

theorem continues_or_pauses (machine : Machine) :
    (∃ next, machine.Continues next) ∨ ∃ next result, machine.Pauses next result := by
  rcases stepped : machine.step with ⟨next, trap | none | event⟩
  · exact .inr ⟨next, .error trap, stepped⟩
  · exact .inl ⟨next, stepped⟩
  · exact .inr ⟨next, .ok event, stepped⟩

theorem advance_of_continues {machine next : Machine} (continues : machine.Continues next)
    (budget : Nat) : advance (budget + 1) machine = advance budget next := by
  rw [advance, continues]

theorem advance_of_pauses {machine next : Machine} {result : Except Trap Event}
    (pauses : machine.Pauses next result) (budget : Nat) :
    advance (budget + 1) machine = some (next, result) := by
  rw [advance, pauses]
  cases result <;> rfl

/-- The result of a run is that of the instruction which the machine executed last. -/
theorem pauses_of_advance {budget : Nat} {machine next : Machine} {result : Except Trap Event}
    (advanced : advance budget machine = some (next, result)) :
    ∃ last, machine.Executes last ∧ last.Pauses next result := by
  induction budget generalizing machine with
  | zero => cases advanced
  | succ budget inductionHypothesis =>
      rcases machine.continues_or_pauses with ⟨second, continues⟩ | ⟨second, stopped, pauses⟩
      · rw [advance_of_continues continues] at advanced
        obtain ⟨last, executes, pauses⟩ := inductionHypothesis advanced
        exact ⟨last, executes.head continues, pauses⟩
      · rw [advance_of_pauses pauses] at advanced
        cases advanced
        exact ⟨machine, .refl, pauses⟩

/-- A larger budget does not change the result of a run. -/
theorem advance_mono {budget more : Nat} {machine : Machine} {answer : Machine × Except Trap Event}
    (advanced : advance budget machine = some answer) (within : budget ≤ more) :
    advance more machine = some answer := by
  induction budget generalizing machine more with
  | zero => cases advanced
  | succ budget inductionHypothesis =>
      obtain ⟨more, rfl⟩ := Nat.exists_eq_add_of_lt within
      rcases machine.continues_or_pauses with ⟨second, continues⟩ | ⟨second, stopped, pauses⟩
      · rw [advance_of_continues continues] at advanced ⊢
        exact inductionHypothesis advanced (Nat.le_add_right budget more)
      · rw [advance_of_pauses pauses] at advanced ⊢
        exact advanced

/-- What holds of a machine and is kept by each instruction holds as long as it executes. -/
theorem Executes.keeps {Invariant : Machine → Prop} {machine last : Machine}
    (executes : machine.Executes last)
    (keeps : ∀ first second, Invariant first → first.Continues second → Invariant second)
    (holds : Invariant machine) : Invariant last := by
  induction executes with
  | refl => exact holds
  | tail _ continues inductionHypothesis => exact keeps _ _ inductionHypothesis continues

theorem Continues.status {machine next : Machine} (continues : machine.Continues next) :
    next.status = machine.status := by
  obtain ⟨effect, _, applied⟩ := step_eq_ok.mp continues
  cases effect <;> cases applied <;> rfl

theorem Pauses.status_of_output {machine next : Machine} {value : Cell}
    (pauses : machine.Pauses next (.ok (.output value))) : next.status = machine.status := by
  obtain ⟨_, rfl⟩ := pauses_output.mp pauses
  rfl

theorem Pauses.status_of_needInput {machine next : Machine}
    (pauses : machine.Pauses next (.ok .needInput)) : next.status = .awaitingInput := by
  obtain ⟨_, rfl⟩ := pauses_needInput.mp pauses
  rfl

theorem Executes.status {machine last : Machine} (executes : machine.Executes last) :
    last.status = machine.status :=
  executes.keeps (fun _ _ same continues => continues.status.trans same) rfl

end Intcode.Machine
