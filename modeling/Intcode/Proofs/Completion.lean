/-
This file describes how a machine is run to completion, without a budget. A run
that completes does so with every budget that is large enough.
-/

import Intcode.Proofs.Session
import Intcode.Run

namespace Intcode

namespace Machine

/-- A running machine that is given `values` completes with a result, and `rest` is left over. -/
inductive Completes : Machine → List Cell → Except Trap (List Cell) → List Cell → Prop where
  | continues {machine next : Machine} {values rest : List Cell} {result : Except Trap (List Cell)}
      (continues : machine.Continues next) (completes : Completes next values result rest) :
      Completes machine values result rest
  | trap {machine next : Machine} {values : List Cell} {trap : Trap}
      (pauses : machine.Pauses next (.error trap)) : Completes machine values (.error trap) values
  | halted {machine next : Machine} {values : List Cell}
      (pauses : machine.Pauses next (.ok .halted)) : Completes machine values (.ok []) values
  | output {machine next : Machine} {value : Cell} {values rest : List Cell}
      {result : Except Trap (List Cell)} (pauses : machine.Pauses next (.ok (.output value)))
      (completes : Completes next values result rest) :
      Completes machine values (result.map (value :: ·)) rest
  | missing {machine next : Machine} (pauses : machine.Pauses next (.ok .needInput)) :
      Completes machine [] (.error ⟨.missingInput, next.instruction⟩) []
  | unstored {machine next failed : Machine} {value : Cell} {values : List Cell} {trap : Trap}
      (pauses : machine.Pauses next (.ok .needInput))
      (supplied : next.supply value = (failed, .error trap)) :
      Completes machine (value :: values) (.error trap) values
  | stored {machine next start : Machine} {value : Cell} {values rest : List Cell}
      {result : Except Trap (List Cell)} (pauses : machine.Pauses next (.ok .needInput))
      (supplied : next.supply value = (start, .ok ()))
      (completes : Completes start values result rest) :
      Completes machine (value :: values) result rest

theorem Executes.completes {machine last : Machine} {values rest : List Cell}
    {result : Except Trap (List Cell)} (executes : machine.Executes last)
    (completes : last.Completes values result rest) : machine.Completes values result rest := by
  induction executes using Relation.ReflTransGen.head_induction_on with
  | refl => exact completes
  | head continues _ inductionHypothesis => exact .continues continues inductionHypothesis

section Answers

variable {budget : Nat} {machine next : Machine} {supplied : Option Cell} {value : Cell}
  {values : List Cell}

theorem complete_trap {trap : Trap}
    (resumed : machine.resume (budget + 1) supplied = some (next, .error trap)) :
    machine.complete (budget + 1) supplied values = some (.error trap) := by
  rw [complete, resumed]

theorem complete_halted
    (resumed : machine.resume (budget + 1) supplied = some (next, .ok .halted)) :
    machine.complete (budget + 1) supplied values = some (.ok []) := by
  rw [complete, resumed]

theorem complete_output
    (resumed : machine.resume (budget + 1) supplied = some (next, .ok (.output value))) :
    machine.complete (budget + 1) supplied values =
      (next.complete budget none values).map (·.map (value :: ·)) := by
  rw [complete, resumed]

theorem complete_missing
    (resumed : machine.resume (budget + 1) supplied = some (next, .ok .needInput)) :
    machine.complete (budget + 1) supplied [] =
      some (.error ⟨.missingInput, next.instruction⟩) := by
  rw [complete, resumed]

theorem complete_given
    (resumed : machine.resume (budget + 1) supplied = some (next, .ok .needInput)) :
    machine.complete (budget + 1) supplied (value :: values) =
      next.complete budget (some value) values := by
  rw [complete, resumed]

/-- A call that does not return within the budget leaves the run without a result. -/
theorem complete_none (resumed : machine.resume (budget + 1) supplied = none) :
    machine.complete (budget + 1) supplied values = none := by
  rw [complete, resumed]

end Answers

/-- A larger budget does not change the result of a completed run. -/
theorem complete_mono {budget more : Nat} {machine : Machine} {supplied : Option Cell}
    {values : List Cell} {result : Except Trap (List Cell)}
    (completed : machine.complete budget supplied values = some result)
    (within : budget ≤ more) : machine.complete more supplied values = some result := by
  induction budget generalizing machine supplied values result more with
  | zero => cases completed
  | succ budget inductionHypothesis =>
      obtain ⟨more, rfl⟩ := Nat.exists_eq_add_of_lt within
      have shorter : budget ≤ budget + more := Nat.le_add_right budget more
      rcases resumed : machine.resume (budget + 1) supplied with _ | ⟨next, trap | event⟩
      · rw [complete_none resumed] at completed
        cases completed
      · rw [complete_trap resumed] at completed
        rw [complete_trap (resume_mono resumed within), completed]
      have longer := resume_mono resumed within
      cases event with
      | halted =>
          rw [complete_halted resumed] at completed
          rw [complete_halted longer, completed]
      | output value =>
          rw [complete_output resumed] at completed
          obtain ⟨tail, finished, rfl⟩ := Option.map_eq_some_iff.mp completed
          rw [complete_output longer, inductionHypothesis finished shorter, Option.map_some]
      | needInput =>
          cases values with
          | nil =>
              rw [complete_missing resumed] at completed
              rw [complete_missing longer, completed]
          | cons value rest =>
              rw [complete_given resumed] at completed
              rw [complete_given longer, inductionHypothesis completed shorter]

/-- A run goes on from a supplied value as it does from the instruction behind. -/
theorem complete_supplied {machine start : Machine} {value : Cell}
    (awaits : machine.status = .awaitingInput) (stored : machine.supply value = (start, .ok ()))
    (budget : Nat) (values : List Cell) :
    machine.complete budget (some value) values = start.complete budget none values := by
  have running : start.status = .running := (Starts.supplied awaits stored).status
  cases budget with
  | zero => rfl
  | succ budget =>
      unfold complete
      rw [resume_supplied awaits stored, resume_running running]

/-- A run that starts one instruction earlier has the same result. -/
theorem complete_continues {machine next : Machine} (running : machine.status = .running)
    (continues : machine.Continues next) {budget : Nat} {values : List Cell}
    {result : Except Trap (List Cell)} (completed : next.complete budget none values = some result) :
    machine.complete (budget + 1) none values = some result := by
  have follows : next.status = .running := continues.status.trans running
  cases budget with
  | zero => cases completed
  | succ budget =>
      rcases resumed : next.resume (budget + 1) none with _ | ⟨reached, answer⟩
      · rw [complete_none resumed] at completed
        cases completed
      -- Both machines come to the same pause, so both runs go on alike behind it.
      have earlier : machine.resume (budget + 1 + 1) none = some (reached, answer) := by
        rw [resume_running running, advance_of_continues continues, ← resume_running follows, resumed]
      have later := resume_mono resumed (Nat.le_succ (budget + 1))
      have longer := complete_mono completed (Nat.le_succ (budget + 1))
      unfold complete at longer ⊢
      rw [earlier]
      rw [later] at longer
      exact longer

theorem completes_of_complete {budget : Nat} {machine : Machine} {values : List Cell}
    {result : Except Trap (List Cell)} (running : machine.status = .running)
    (completed : machine.complete budget none values = some result) :
    ∃ rest, machine.Completes values result rest := by
  induction budget generalizing machine values result with
  | zero => cases completed
  | succ budget inductionHypothesis =>
      rcases resumed : machine.resume (budget + 1) none with _ | ⟨next, paused⟩
      · rw [complete_none resumed] at completed
        cases completed
      have advanced := resumed
      rw [resume_running running] at advanced
      obtain ⟨last, executes, pauses⟩ := pauses_of_advance advanced
      suffices ∃ rest, last.Completes values result rest by
        obtain ⟨rest, completes⟩ := this
        exact ⟨rest, executes.completes completes⟩
      rcases paused with trap | event
      · rw [complete_trap resumed] at completed
        cases completed
        exact ⟨values, .trap pauses⟩
      cases event with
      | halted =>
          rw [complete_halted resumed] at completed
          cases completed
          exact ⟨values, .halted pauses⟩
      | output value =>
          rw [complete_output resumed] at completed
          obtain ⟨tail, finished, rfl⟩ := Option.map_eq_some_iff.mp completed
          have resumes := pauses.status_of_output.trans (executes.status.trans running)
          obtain ⟨rest, completes⟩ := inductionHypothesis resumes finished
          exact ⟨rest, .output pauses completes⟩
      | needInput =>
          cases values with
          | nil =>
              rw [complete_missing resumed] at completed
              cases completed
              exact ⟨[], .missing pauses⟩
          | cons value values =>
              rw [complete_given resumed] at completed
              have awaits := pauses.status_of_needInput
              rcases supplied : next.supply value with ⟨start, trap | ⟨⟩⟩
              · cases budget with
                | zero => cases completed
                | succ budget =>
                    rw [complete_trap (resume_eq_some.mpr (.unstored awaits supplied))] at completed
                    cases completed
                    exact ⟨values, .unstored pauses supplied⟩
              · rw [complete_supplied awaits supplied] at completed
                have starts := (Starts.supplied awaits supplied).status
                obtain ⟨rest, completes⟩ := inductionHypothesis starts completed
                exact ⟨rest, .stored pauses supplied completes⟩

theorem complete_of_completes {machine : Machine} {values rest : List Cell}
    {result : Except Trap (List Cell)} (completes : machine.Completes values result rest)
    (running : machine.status = .running) :
    ∃ budget, machine.complete budget none values = some result := by
  induction completes with
  | continues continues _ inductionHypothesis =>
      obtain ⟨budget, completed⟩ := inductionHypothesis (continues.status.trans running)
      exact ⟨budget + 1, complete_continues running continues completed⟩
  | trap pauses => exact ⟨1, complete_trap (resume_of_pauses running pauses 0)⟩
  | halted pauses => exact ⟨1, complete_halted (resume_of_pauses running pauses 0)⟩
  | output pauses _ inductionHypothesis =>
      obtain ⟨budget, completed⟩ := inductionHypothesis (pauses.status_of_output.trans running)
      refine ⟨budget + 1, ?_⟩
      rw [complete_output (resume_of_pauses running pauses budget), completed, Option.map_some]
  | missing pauses => exact ⟨1, complete_missing (resume_of_pauses running pauses 0)⟩
  | unstored pauses supplied =>
      refine ⟨2, ?_⟩
      rw [complete_given (resume_of_pauses running pauses 1),
        complete_trap (resume_eq_some.mpr (.unstored pauses.status_of_needInput supplied))]
  | stored pauses supplied _ inductionHypothesis =>
      have awaits := pauses.status_of_needInput
      obtain ⟨budget, completed⟩ := inductionHypothesis (Starts.supplied awaits supplied).status
      refine ⟨budget + 1, ?_⟩
      rw [complete_given (resume_of_pauses running pauses budget), complete_supplied awaits supplied, completed]

end Machine

/-- The machine that a program's first instruction is executed on. -/
def started (program : Program) : Machine :=
  { Machine.load program with status := .running }

theorem run_eq (budget : Nat) (program : Program) (values : List Cell) :
    run budget program values = (started program).complete budget none values := by
  cases budget with
  | zero => rfl
  | succ budget =>
      have same : (Machine.load program).resume (budget + 1) none =
          (started program).resume (budget + 1) none := rfl
      unfold run Machine.complete
      rw [same]

/-- The results of a program are those with which its machine completes. -/
theorem run_eq_some {program : Program} {values : List Cell} {result : Except Trap (List Cell)} :
    (∃ budget, run budget program values = some result) ↔
      ∃ rest, (started program).Completes values result rest := by
  constructor
  · intro returns
    obtain ⟨budget, completed⟩ := returns
    rw [run_eq] at completed
    exact Machine.completes_of_complete rfl completed
  · intro ends
    obtain ⟨rest, completes⟩ := ends
    obtain ⟨budget, completed⟩ := Machine.complete_of_completes completes rfl
    exact ⟨budget, by rw [run_eq, completed]⟩

end Intcode
