/-
This file shows that pauses do not matter to a program: a machine that is run to
completion gives what the interpreter gives.
-/

import Intcode.Proofs.Completion
import Intcode.Proofs.Simulation

namespace Intcode

namespace Interpreter

variable {state : Interpreter} {machine next : Machine}

theorem Simulates.leftover_of_trap {trap : Trap} (simulates : state.Simulates machine)
    (pauses : machine.Pauses next (.error trap)) : state.leftover = state.input := by
  apply simulates.fetch.leftover
  rw [(Machine.pauses_trap.mp pauses).1]
  exact fun same => nomatch same

theorem Simulates.leftover_of_halted (simulates : state.Simulates machine)
    (pauses : machine.Pauses next (.ok .halted)) : state.leftover = state.input := by
  apply simulates.fetch.leftover
  rw [(Machine.pauses_halted.mp pauses).1]
  exact fun same => nomatch same

/-- Output that comes behind `emitted` comes behind what was there before, too. -/
theorem map_append_map (result : Except Trap (List Cell)) (before emitted : List Cell) :
    (result.map (emitted ++ ·)).map (before ++ ·) = result.map (before ++ emitted ++ ·) := by
  cases result with
  | error trap => rfl
  | ok values => simp [Except.map]

/-- The interpreter ends with what a machine completes with. -/
theorem Simulates.ends_of_completes {values rest : List Cell} {result : Except Trap (List Cell)}
    (completes : machine.Completes values result rest) (simulates : state.Simulates machine)
    (given : state.input = values) :
    ∃ last, state.Executes last ∧ last.Stops (result.map (state.output ++ ·)) ∧
      last.leftover = rest := by
  induction completes generalizing state with
  | continues continues _ inductionHypothesis =>
      obtain ⟨following, stepped, follows, sameInput, sameOutput⟩ := simulates.continues continues
      obtain ⟨last, executes, stops, left⟩ := inductionHypothesis follows (sameInput.trans given)
      rw [sameOutput] at stops
      exact ⟨last, executes.head stepped, stops, left⟩
  | trap pauses =>
      exact ⟨state, .refl, simulates.trap pauses, (simulates.leftover_of_trap pauses).trans given⟩
  | halted pauses =>
      refine ⟨state, .refl, ?_, (simulates.leftover_of_halted pauses).trans given⟩
      simpa [Except.map] using simulates.halted pauses
  | @output _ _ value _ _ result pauses _ inductionHypothesis =>
      obtain ⟨following, stepped, follows, sameInput, moreOutput⟩ := simulates.output pauses
      obtain ⟨last, executes, stops, left⟩ := inductionHypothesis follows (sameInput.trans given)
      rw [moreOutput, ← map_append_map] at stops
      exact ⟨last, executes.head stepped, stops, left⟩
  | missing pauses =>
      have awaits := simulates.needInput pauses
      refine ⟨state, .refl, awaits.missing given, ?_⟩
      rw [awaits.leftover, given, List.tail_nil]
  | unstored pauses supplied =>
      have awaits := simulates.needInput pauses
      refine ⟨state, .refl, awaits.unstored given supplied, ?_⟩
      rw [awaits.leftover, given, List.tail_cons]
  | stored pauses supplied _ inductionHypothesis =>
      have awaits := simulates.needInput pauses
      obtain ⟨following, stepped, follows, input, sameOutput⟩ := awaits.supplied given supplied
      obtain ⟨last, executes, stops, left⟩ := inductionHypothesis follows input
      rw [sameOutput] at stops
      exact ⟨last, executes.head stepped, stops, left⟩

/-- Either the program stops and the machine completes at once, or both go on to the next
instruction. -/
theorem Simulates.turn (simulates : state.Simulates machine) :
    (∃ result, state.Stops (result.map (state.output ++ ·)) ∧
      machine.Completes state.input result state.leftover) ∨
    ∃ following start emitted, state.Continues following ∧ following.Simulates start ∧
      following.output = state.output ++ emitted ∧
      ∀ result rest, start.Completes following.input result rest →
        machine.Completes state.input (result.map (emitted ++ ·)) rest := by
  have same : ∀ result : Except Trap (List Cell), result.map ([] ++ ·) = result := by
    rintro (trap | values) <;> rfl
  rcases machine.continues_or_pauses with ⟨next, continues⟩ | ⟨next, trap | event, pauses⟩
  · obtain ⟨following, stepped, follows, sameInput, sameOutput⟩ := simulates.continues continues
    refine .inr ⟨following, next, [], stepped, follows, by simp [sameOutput], ?_⟩
    intro result rest completes
    rw [sameInput] at completes
    rw [same]
    exact .continues continues completes
  · refine .inl ⟨.error trap, simulates.trap pauses, ?_⟩
    rw [simulates.leftover_of_trap pauses]
    exact .trap pauses
  cases event with
  | halted =>
      refine .inl ⟨.ok [], by simpa [Except.map] using simulates.halted pauses, ?_⟩
      rw [simulates.leftover_of_halted pauses]
      exact .halted pauses
  | output value =>
      obtain ⟨following, stepped, follows, sameInput, moreOutput⟩ := simulates.output pauses
      refine .inr ⟨following, next, [value], stepped, follows, moreOutput, ?_⟩
      intro result rest completes
      rw [sameInput] at completes
      exact .output pauses completes
  | needInput =>
      have awaits := simulates.needInput pauses
      rcases given : state.input with _ | ⟨value, values⟩
      · refine .inl ⟨.error ⟨.missingInput, next.instruction⟩, awaits.missing given, ?_⟩
        rw [awaits.leftover, given]
        exact .missing pauses
      rcases supplied : next.supply value with ⟨start, trap | ⟨⟩⟩
      · refine .inl ⟨.error trap, awaits.unstored given supplied, ?_⟩
        rw [awaits.leftover, given]
        exact .unstored pauses supplied
      · obtain ⟨following, stepped, follows, input, sameOutput⟩ := awaits.supplied given supplied
        refine .inr ⟨following, start, [], stepped, follows, by simp [sameOutput], ?_⟩
        intro result rest completes
        rw [input] at completes
        rw [same]
        exact .stored pauses supplied completes

/-- A machine completes with what the interpreter ends with. -/
theorem Simulates.completes_of_ends {last : Interpreter} {final : Except Trap (List Cell)}
    (executes : state.Executes last) (stops : last.Stops final) (simulates : state.Simulates machine) :
    ∃ result, final = result.map (state.output ++ ·) ∧
      machine.Completes state.input result last.leftover := by
  induction executes using Relation.ReflTransGen.head_induction_on generalizing machine with
  | refl =>
      rcases simulates.turn with ⟨result, ended, completes⟩ | ⟨following, _, _, stepped, _⟩
      · exact ⟨result, stops.unique ended, completes⟩
      · exact absurd stepped stops.not_continues
  | head stepped _ inductionHypothesis =>
      rcases simulates.turn with
        ⟨result, ended, _⟩ | ⟨following, start, emitted, follows, simulates, output, completes⟩
      · exact absurd stepped ended.not_continues
      · cases stepped.unique follows
        obtain ⟨result, rfl, later⟩ := inductionHypothesis simulates
        refine ⟨result.map (emitted ++ ·), ?_, completes result _ later⟩
        rw [map_append_map, output]

theorem load_simulates (program : Program) (values : List Cell) :
    (load program values).Simulates (started program) where
  memory := Memory.read_load program
  ip := rfl
  base := rfl

/-- A machine with a program loaded completes as the interpreter ends, with the same values left. -/
theorem completes_started_iff {program : Program} {values rest : List Cell}
    {result : Except Trap (List Cell)} :
    (started program).Completes values result rest ↔
      ∃ last, (load program values).Executes last ∧ last.Stops result ∧ last.leftover = rest := by
  have same : ∀ result : Except Trap (List Cell),
      result.map ((load program values).output ++ ·) = result := by
    rintro (trap | outputs) <;> rfl
  have simulates := load_simulates program values
  constructor
  · intro completes
    obtain ⟨last, executes, stops, left⟩ := simulates.ends_of_completes completes rfl
    rw [same] at stops
    exact ⟨last, executes, stops, left⟩
  · intro ends
    obtain ⟨last, executes, stops, rfl⟩ := ends
    obtain ⟨result, rfl, completes⟩ := simulates.completes_of_ends executes stops
    rw [same]
    exact completes

end Interpreter

/-- The values that are left over are the last ones that were given. -/
theorem Machine.Completes.suffix {machine : Machine} {values rest : List Cell}
    {result : Except Trap (List Cell)} (completes : machine.Completes values result rest) :
    rest <:+ values := by
  induction completes with
  | continues _ _ inductionHypothesis => exact inductionHypothesis
  | trap | halted | missing => exact List.suffix_refl _
  | output _ _ inductionHypothesis => exact inductionHypothesis
  | unstored => exact List.suffix_cons _ _
  | stored _ _ _ inductionHypothesis => exact inductionHypothesis.trans (List.suffix_cons _ _)

/-- Pauses do not show in what a program does. It outputs the same values as it does in the
interpreter, stops at the same fault or does not stop at all, and it takes the same values of
its input in the same order. -/
theorem run_agrees_with_interpreter (program : Program) (values : List Cell) :
    (∀ outputs, (∃ budget, run budget program values = some (.ok outputs)) ↔
      ∃ last, (Interpreter.load program values).Executes last ∧
        last.code % 100 = 99 ∧ last.output = outputs) ∧
    (∀ trap, (∃ budget, run budget program values = some (.error trap)) ↔
      ∃ last, (Interpreter.load program values).Executes last ∧
        last.step = .error trap.fault ∧ last.ip = trap.address) ∧
    ((∀ budget, run budget program values = none) ↔ Interpreter.Diverges program values) ∧
    ∀ result rest, (started program).Completes values result rest ↔
      rest <:+ values ∧ ∃ last, (Interpreter.load program values).Executes last ∧
        last.Stops result ∧ last.leftover = rest := by
  have ends (result : Except Trap (List Cell)) :
      (∃ budget, run budget program values = some result) ↔
        Interpreter.Ends program values result := by
    simp only [run_eq_some, Interpreter.completes_started_iff, Interpreter.Ends]
    constructor
    · intro completed
      obtain ⟨rest, last, executes, stops, _⟩ := completed
      exact ⟨last, executes, stops⟩
    · intro ended
      obtain ⟨last, executes, stops⟩ := ended
      exact ⟨last.leftover, last, executes, stops, rfl⟩
  refine ⟨fun outputs => ?_, fun trap => ends (.error trap), ?_, fun result rest => ?_⟩
  · simp only [ends, Interpreter.Ends, Interpreter.Stops, Interpreter.step_eq_none]
  · rw [Interpreter.diverges_iff]
    constructor
    · intro endless result ended
      obtain ⟨budget, completed⟩ := (ends result).mpr ended
      rw [endless budget] at completed
      cases completed
    · intro endless budget
      cases completed : run budget program values with
      | none => rfl
      | some result => exact absurd ((ends result).mp ⟨budget, completed⟩) (endless result)
  · rw [← Interpreter.completes_started_iff]
    exact ⟨fun completes => ⟨completes.suffix, completes⟩, fun both => both.2⟩

end Intcode
