/-
This file compares dialogues on some values with dialogues on more. They are the same
up to the point where the first one asks for a value that it has not got.
-/

import Intcode.Proofs.Conversation

namespace Intcode

/-- What a dialogue on fewer values says of one on more: they are the same, or the first ran
short and what it had output by then is output in the other, too. -/
inductive Foretells : Option Dialogue → Option Dialogue → Prop where
  | same (dialogue : Option Dialogue) : Foretells dialogue dialogue
  | short {dialogue : Dialogue} {shortage : Shortage} {later : Option Dialogue}
      (broken : dialogue.breakdown = some (.shortage shortage))
      (onward : ∀ longer, later = some longer → dialogue.outputs <+: longer.outputs) :
      Foretells (some dialogue) later

theorem Foretells.precede {earlier later : Option Dialogue} (foretells : Foretells earlier later)
    (value : Cell) :
    Foretells (earlier.map (Dialogue.precede value)) (later.map (Dialogue.precede value)) := by
  cases foretells with
  | same => exact .same _
  | short broken onward =>
      refine .short broken ?_
      intro longer ended
      obtain ⟨tail, finished, rfl⟩ := Option.map_eq_some_iff.mp ended
      exact List.cons_prefix_cons.mpr ⟨rfl, onward tail finished⟩

/-- A dialogue that did not run short goes as it did, whatever else could have been given. -/
theorem Foretells.of_complete {dialogue : Dialogue} {later : Option Dialogue}
    (foretells : Foretells (some dialogue) later)
    (complete : ∀ shortage, dialogue.breakdown ≠ some (.shortage shortage)) :
    later = some dialogue := by
  cases foretells with
  | same => rfl
  | short broken => exact absurd broken (complete _)

/-- If a dialogue on more values ends, then one on fewer values does. -/
theorem Foretells.of_ended {earlier : Option Dialogue} {longer : Dialogue}
    (foretells : Foretells earlier (some longer)) :
    ∃ dialogue, earlier = some dialogue ∧ dialogue.outputs <+: longer.outputs ∧
      (dialogue = longer ∨ ∃ shortage, dialogue.breakdown = some (.shortage shortage)) := by
  cases foretells with
  | same => exact ⟨longer, rfl, List.prefix_refl _, .inl rfl⟩
  | short broken onward => exact ⟨_, rfl, onward longer rfl, .inr ⟨_, broken⟩⟩

/-- Until a machine asks for a value that is not queued, no further value plays a part. -/
theorem Machine.converse_foretells (budget : Nat) (machine : Machine) (supplied : Option Cell)
    (queue more : List Cell) (feed : Feed) :
    Foretells (machine.converse budget supplied queue .nothing)
      (machine.converse budget supplied (queue ++ more) feed) := by
  induction budget generalizing machine supplied queue with
  | zero => exact .same _
  | succ budget inductionHypothesis =>
      rcases resumed : machine.resume (budget + 1) supplied with _ | ⟨next, trap | event⟩
      · rw [converse_none resumed, converse_none resumed]
        exact .same _
      · rw [converse_trap resumed, converse_trap resumed]
        exact .same _
      cases event with
      | halted =>
          rw [converse_halted resumed, converse_halted resumed]
          exact .same _
      | output value =>
          rw [converse_output resumed, converse_output resumed]
          exact (inductionHypothesis next none queue).precede value
      | needInput =>
          rcases queue with _ | ⟨value, queue⟩
          -- The shorter dialogue ends here. What the longer one goes on to say is left open.
          · rw [converse_short resumed rfl]
            exact .short rfl fun longer _ => List.nil_prefix
          · rw [List.cons_append, converse_queued resumed, converse_queued resumed]
            exact inductionHypothesis next (some value) queue

theorem converse_foretells (budget : Nat) (program : Program) (queue more : List Cell)
    (feed : Feed) :
    Foretells (converse budget program queue .nothing)
      (converse budget program (queue ++ more) feed) :=
  Machine.converse_foretells budget (.load program) none queue more feed

/-- A run that does not lack a value ends alike if there are more. -/
theorem run_append {budget : Nat} {program : Program} {values : List Cell}
    {result : Except Trap (List Cell)} (ended : run budget program values = some result)
    (sufficient : ∀ address, result ≠ .error ⟨.missingInput, address⟩) (more : List Cell) :
    run budget program (values ++ more) = some result := by
  rw [run_eq_converse] at ended ⊢
  obtain ⟨dialogue, conversed, rfl⟩ := Option.map_eq_some_iff.mp ended
  have complete : ∀ shortage, dialogue.breakdown ≠ some (.shortage shortage) := by
    intro shortage broken
    apply sufficient dialogue.machine.instruction
    rw [Dialogue.result, broken]
  have foretells := converse_foretells budget program values more .nothing
  rw [conversed] at foretells
  rw [foretells.of_complete complete, Option.map_some]

/-- A run that lacks a value lacks one on fewer values, too. -/
theorem run_missing_of_append {budget address : Nat} {program : Program} {fewer rest : List Cell}
    (ended : run budget program (fewer ++ rest) = some (.error ⟨.missingInput, address⟩)) :
    ∃ earlier, run budget program fewer = some (.error ⟨.missingInput, earlier⟩) := by
  simp only [run_eq_converse] at ended ⊢
  obtain ⟨longer, conversed, missing⟩ := Option.map_eq_some_iff.mp ended
  have foretells := converse_foretells budget program fewer rest .nothing
  rw [conversed] at foretells
  obtain ⟨dialogue, ended, _, rfl | ⟨shortage, broken⟩⟩ := foretells.of_ended
  · exact ⟨address, by rw [ended, Option.map_some, missing]⟩
  · refine ⟨dialogue.machine.instruction, ?_⟩
    rw [ended, Option.map_some, Dialogue.result, broken]

/-- What is output on some values is the beginning of what is output on more. -/
theorem outputs_prefix_of_append {budget larger : Nat} {program : Program}
    {queue more : List Cell} {short long : Dialogue}
    (conversed : converse budget program queue .nothing = some short)
    (continued : converse larger program (queue ++ more) .nothing = some long) :
    short.outputs <+: long.outputs := by
  have foretells := converse_foretells (max budget larger) program queue more .nothing
  rw [converse_mono conversed (Nat.le_max_left _ _),
    converse_mono continued (Nat.le_max_right _ _)] at foretells
  obtain ⟨dialogue, same, onward, _⟩ := foretells.of_ended
  cases same
  exact onward

/-- A value is taken only when it is asked for. A run that does not lack a value ends alike if
there are more, a run that lacks one lacks one on fewer values, too, and what is output on some
values is the beginning of what is output on more. -/
theorem input_is_taken_on_demand (program : Program) (values more : List Cell) :
    (∀ budget result, run budget program values = some result →
      (∀ address, result ≠ .error ⟨.missingInput, address⟩) →
      run budget program (values ++ more) = some result) ∧
    (∀ budget address, run budget program values = some (.error ⟨.missingInput, address⟩) →
      ∀ fewer, fewer <+: values →
        ∃ earlier, run budget program fewer = some (.error ⟨.missingInput, earlier⟩)) ∧
    ∀ budget larger short long, converse budget program values .nothing = some short →
      converse larger program (values ++ more) .nothing = some long →
      short.outputs <+: long.outputs := by
  refine ⟨?_, ?_, ?_⟩
  · intro budget result ended sufficient
    exact run_append ended sufficient more
  · rintro budget address ended fewer ⟨rest, rfl⟩
    exact run_missing_of_append ended
  · intro budget larger short long conversed continued
    exact outputs_prefix_of_append conversed continued

/-- A program that outputs each of its two values leaves a third one alone, and lacks a value
both on one value and on none. -/
theorem echo_takes_input_on_demand :
    let program : Program := [3, 0, 4, 0, 3, 0, 4, 0, 99]
    run 6 program [7, 8] = some (.ok [7, 8]) ∧ run 6 program ([7, 8] ++ [9]) = some (.ok [7, 8]) ∧
    run 6 program [7] = some (.error ⟨.missingInput, 4⟩) ∧
    ∃ earlier, run 6 program [] = some (.error ⟨.missingInput, earlier⟩) := by
  intro program
  have ended : run 6 program [7, 8] = some (.ok [7, 8]) := by decide
  have missing : run 6 program [7] = some (.error ⟨.missingInput, 4⟩) := by decide
  refine ⟨ended, ?_, missing, ?_⟩
  · exact (input_is_taken_on_demand program [7, 8] [9]).1 6 _ ended nofun
  · exact (input_is_taken_on_demand program [7] []).2.1 6 4 missing [] List.nil_prefix

end Intcode
