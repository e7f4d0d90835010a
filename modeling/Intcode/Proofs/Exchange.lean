/-
This file describes exchanges, which are sessions in which no call fails. A dialogue
on the values of an exchange goes through the same machines, and the calls of every
dialogue are an exchange up to the one that ends it.
-/

import Intcode.Proofs.Conversation

namespace Intcode

/-- The values that an event brings. -/
def Event.emitted : Event → List Cell
  | output value => [value]
  | _ => []

/-- The dialogue that begins with further outputs. -/
def Dialogue.after (outputs : List Cell) (dialogue : Dialogue) : Dialogue :=
  { dialogue with outputs := outputs ++ dialogue.outputs }

theorem Dialogue.after_after (first second : List Cell) (dialogue : Dialogue) :
    (dialogue.after second).after first = dialogue.after (first ++ second) := by
  simp [after]

namespace Machine

/-- Calls that all succeed, in which the machine is given some values and returns others. -/
inductive Exchange (machine : Machine) : List Cell → List Cell → Machine → Prop where
  | opened : Exchange machine [] [] machine
  | called {given outputs : List Cell} {last next : Machine} {budget : Nat} {input : Option Cell}
      {event : Event} (exchange : Exchange machine given outputs last)
      (call : last.resume budget input = some (next, .ok event)) :
      Exchange machine (given ++ input.toList) (outputs ++ event.emitted) next

/-- A dialogue without a feed that goes this way, with some budget. -/
def Converses (machine : Machine) (supplied : Option Cell) (queue : List Cell)
    (dialogue : Dialogue) : Prop :=
  ∃ budget, machine.converse budget supplied queue .nothing = some dialogue

/-- A dialogue ends in one way only. -/
theorem Converses.unique {machine : Machine} {supplied : Option Cell} {queue : List Cell}
    {dialogue other : Dialogue} (conversed : machine.Converses supplied queue dialogue)
    (again : machine.Converses supplied queue other) : dialogue = other := by
  obtain ⟨budget, conversed⟩ := conversed
  obtain ⟨more, again⟩ := again
  have first := converse_mono conversed (Nat.le_max_left budget more)
  have second := converse_mono again (Nat.le_max_right budget more)
  exact Option.some.inj (first.symm.trans second)

section Calls

variable {budget : Nat} {machine next : Machine} {input : Option Cell} {event : Event}
  {queue : List Cell} {dialogue : Dialogue}

/-- A call to a machine that has halted does not succeed. -/
theorem live_of_call (call : machine.resume budget input = some (next, .ok event)) :
    machine.status ≠ .halted := by
  intro halted
  simp [resume, halted] at call

/-- A call succeeds with a value only if the machine waits for one. -/
theorem awaits_of_call {value : Cell}
    (call : machine.resume budget (some value) = some (next, .ok event)) :
    machine.status = .awaitingInput := by
  cases resume_eq_some.mp call with
  | executed starts =>
      cases starts with
      | supplied awaits => exact awaits

/-- A dialogue that begins with a call goes on as one with the machine that the call leaves. -/
theorem Converses.of_call (call : machine.resume budget input = some (next, .ok event))
    (live : event ≠ .halted) (later : next.Converses none queue dialogue) :
    machine.Converses input queue (dialogue.after event.emitted) := by
  obtain ⟨more, conversed⟩ := later
  have longer : machine.resume (budget + more + 1) input = some (next, .ok event) :=
    resume_mono call (by omega)
  have continued := converse_mono conversed (Nat.le_add_left more budget)
  refine ⟨budget + more + 1, ?_⟩
  cases event with
  | halted => exact absurd rfl live
  | output value =>
      rw [converse_output longer, continued]
      rfl
  | needInput =>
      have awaits : next.status = .awaitingInput := (resume_eq_some.mp call).status_of_event
      -- The later dialogue begins by asking again, so both are at the same request.
      obtain _ | rest := more
      · cases conversed
      have asked : next.resume (rest + 1) none = some (next, .ok .needInput) :=
        resume_eq_some.mpr (.again awaits)
      rcases queue with _ | ⟨value, queue⟩
      · rw [converse_short asked rfl] at conversed
        rw [converse_short longer rfl, conversed]
        rfl
      · rw [converse_queued asked] at conversed
        rw [converse_queued longer, converse_mono conversed (by omega)]
        rfl

/-- A dialogue can as well begin by asking for the value of its first call. -/
theorem Converses.of_given (call : machine.resume budget input = some (next, .ok event))
    (conversed : machine.Converses input queue dialogue) :
    machine.Converses none (input.toList ++ queue) dialogue := by
  cases input with
  | none => exact conversed
  | some value =>
      obtain ⟨more, conversed⟩ := conversed
      have asked : machine.resume (more + 1) none = some (machine, .ok .needInput) :=
        resume_eq_some.mpr (.again (awaits_of_call call))
      refine ⟨more + 1, ?_⟩
      rw [Option.toList_some, List.singleton_append, converse_queued asked, conversed]

end Calls

section Exchanges

variable {machine last : Machine} {given outputs queue : List Cell}

/-- What follows an exchange follows it in a dialogue, too. -/
theorem Exchange.converses {dialogue : Dialogue} (exchange : machine.Exchange given outputs last)
    (live : last.status ≠ .halted) (later : last.Converses none queue dialogue) :
    machine.Converses none (given ++ queue) (dialogue.after outputs) := by
  induction exchange generalizing queue dialogue with
  | opened => exact later
  | called _ call inductionHypothesis =>
      have status := (resume_eq_some.mp call).status_of_event
      have goesOn := Converses.of_call call (by rintro rfl; exact live status) later
      have whole := inductionHypothesis (live_of_call call) (.of_given call goesOn)
      rw [Dialogue.after_after] at whole
      rwa [List.append_assoc]

/-- An exchange that ends with a machine which has halted is a whole dialogue, whatever else
could have been given. -/
theorem Exchange.converses_of_halted (exchange : machine.Exchange given outputs last)
    (live : machine.status ≠ .halted) (halted : last.status = .halted) (queue : List Cell) :
    machine.Converses none (given ++ queue) ⟨outputs, none, last⟩ := by
  cases exchange with
  | opened => exact absurd halted live
  | @called given outputs before _ budget input event exchange call =>
      have status := (resume_eq_some.mp call).status_of_event.symm.trans halted
      cases event <;> cases status
      have final : before.Converses input queue ⟨[], none, last⟩ :=
        ⟨budget + 1, converse_halted (resume_mono call (Nat.le_succ budget))⟩
      have whole := exchange.converses (live_of_call call) (.of_given call final)
      rwa [List.append_assoc]

/-- A call can be put before an exchange. -/
theorem Exchange.head {next : Machine} {budget : Nat} {input : Option Cell} {event : Event}
    (call : machine.resume budget input = some (next, .ok event))
    (exchange : next.Exchange given outputs last) :
    machine.Exchange (input.toList ++ given) (event.emitted ++ outputs) last := by
  induction exchange with
  | opened =>
      have first := Exchange.called .opened call
      simpa using first
  | called _ later inductionHypothesis =>
      rw [← List.append_assoc, ← List.append_assoc]
      exact .called inductionHypothesis later

end Exchanges

/-- A machine can not go on with the values that are left, for this reason. -/
inductive Breaks (machine : Machine) : List Cell → Trap → Prop where
  | failed {budget : Nat} {input : Option Cell} {next : Machine} {trap : Trap}
      (call : machine.resume budget input = some (next, .error trap)) (rest : List Cell) :
      Breaks machine (input.toList ++ rest) trap
  | missing (awaits : machine.status = .awaitingInput) :
      Breaks machine [] ⟨.missingInput, machine.instruction⟩

/-- The calls of a dialogue are an exchange up to the one that ends it. -/
theorem exchange_of_converse {budget : Nat} {machine : Machine} {supplied : Option Cell}
    {queue : List Cell} {dialogue : Dialogue}
    (conversed : machine.converse budget supplied queue .nothing = some dialogue) :
    ∃ given rest last, given ++ rest = supplied.toList ++ queue ∧
      machine.Exchange given dialogue.outputs last ∧
      (dialogue.breakdown = none → last = dialogue.machine) ∧
      ∀ trap, dialogue.result = .error trap → last.Breaks rest trap := by
  induction budget generalizing machine supplied queue dialogue with
  | zero => cases conversed
  | succ budget inductionHypothesis =>
      rcases resumed : machine.resume (budget + 1) supplied with _ | ⟨next, trap | event⟩
      · rw [converse_none resumed] at conversed
        cases conversed
      · rw [converse_trap resumed] at conversed
        cases conversed
        refine ⟨[], supplied.toList ++ queue, machine, rfl, .opened, nofun, ?_⟩
        rintro _ ⟨⟩
        exact .failed resumed queue
      cases event with
      | halted =>
          rw [converse_halted resumed] at conversed
          cases conversed
          exact ⟨supplied.toList, queue, next, rfl, .called .opened resumed, fun _ => rfl, nofun⟩
      | output value =>
          rw [converse_output resumed] at conversed
          obtain ⟨tail, finished, rfl⟩ := Option.map_eq_some_iff.mp conversed
          obtain ⟨given, rest, last, rfl, exchange, halts, breaks⟩ := inductionHypothesis finished
          refine ⟨supplied.toList ++ given, rest, last, ?_, exchange.head resumed, halts, ?_⟩
          · rw [List.append_assoc]
          · intro trap broken
            rw [Dialogue.result_precede] at broken
            apply breaks
            cases told : tail.result with
            | ok outputs =>
                rw [told] at broken
                cases broken
            | error cause =>
                rw [told] at broken
                cases broken
                rfl
      | needInput =>
          rcases queue with _ | ⟨value, queue⟩
          · rw [converse_short resumed rfl] at conversed
            cases conversed
            refine ⟨supplied.toList, [], next, rfl, .called .opened resumed, nofun, ?_⟩
            rintro _ ⟨⟩
            exact .missing (resume_eq_some.mp resumed).status_of_event
          · rw [converse_queued resumed] at conversed
            obtain ⟨given, rest, last, division, exchange, halts, breaks⟩ :=
              inductionHypothesis conversed
            refine ⟨supplied.toList ++ given, rest, last, ?_, exchange.head resumed, halts, breaks⟩
            rw [List.append_assoc, division]
            rfl

end Machine

end Intcode
