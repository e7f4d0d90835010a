/-
This file describes how dialogues go from one pause to the next and how they end. A run
to completion is a dialogue without a feed, of which only the result is kept.
-/

import Intcode.Dialogue
import Intcode.Proofs.Completion
import Intcode.Proofs.Protocol

namespace Intcode

/-- A feed gives these values one after another, and then has none for this reason. -/
inductive Feed.Yields : Feed → List Cell → Shortage → Prop where
  | short {feed : Feed} {shortage : Shortage} (failed : feed.next = .error shortage) :
      Yields feed [] shortage
  | drawn {feed left : Feed} {value : Cell} {values : List Cell} {shortage : Shortage}
      (drawn : feed.next = .ok (value, left)) (later : Yields left values shortage) :
      Yields feed (value :: values) shortage

namespace Dialogue

/-- The dialogue that begins with one more output. -/
def precede (value : Cell) (dialogue : Dialogue) : Dialogue :=
  { dialogue with outputs := value :: dialogue.outputs }

/-- The text of what went wrong. -/
def failure (dialogue : Dialogue) : Option String :=
  dialogue.breakdown.map Breakdown.message

/-- The result of a run that goes as the dialogue did. -/
def result (dialogue : Dialogue) : Except Trap (List Cell) :=
  match dialogue.breakdown with
  | none => .ok dialogue.outputs
  | some (.trap trap) => .error trap
  | some (.shortage _) => .error ⟨.missingInput, dialogue.machine.instruction⟩

theorem result_precede (value : Cell) (dialogue : Dialogue) :
    (dialogue.precede value).result = dialogue.result.map (value :: ·) := by
  rcases dialogue with ⟨outputs, _ | trap | shortage, machine⟩ <;> rfl

end Dialogue

section Asking

variable {feed left : Feed} {spoken : List Cell} {value : Cell} {shortage : Shortage}

theorem Transcript.run_ask_ok (drawn : feed.next = .ok (value, left)) :
    ask.run ⟨feed, spoken⟩ = (.ok value, ⟨left, spoken⟩) := by
  simp only [ask, StateT.run_bind, StateT.run_get, pure_bind, drawn]
  rfl

theorem Transcript.run_ask_error (failed : feed.next = .error shortage) :
    ask.run ⟨feed, spoken⟩ = (.error shortage, ⟨feed, spoken⟩) := by
  simp only [ask, StateT.run_bind, StateT.run_get, pure_bind, failed]
  rfl

end Asking

namespace Machine

section Turns

variable {budget : Nat} {machine next : Machine} {supplied : Option Cell} {value : Cell}
  {queue : List Cell} {feed left : Feed} {transcript : Transcript} {trap : Trap}
  {shortage : Shortage}

theorem transcribe_output
    (resumed : machine.resume (budget + 1) supplied = some (next, .ok (.output value))) :
    (machine.transcribe (budget + 1) supplied queue).run transcript =
      (next.transcribe budget none queue).run
        { transcript with spoken := value :: transcript.spoken } := by
  rw [transcribe, drive, resumed]
  rfl

section Asked

variable (resumed : machine.resume (budget + 1) supplied = some (next, .ok .needInput))

include resumed

theorem transcribe_queued :
    (machine.transcribe (budget + 1) supplied (value :: queue)).run transcript =
      (next.transcribe budget (some value) queue).run transcript := by
  rw [transcribe, drive, resumed]
  rfl

theorem transcribe_fed (drawn : feed.next = .ok (value, left)) (spoken : List Cell) :
    (machine.transcribe (budget + 1) supplied []).run ⟨feed, spoken⟩ =
      (next.transcribe budget (some value) []).run ⟨left, spoken⟩ := by
  rw [transcribe, drive, resumed]
  dsimp only
  rw [StateT.run_bind, Transcript.run_ask_ok drawn]
  rfl

theorem transcribe_short (failed : feed.next = .error shortage) (spoken : List Cell) :
    (machine.transcribe (budget + 1) supplied []).run ⟨feed, spoken⟩ =
      (some (some (.shortage shortage), next), ⟨feed, spoken⟩) := by
  rw [transcribe, drive, resumed]
  dsimp only
  rw [StateT.run_bind, Transcript.run_ask_error failed]
  rfl

end Asked

/-- A machine behaves the same whatever has been put out before. -/
theorem transcribe_after (budget : Nat) (machine : Machine) (supplied : Option Cell)
    (queue : List Cell) (feed : Feed) (spoken before : List Cell) :
    (machine.transcribe budget supplied queue).run ⟨feed, spoken ++ before⟩ =
      let (ending, transcript) := (machine.transcribe budget supplied queue).run ⟨feed, spoken⟩
      (ending, { transcript with spoken := transcript.spoken ++ before }) := by
  induction budget generalizing machine supplied queue feed spoken with
  | zero => rfl
  | succ budget inductionHypothesis =>
      rcases resumed : machine.resume (budget + 1) supplied with _ | ⟨next, trap | event⟩
      · simp only [transcribe, drive, resumed]
        rfl
      · simp only [transcribe, drive, resumed]
        rfl
      cases event with
      | halted =>
          simp only [transcribe, drive, resumed]
          rfl
      | output value =>
          rw [transcribe_output resumed, transcribe_output resumed]
          exact inductionHypothesis next none queue feed (value :: spoken)
      | needInput =>
          rcases queue with _ | ⟨value, queue⟩
          · rcases drawn : feed.next with shortage | ⟨value, left⟩
            · rw [transcribe_short resumed drawn, transcribe_short resumed drawn]
            · rw [transcribe_fed resumed drawn, transcribe_fed resumed drawn]
              exact inductionHypothesis next (some value) [] left spoken
          · rw [transcribe_queued resumed, transcribe_queued resumed]
            exact inductionHypothesis next (some value) queue feed spoken

/-- A call that does not return within the budget leaves the dialogue without an end. -/
theorem converse_none (resumed : machine.resume (budget + 1) supplied = none) :
    machine.converse (budget + 1) supplied queue feed = none := by
  simp only [converse, transcribe, drive, resumed]
  rfl

theorem converse_trap
    (resumed : machine.resume (budget + 1) supplied = some (next, .error trap)) :
    machine.converse (budget + 1) supplied queue feed = some ⟨[], some (.trap trap), next⟩ := by
  simp only [converse, transcribe, drive, resumed]
  rfl

theorem converse_halted
    (resumed : machine.resume (budget + 1) supplied = some (next, .ok .halted)) :
    machine.converse (budget + 1) supplied queue feed = some ⟨[], none, next⟩ := by
  simp only [converse, transcribe, drive, resumed]
  rfl

theorem converse_output
    (resumed : machine.resume (budget + 1) supplied = some (next, .ok (.output value))) :
    machine.converse (budget + 1) supplied queue feed =
      (next.converse budget none queue feed).map (Dialogue.precede value) := by
  have after := transcribe_after budget next none queue feed [] [value]
  rw [List.nil_append] at after
  rw [converse, transcribe_output resumed, after, converse]
  rcases (next.transcribe budget none queue).run ⟨feed, []⟩ with ⟨_ | ending, transcript⟩
  · rfl
  · simp [Dialogue.precede]

theorem converse_queued
    (resumed : machine.resume (budget + 1) supplied = some (next, .ok .needInput)) :
    machine.converse (budget + 1) supplied (value :: queue) feed =
      next.converse budget (some value) queue feed := by
  rw [converse, transcribe_queued resumed, converse]

theorem converse_fed
    (resumed : machine.resume (budget + 1) supplied = some (next, .ok .needInput))
    (drawn : feed.next = .ok (value, left)) :
    machine.converse (budget + 1) supplied [] feed = next.converse budget (some value) [] left := by
  rw [converse, transcribe_fed resumed drawn, converse]

theorem converse_short
    (resumed : machine.resume (budget + 1) supplied = some (next, .ok .needInput))
    (failed : feed.next = .error shortage) :
    machine.converse (budget + 1) supplied [] feed =
      some ⟨[], some (.shortage shortage), next⟩ := by
  rw [converse, transcribe_short resumed failed]
  rfl

end Turns

/-- A larger budget does not change a dialogue that has ended. -/
theorem converse_mono {budget more : Nat} {machine : Machine} {supplied : Option Cell}
    {queue : List Cell} {feed : Feed} {dialogue : Dialogue}
    (conversed : machine.converse budget supplied queue feed = some dialogue)
    (within : budget ≤ more) : machine.converse more supplied queue feed = some dialogue := by
  induction budget generalizing machine supplied queue feed dialogue more with
  | zero => cases conversed
  | succ budget inductionHypothesis =>
      obtain ⟨more, rfl⟩ := Nat.exists_eq_add_of_lt within
      have shorter : budget ≤ budget + more := Nat.le_add_right budget more
      rcases resumed : machine.resume (budget + 1) supplied with _ | ⟨next, trap | event⟩
      · rw [converse_none resumed] at conversed
        cases conversed
      · rw [converse_trap resumed] at conversed
        rw [converse_trap (resume_mono resumed within), conversed]
      have longer := resume_mono resumed within
      cases event with
      | halted =>
          rw [converse_halted resumed] at conversed
          rw [converse_halted longer, conversed]
      | output value =>
          rw [converse_output resumed] at conversed
          obtain ⟨tail, finished, rfl⟩ := Option.map_eq_some_iff.mp conversed
          rw [converse_output longer, inductionHypothesis finished shorter, Option.map_some]
      | needInput =>
          rcases queue with _ | ⟨value, queue⟩
          · rcases drawn : feed.next with shortage | ⟨value, left⟩
            · rw [converse_short resumed drawn] at conversed
              rw [converse_short longer drawn, conversed]
            · rw [converse_fed resumed drawn] at conversed
              rw [converse_fed longer drawn, inductionHypothesis conversed shorter]
          · rw [converse_queued resumed] at conversed
            rw [converse_queued longer, inductionHypothesis conversed shorter]

/-- A run to completion is a dialogue without a feed. -/
theorem complete_eq_converse (budget : Nat) (machine : Machine) (supplied : Option Cell)
    (values : List Cell) :
    machine.complete budget supplied values =
      (machine.converse budget supplied values .nothing).map Dialogue.result := by
  induction budget generalizing machine supplied values with
  | zero => rfl
  | succ budget inductionHypothesis =>
      rcases resumed : machine.resume (budget + 1) supplied with _ | ⟨next, trap | event⟩
      · rw [complete_none resumed, converse_none resumed, Option.map_none]
      · rw [complete_trap resumed, converse_trap resumed]
        rfl
      cases event with
      | halted =>
          rw [complete_halted resumed, converse_halted resumed]
          rfl
      | output value =>
          rw [complete_output resumed, converse_output resumed, inductionHypothesis,
            Option.map_map, Option.map_map]
          congr 1
          funext dialogue
          exact (dialogue.result_precede value).symm
      | needInput =>
          rcases values with _ | ⟨value, values⟩
          · rw [complete_missing resumed, converse_short resumed rfl]
            rfl
          · rw [complete_given resumed, converse_queued resumed, inductionHypothesis]

/-- A call with a value is made to a machine that waits for one, a call without a value to a
machine that does not. -/
def Expects (machine : Machine) : Option Cell → Prop
  | none => machine.status = .ready ∨ machine.status = .running
  | some _ => machine.status = .awaitingInput

/-- A call that the machine expects fails only if an instruction does. -/
theorem Expects.ofInstruction {budget : Nat} {machine next : Machine} {supplied : Option Cell}
    {trap : Trap} (expects : machine.Expects supplied)
    (resumed : machine.resume budget supplied = some (next, .error trap)) :
    trap.fault.OfInstruction := by
  cases resume_eq_some.mp resumed with
  | closed halted => cases supplied <;> simp [Expects, halted] at expects
  | refused idle => rcases idle with idle | idle <;> simp [Expects, idle] at expects
  | unstored awaits failed => exact ofInstruction_of_supply failed
  | executed starts advanced =>
      obtain ⟨last, executes, pauses⟩ := pauses_of_advance advanced
      exact pauses.ofInstruction

end Machine

/-- How the machine is left at the end of a dialogue, and why it ended there. -/
def Dialogue.Settled (feed : Feed) (dialogue : Dialogue) : Prop :=
  match dialogue.breakdown with
  | none => dialogue.machine.status = .halted
  | some (.trap trap) =>
      trap.fault.OfInstruction ∧ dialogue.machine.status = .running ∧
        dialogue.machine.ip = trap.address
  | some (.shortage shortage) =>
      dialogue.machine.status = .awaitingInput ∧ ∃ values, feed.Yields values shortage

theorem Dialogue.Settled.drawn {feed left : Feed} {value : Cell} {dialogue : Dialogue}
    (settled : dialogue.Settled left) (drawn : feed.next = .ok (value, left)) :
    dialogue.Settled feed := by
  unfold Settled at settled ⊢
  split at settled
  next => exact settled
  next => exact settled
  next =>
    obtain ⟨awaits, values, yields⟩ := settled
    exact ⟨awaits, value :: values, .drawn drawn yields⟩

/-- A dialogue that begins with a call which the machine expects makes only such calls. -/
theorem Machine.converse_settled {budget : Nat} {machine : Machine} {supplied : Option Cell}
    {queue : List Cell} {feed : Feed} {dialogue : Dialogue} (expects : machine.Expects supplied)
    (conversed : machine.converse budget supplied queue feed = some dialogue) :
    dialogue.Settled feed := by
  induction budget generalizing machine supplied queue feed dialogue with
  | zero => cases conversed
  | succ budget inductionHypothesis =>
      rcases resumed : machine.resume (budget + 1) supplied with _ | ⟨next, trap | event⟩
      · rw [converse_none resumed] at conversed
        cases conversed
      · rw [converse_trap resumed] at conversed
        cases conversed
        have inner := expects.ofInstruction resumed
        obtain ⟨running, stopped, _⟩ := (resume_eq_some.mp resumed).stopped inner
        exact ⟨inner, running, stopped⟩
      have status := (resume_eq_some.mp resumed).status_of_event
      cases event with
      | halted =>
          rw [converse_halted resumed] at conversed
          cases conversed
          exact status
      | output value =>
          rw [converse_output resumed] at conversed
          obtain ⟨tail, finished, rfl⟩ := Option.map_eq_some_iff.mp conversed
          have onward : next.Expects none := .inr status
          have settled : tail.Settled feed := inductionHypothesis onward finished
          exact settled
      | needInput =>
          have answered (value : Cell) : next.Expects (some value) := status
          rcases queue with _ | ⟨value, queue⟩
          · rcases drawn : feed.next with shortage | ⟨value, left⟩
            · rw [converse_short resumed drawn] at conversed
              cases conversed
              exact ⟨status, [], .short drawn⟩
            · rw [converse_fed resumed drawn] at conversed
              exact (inductionHypothesis (answered value) conversed).drawn drawn
          · rw [converse_queued resumed] at conversed
            exact inductionHypothesis (answered value) conversed

theorem run_eq_converse (budget : Nat) (program : Program) (queue : List Cell) :
    run budget program queue = (converse budget program queue .nothing).map Dialogue.result :=
  Machine.complete_eq_converse budget (.load program) none queue

theorem converse_mono {budget more : Nat} {program : Program} {queue : List Cell} {feed : Feed}
    {dialogue : Dialogue} (conversed : converse budget program queue feed = some dialogue)
    (within : budget ≤ more) : converse more program queue feed = some dialogue :=
  Machine.converse_mono conversed within

theorem converse_settled {budget : Nat} {program : Program} {queue : List Cell} {feed : Feed}
    {dialogue : Dialogue} (conversed : converse budget program queue feed = some dialogue) :
    dialogue.Settled feed := by
  have expects : (Machine.load program).Expects none := .inl rfl
  exact Machine.converse_settled expects conversed

/-- A dialogue tells of a run with this result. -/
structure Dialogue.Reports (dialogue : Dialogue) (result : Except Trap (List Cell)) : Prop where
  success : ∀ outputs, result = .ok outputs →
    dialogue.failure = none ∧ dialogue.outputs = outputs ∧ dialogue.machine.status = .halted
  missing : ∀ address, result = .error ⟨.missingInput, address⟩ →
    dialogue.failure = some "The program requested input, but none remains" ∧
      dialogue.machine.status = .awaitingInput ∧ dialogue.machine.instruction = address
  trap : ∀ trap, result = .error trap → trap.fault ≠ .missingInput →
    dialogue.failure = some trap.message ∧ dialogue.machine.status = .running ∧
      dialogue.machine.ip = trap.address

/-- A dialogue without a feed tells of the run that it is. -/
theorem Dialogue.Settled.reports {dialogue : Dialogue} (settled : dialogue.Settled .nothing) :
    dialogue.Reports dialogue.result := by
  rcases dialogue with ⟨outputs, _ | trap | shortage, machine⟩
  · refine ⟨?_, nofun, nofun⟩
    rintro _ ⟨⟩
    exact ⟨rfl, rfl, settled⟩
  · obtain ⟨inner, running, stopped⟩ := settled
    refine ⟨nofun, ?_, ?_⟩
    · rintro address ⟨⟩
      exact inner.elim
    · rintro _ ⟨⟩ _
      exact ⟨rfl, running, stopped⟩
  · obtain ⟨awaits, values, yields⟩ := settled
    refine ⟨nofun, ?_, ?_⟩
    · rintro _ ⟨⟩
      cases yields with
      | short failed =>
          cases failed
          exact ⟨rfl, awaits, rfl⟩
      | drawn drawn => cases drawn
    · rintro _ ⟨⟩ present
      exact absurd rfl present

/-- An instruction does not turn down a call. -/
theorem Fault.OfInstruction.not_turned_down {fault : Fault} (inner : fault.OfInstruction) :
    fault ≠ .resumeAfterHalt ∧ ∀ value, fault ≠ .unexpectedInput value := by
  constructor
  · rintro rfl
    exact inner
  · rintro value rfl
    exact inner

/-- No call of a dialogue is turned down. -/
theorem converse_not_turned_down {budget : Nat} {program : Program} {queue : List Cell}
    {feed : Feed} {dialogue : Dialogue} {trap : Trap}
    (conversed : converse budget program queue feed = some dialogue)
    (broken : dialogue.breakdown = some (.trap trap)) :
    trap.fault ≠ .resumeAfterHalt ∧ ∀ value, trap.fault ≠ .unexpectedInput value := by
  have settled := converse_settled conversed
  unfold Dialogue.Settled at settled
  rw [broken] at settled
  exact settled.1.not_turned_down

/-- No call of a run is turned down. -/
theorem run_not_turned_down {budget : Nat} {program : Program} {values : List Cell} {trap : Trap}
    (ended : run budget program values = some (.error trap)) :
    trap.fault ≠ .resumeAfterHalt ∧ ∀ value, trap.fault ≠ .unexpectedInput value := by
  rw [run_eq_converse] at ended
  obtain ⟨dialogue, conversed, told⟩ := Option.map_eq_some_iff.mp ended
  unfold Dialogue.result at told
  split at told
  next => cases told
  next cause broken =>
    cases told
    exact converse_not_turned_down conversed broken
  next =>
    cases told
    simp

/-- A run and a dialogue without a feed end with the same budgets, and the dialogue tells of the
run. No call of either is turned down by the machine. -/
theorem run_agrees_with_dialogue (budget : Nat) (program : Program) (queue : List Cell) :
    Option.Rel Dialogue.Reports (converse budget program queue .nothing)
      (run budget program queue) ∧
    (∀ trap, run budget program queue = some (.error trap) →
      trap.fault ≠ .resumeAfterHalt ∧ ∀ value, trap.fault ≠ .unexpectedInput value) ∧
    ∀ feed dialogue trap, converse budget program queue feed = some dialogue →
      dialogue.breakdown = some (.trap trap) →
      trap.fault ≠ .resumeAfterHalt ∧ ∀ value, trap.fault ≠ .unexpectedInput value := by
  have agrees : Option.Rel Dialogue.Reports (converse budget program queue .nothing)
      (run budget program queue) := by
    rw [run_eq_converse]
    cases conversed : converse budget program queue .nothing with
    | none => exact .none
    | some dialogue => exact .some (converse_settled conversed).reports
  refine ⟨agrees, ?_, ?_⟩
  · intro trap ended
    exact run_not_turned_down ended
  · intro feed dialogue trap conversed broken
    exact converse_not_turned_down conversed broken

/-- A run that lacks its second value breaks off as a dialogue does, and leaves the same machine. -/
theorem short_run_agrees_with_dialogue :
    run 4 [3, 0, 4, 0, 3, 0, 99] [7] = some (.error ⟨.missingInput, 4⟩) ∧
    ∃ dialogue, converse 4 [3, 0, 4, 0, 3, 0, 99] [7] .nothing = some dialogue ∧
      dialogue.failure = some "The program requested input, but none remains" ∧
      dialogue.machine.status = .awaitingInput ∧ dialogue.machine.instruction = 4 := by
  have ended : run 4 [3, 0, 4, 0, 3, 0, 99] [7] = some (.error ⟨.missingInput, 4⟩) := by decide
  have agrees := (run_agrees_with_dialogue 4 [3, 0, 4, 0, 3, 0, 99] [7]).1
  rw [ended] at agrees
  generalize converse 4 [3, 0, 4, 0, 3, 0, 99] [7] .nothing = conversed at agrees ⊢
  obtain ⟨reports⟩ := agrees
  exact ⟨ended, _, rfl, reports.missing 4 rfl⟩

end Intcode
