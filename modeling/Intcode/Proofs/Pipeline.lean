/-
This file chains two machines. What the first one outputs lies in a channel until the
second one takes it, and a schedule says which of them is resumed next. The schedule
does not show in what the machines have done once both have halted.
-/

import Intcode.Proofs.Exchange
import Intcode.Proofs.Retry

namespace Intcode

namespace Machine

/-- The machine is at an instruction that fails, or waits for a value that it can not store. -/
def Doomed (machine : Machine) : Prop :=
  (machine.status = .running ∧ machine.Stalled) ∨
    machine.status = .awaitingInput ∧ machine.Waiting ∧ ∃ fault, machine.target 0 = .error fault

variable {machine next : Machine}

theorem Doomed.not_halted (doomed : machine.Doomed) : machine.status ≠ .halted := by
  rcases doomed with ⟨running, _⟩ | ⟨awaits, _⟩
  · simp [running]
  · simp [awaits]

theorem Stalled.fetch (stalled : machine.Stalled) : machine.fetch = machine := by
  have here := stalled.ip
  have decoded := stalled.modes
  cases machine
  simp_all [Machine.fetch, head]

/-- A machine at an instruction that has failed fails again or asks for a value again. -/
theorem Stalled.pauses (stalled : machine.Stalled) (running : machine.status = .running) :
    ∃ next result, machine.Pauses next result ∧ next.Doomed := by
  have fails {fault : Fault} (evaluated : machine.evaluate = .error fault) :
      ∃ next result, machine.Pauses next result ∧ next.Doomed := by
    refine ⟨machine, .error ⟨fault, machine.ip⟩, ?_, .inl ⟨running, stalled⟩⟩
    rw [pauses_trap, stalled.fetch]
    exact ⟨evaluated, rfl, rfl⟩
  obtain ⟨fault, evaluated | ⟨number, refused⟩⟩ := stalled.fault
  · exact fails evaluated
  cases checked : machine.checkTarget 0 with
  | error fault =>
      apply fails
      rw [evaluate_eq_checkTarget number, checked, error_bind]
  | ok =>
      have writable := checkTarget_eq_ok.mp checked
      rw [stalled.modes] at writable
      refine ⟨{ machine with ip := machine.ip + 1, status := .awaitingInput }, .ok .needInput, ?_, ?_⟩
      · rw [pauses_needInput, stalled.fetch]
        exact ⟨evaluate_input number checked, rfl⟩
      · exact .inr ⟨rfl, ⟨congrArg (· + 1) stalled.ip, number, writable, stalled.modes⟩, fault, refused⟩

/-- A machine that has failed never gets past that instruction. -/
theorem Doomed.resume {budget : Nat} {input : Option Cell} {result : Except Trap Event}
    (doomed : machine.Doomed) (resumed : machine.resume budget input = some (next, result)) :
    next.Doomed := by
  cases resume_eq_some.mp resumed with
  | closed halted => exact absurd halted doomed.not_halted
  | again | refused => exact doomed
  | unstored awaits failed =>
      rcases doomed with ⟨running, _⟩ | ⟨_, waiting, _⟩
      · cases running.symm.trans awaits
      · have stalled := waiting.stalled failed
        obtain ⟨_, rfl, _⟩ := supply_eq_error.mp failed
        exact .inl ⟨rfl, stalled⟩
  | executed starts advanced =>
      rcases doomed with ⟨running, stalled⟩ | ⟨awaits, _, fault, refused⟩
      · cases starts with
        | supplied awaits => cases running.symm.trans awaits
        | onward =>
            obtain ⟨reached, stopped, pauses, doomed⟩ := stalled.pauses running
            rw [← running] at advanced
            cases budget with
            | zero => cases advanced
            | succ budget =>
                rw [advance_of_pauses pauses] at advanced
                cases advanced
                exact doomed
      · cases starts with
        | onward idle => rcases idle with idle | idle <;> cases idle.symm.trans awaits
        | supplied _ stored =>
            obtain ⟨address, accepted, _⟩ := supply_eq_ok.mp stored
            cases refused.symm.trans accepted

/-- A call is not turned down by a machine that waits for a value. -/
theorem Answers.idle_of_turned_down {budget : Nat} {input : Option Cell} {trap : Trap}
    (answers : Answers budget machine input next (.error trap))
    (outer : ¬ trap.fault.OfInstruction) : machine.status ≠ .awaitingInput := by
  intro awaits
  cases answers with
  | closed halted => cases halted.symm.trans awaits
  | refused idle => rcases idle with idle | idle <;> cases idle.symm.trans awaits
  | unstored _ failed => exact outer (ofInstruction_of_supply failed)
  | executed _ advanced =>
      obtain ⟨last, _, pauses⟩ := pauses_of_advance advanced
      exact outer pauses.ofInstruction

/-- A call that fails in an instruction leaves a machine that has failed for good. -/
theorem doomed_of_fault {program : Program} {budget : Nat} {input : Option Cell} {trap : Trap}
    (coherent : machine.Coherent program)
    (resumed : machine.resume budget input = some (next, .error trap))
    (inner : trap.fault.OfInstruction) : next.Doomed := by
  obtain ⟨running, ip, instruction⟩ := (resume_eq_some.mp resumed).stopped inner
  have follows := resume_coherent coherent resumed
  unfold Coherent at follows
  rw [running] at follows
  rcases follows with ⟨behind, _⟩ | stalled
  · omega
  · exact .inl ⟨running, stalled⟩

end Machine

/-- A machine of a chain, the values that lie ready for it, and those that it has output. -/
structure Stage where
  machine : Machine
  ready : List Cell
  outputs : List Cell
deriving DecidableEq

namespace Stage

def load (program : Program) (values : List Cell) : Stage :=
  { machine := .load program, ready := values, outputs := [] }

/-- What the machine is resumed with, and what stays ready. A machine that waits for a value takes
the oldest one, and any other machine takes none. -/
def take (stage : Stage) : Option Cell × List Cell :=
  match stage.machine.status, stage.ready with
  | .awaitingInput, value :: rest => (some value, rest)
  | _, ready => (none, ready)

/-- Resumes the machine once, and returns the values that it outputs. -/
def poll (budget : Nat) (stage : Stage) : Option (Stage × List Cell) :=
  (stage.machine.resume budget stage.take.1).map fun (next, result) =>
    let emitted := match result with
      | .ok event => event.emitted
      | .error _ => []
    ({ machine := next, ready := stage.take.2, outputs := stage.outputs ++ emitted }, emitted)

/-- Puts values behind those that lie ready. -/
def receive (stage : Stage) (values : List Cell) : Stage :=
  { stage with ready := stage.ready ++ values }

theorem take_append (stage : Stage) : stage.take.1.toList ++ stage.take.2 = stage.ready := by
  unfold take
  split <;> simp_all

theorem take_of_not_awaiting {stage : Stage} (idle : stage.machine.status ≠ .awaitingInput) :
    stage.take = (none, stage.ready) := by
  unfold take
  split
  next awaits _ => exact absurd awaits idle
  next => rfl

/-- What a stage has done with the values that it was ever given: its machine has taken some of
them in an exchange, unless it has failed for good. -/
structure Faithful (program : Program) (given : List Cell) (stage : Stage) : Prop where
  coherent : stage.machine.Coherent program
  exchange : stage.machine.Doomed ∨ ∃ taken, taken ++ stage.ready = given ∧
    (Machine.load program).Exchange taken stage.outputs stage.machine

variable {program : Program} {given : List Cell} {stage next : Stage}

theorem load_faithful (program : Program) (values : List Cell) :
    (load program values).Faithful program values where
  coherent := rfl
  exchange := .inr ⟨[], rfl, .opened⟩

theorem Faithful.receive (faithful : stage.Faithful program given) (values : List Cell) :
    (stage.receive values).Faithful program (given ++ values) where
  coherent := faithful.coherent
  exchange := by
    rcases faithful.exchange with doomed | ⟨taken, rfl, exchange⟩
    · exact .inl doomed
    · exact .inr ⟨taken, by simp [Stage.receive], exchange⟩

/-- One call keeps a stage faithful. -/
theorem Faithful.poll {budget : Nat} {emitted : List Cell} (faithful : stage.Faithful program given)
    (polled : stage.poll budget = some (next, emitted)) :
    next.Faithful program given ∧ next.outputs = stage.outputs ++ emitted := by
  obtain ⟨⟨machine, result⟩, resumed, same⟩ := Option.map_eq_some_iff.mp polled
  cases same
  refine ⟨⟨Machine.resume_coherent faithful.coherent resumed, ?_⟩, rfl⟩
  rcases faithful.exchange with doomed | ⟨taken, whole, exchange⟩
  · exact .inl (doomed.resume resumed)
  rcases result with trap | event
  · by_cases inner : trap.fault.OfInstruction
    · exact .inl (Machine.doomed_of_fault faithful.coherent resumed inner)
    -- The call was turned down, and has taken no value.
    · have unchanged := (Machine.resume_eq_some.mp resumed).unchanged inner
      have idle := (Machine.resume_eq_some.mp resumed).idle_of_turned_down inner
      subst unchanged
      refine .inr ⟨taken, ?_, ?_⟩
      · rw [take_of_not_awaiting idle, whole]
      · rw [List.append_nil]
        exact exchange
  · refine .inr ⟨taken ++ stage.take.1.toList, ?_, .called exchange resumed⟩
    rw [List.append_assoc, take_append, whole]

/-- A stage whose machine has halted has done what a dialogue on its values does. -/
theorem Faithful.converses (faithful : stage.Faithful program given)
    (halted : stage.machine.status = .halted) :
    (Machine.load program).Converses none given ⟨stage.outputs, none, stage.machine⟩ := by
  rcases faithful.exchange with doomed | ⟨taken, rfl, exchange⟩
  · exact absurd halted doomed.not_halted
  · exact exchange.converses_of_halted nofun halted stage.ready

end Stage

/-- Two machines, the second of which is given what the first one outputs. The values that lie
ready for the second one are the channel between them. -/
structure Chain where
  first : Stage
  second : Stage
deriving DecidableEq

/-- Which machine of a chain is resumed. -/
inductive Turn where
  | first
  | second
deriving DecidableEq

namespace Chain

def load (first second : Program) (values : List Cell) : Chain :=
  { first := .load first values, second := .load second [] }

/-- Resumes one machine once. -/
def turn (budget : Nat) (chain : Chain) : Turn → Option Chain
  | .first => (chain.first.poll budget).map fun (stage, emitted) =>
      { first := stage, second := chain.second.receive emitted }
  | .second => (chain.second.poll budget).map fun (stage, _) => { chain with second := stage }

/-- Resumes machines as a schedule says. There is no chain if a call does not return within the
budget. -/
def follow (budget : Nat) (chain : Chain) (schedule : List Turn) : Option Chain :=
  schedule.foldlM (turn budget) chain

/-- Both machines have halted. -/
def Halted (chain : Chain) : Prop :=
  chain.first.machine.status = .halted ∧ chain.second.machine.status = .halted

instance (chain : Chain) : Decidable chain.Halted :=
  inferInstanceAs (Decidable (_ ∧ _))

/-- What the first machine has output is what the second one has ever been given. -/
structure Linked (first second : Program) (values : List Cell) (chain : Chain) : Prop where
  first : chain.first.Faithful first values
  second : chain.second.Faithful second chain.first.outputs

variable {first second : Program} {values : List Cell} {chain next : Chain}

theorem load_linked (first second : Program) (values : List Cell) :
    (load first second values).Linked first second values where
  first := Stage.load_faithful first values
  second := Stage.load_faithful second []

theorem Linked.turn {budget : Nat} {turn : Turn} (linked : chain.Linked first second values)
    (turned : chain.turn budget turn = some next) : next.Linked first second values := by
  cases turn with
  | first =>
      obtain ⟨⟨stage, emitted⟩, polled, rfl⟩ := Option.map_eq_some_iff.mp turned
      obtain ⟨faithful, outputs⟩ := linked.first.poll polled
      refine ⟨faithful, ?_⟩
      rw [outputs]
      exact linked.second.receive emitted
  | second =>
      obtain ⟨⟨stage, emitted⟩, polled, rfl⟩ := Option.map_eq_some_iff.mp turned
      exact ⟨linked.first, (linked.second.poll polled).1⟩

/-- A chain stays linked under every schedule. -/
theorem Linked.follow {budget : Nat} {schedule : List Turn} (linked : chain.Linked first second values)
    (followed : chain.follow budget schedule = some next) : next.Linked first second values := by
  induction schedule generalizing chain with
  | nil =>
      cases followed
      exact linked
  | cons turn schedule inductionHypothesis =>
      obtain ⟨between, turned, followed⟩ := Option.bind_eq_some_iff.mp followed
      exact inductionHypothesis (linked.turn turned) followed

end Chain

/-- A dialogue without a feed that does not break down is a run that returns. -/
theorem run_of_converses {program : Program} {values outputs : List Cell} {machine : Machine}
    (conversed : (Machine.load program).Converses none values ⟨outputs, none, machine⟩) :
    ∃ budget, run budget program values = some (.ok outputs) := by
  obtain ⟨budget, conversed⟩ := conversed
  refine ⟨budget, ?_⟩
  rw [run_eq_converse, converse, conversed]
  rfl

/-- Once both machines of a chain have halted, the first has output what it does on its values
alone, and the second what it does on those outputs. So every schedule leaves the same outputs and
the same machines. -/
theorem chain_ends_alike_under_every_schedule (first second : Program) (values : List Cell) :
    (∀ budget schedule last, (Chain.load first second values).follow budget schedule = some last →
      last.Halted →
      (∃ budget, run budget first values = some (.ok last.first.outputs)) ∧
      ∃ budget, run budget second last.first.outputs = some (.ok last.second.outputs)) ∧
    ∀ budget schedule last more other final,
      (Chain.load first second values).follow budget schedule = some last → last.Halted →
      (Chain.load first second values).follow more other = some final → final.Halted →
      final.first.outputs = last.first.outputs ∧ final.second.outputs = last.second.outputs ∧
      final.first.machine = last.first.machine ∧ final.second.machine = last.second.machine := by
  constructor
  · intro budget schedule last followed halted
    have linked := (Chain.load_linked first second values).follow followed
    exact ⟨run_of_converses (linked.first.converses halted.1),
      run_of_converses (linked.second.converses halted.2)⟩
  · intro budget schedule last more other final followed halted again stopped
    have linked := (Chain.load_linked first second values).follow followed
    have relinked := (Chain.load_linked first second values).follow again
    have starts := (relinked.first.converses stopped.1).unique (linked.first.converses halted.1)
    rw [Dialogue.mk.injEq] at starts
    have feeds := relinked.second.converses stopped.2
    rw [starts.1] at feeds
    have ends := feeds.unique (linked.second.converses halted.2)
    rw [Dialogue.mk.injEq] at ends
    exact ⟨starts.1, ends.1, starts.2.2, ends.2.2⟩

/-- Two machines that each double a value give four times the first one, also if the second is
resumed too early and the first too often. -/
theorem doubling_chain_ends_alike :
    let program : Program := [3, 9, 1002, 9, 2, 9, 4, 9, 99]
    let schedule : List Turn :=
      [.second, .first, .second, .second, .first, .first, .second, .first, .second]
    ∃ last, (Chain.load program program [5]).follow 3 schedule = some last ∧ last.Halted ∧
      last.first.outputs = [10] ∧ last.second.outputs = [20] ∧
      ∃ budget, run budget program [10] = some (.ok [20]) := by
  intro program schedule
  have ended : ((Chain.load program program [5]).follow 3 schedule).map
      (fun chain => (decide chain.Halted, chain.first.outputs, chain.second.outputs)) =
      some (true, [10], [20]) := by decide
  obtain ⟨last, followed, told⟩ := Option.map_eq_some_iff.mp ended
  rw [Prod.mk.injEq, Prod.mk.injEq, decide_eq_true_iff] at told
  obtain ⟨halted, doubled, quadrupled⟩ := told
  have runs := (chain_ends_alike_under_every_schedule program program [5]).1 3 schedule last
    followed halted
  rw [doubled, quadrupled] at runs
  exact ⟨last, followed, halted, doubled, quadrupled, runs.2⟩

end Intcode
