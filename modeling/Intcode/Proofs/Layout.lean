/-
This file compares machines that keep the same cells in different places. A program
can not tell whether a cell is dense or sparse, nor whether a zero was ever written.
-/

import Intcode.Proofs.Completion
import Intcode.Proofs.Simulation
import Mathlib.Data.List.GetD

namespace Intcode

/-- Zeros at the end of a program are cells that memory holds anyway. -/
theorem Memory.read_load_append_zeros (program : Program) (count address : Nat) :
    (load (program ++ List.replicate count 0)).read address = (load program).read address := by
  simp only [read_load]
  by_cases inside : address < program.length
  · rw [List.getD_append _ _ _ _ inside]
  · have beyond : program.length ≤ address := Nat.le_of_not_lt inside
    rw [List.getD_append_right _ _ _ _ beyond, List.getD_eq_default _ _ beyond]
    by_cases padded : address - program.length < count
    · exact List.getD_replicate 0 padded
    · exact List.getD_eq_default _ _ (by simpa using padded)

namespace Machine

/-- Two machines with the same registers, whose memories hold the same cells. -/
structure Alike (machine twin : Machine) : Prop where
  memory : ∀ address, machine.memory.read address = twin.memory.read address
  ip : machine.ip = twin.ip
  base : machine.base = twin.base
  status : machine.status = twin.status
  instruction : machine.instruction = twin.instruction
  modes : ∀ index, Mode.digitAt machine.modes index = Mode.digitAt twin.modes index

/-- Two machines are alike and come with the same result. -/
inductive Matches {Result : Type} : Machine × Result → Machine × Result → Prop where
  | both {machine twin : Machine} {result : Result} (alike : machine.Alike twin) :
      Matches (machine, result) (twin, result)

variable {machine twin : Machine}

theorem Alike.symm (alike : machine.Alike twin) : twin.Alike machine where
  memory address := (alike.memory address).symm
  ip := alike.ip.symm
  base := alike.base.symm
  status := alike.status.symm
  instruction := alike.instruction.symm
  modes index := (alike.modes index).symm

section Evaluation

theorem Alike.mode (alike : machine.Alike twin) (index : Nat) : machine.mode index = twin.mode index := by
  unfold Machine.mode
  rw [alike.modes]

theorem Alike.address (alike : machine.Alike twin) (index : Nat) :
    machine.address index = twin.address index := by
  unfold Machine.address slot
  simp only [alike.mode, alike.memory, alike.instruction, alike.base]

theorem Alike.value (alike : machine.Alike twin) (index : Nat) :
    machine.value index = twin.value index := by
  unfold Machine.value
  simp only [alike.address, alike.memory]

theorem Alike.checkTarget (alike : machine.Alike twin) (index : Nat) :
    machine.checkTarget index = twin.checkTarget index := by
  unfold Machine.checkTarget
  rw [alike.mode]

theorem Alike.target (alike : machine.Alike twin) (index : Nat) :
    machine.target index = twin.target index := by
  unfold Machine.target
  rw [alike.checkTarget, alike.address]

theorem Alike.combine (alike : machine.Alike twin) (operation : Cell → Cell → Option Cell) :
    machine.combine operation = twin.combine operation := by
  unfold Machine.combine
  simp only [alike.value, alike.target]

theorem Alike.jumpIf (alike : machine.Alike twin) (taken : Cell → Bool) :
    machine.jumpIf taken = twin.jumpIf taken := by
  unfold Machine.jumpIf
  simp only [alike.value]

theorem Alike.perform (alike : machine.Alike twin) (opcode : Opcode) :
    machine.perform opcode = twin.perform opcode := by
  cases opcode with
  | add | multiply | less | equal =>
      rw [Machine.perform, Machine.perform]
      exact alike.combine _
  | jumpTrue | jumpZero => exact alike.jumpIf _
  | input =>
      rw [Machine.perform, Machine.perform, alike.checkTarget]
  | output =>
      rw [Machine.perform, Machine.perform, alike.value]
  | rebase =>
      rw [Machine.perform, Machine.perform, alike.value, alike.base]
  | halt => rfl

/-- The effect of an instruction depends on memory only through what is read. -/
theorem Alike.evaluate (alike : machine.Alike twin) : machine.evaluate = twin.evaluate := by
  unfold Machine.evaluate
  simp only [alike.memory, alike.instruction, alike.perform]

end Evaluation

theorem Alike.fetch (alike : machine.Alike twin) : machine.fetch.Alike twin.fetch where
  memory := alike.memory
  ip := alike.ip
  base := alike.base
  status := alike.status
  instruction := alike.ip
  modes index := by rw [fetch_modes, fetch_modes, alike.memory, alike.ip]

theorem Alike.write (alike : machine.Alike twin) (address : Nat) (value : Cell) (other : Nat) :
    (machine.memory.write address value).read other = (twin.memory.write address value).read other := by
  rw [Memory.read_write, Memory.read_write, alike.memory]

/-- An effect that is written to memory may go to the dense cells of one machine and to the
sparse cells of the other. -/
theorem Alike.apply (alike : machine.Alike twin) (effect : Effect) :
    Matches (machine.apply effect) (twin.apply effect) := by
  have same := alike.instruction
  cases effect with
  | store address value =>
      exact .both { alike with memory := alike.write address value, ip := congrArg (· + 4) same }
  | jump target => exact .both { alike with ip := rfl }
  | fallThrough => exact .both { alike with ip := congrArg (· + 3) same }
  | await => exact .both { alike with ip := congrArg (· + 1) same, status := rfl }
  | emit value => exact .both { alike with ip := congrArg (· + 2) same }
  | rebase base => exact .both { alike with ip := congrArg (· + 2) same, base := rfl }
  | halt => exact .both { alike with ip := congrArg (· + 1) same, status := rfl }

theorem Alike.fail {Result : Type} (alike : machine.Alike twin) (fault : Fault) :
    Matches (machine.fail fault : Machine × Except Trap Result) (twin.fail fault) := by
  unfold Machine.fail
  rw [← alike.instruction]
  exact .both { alike with ip := rfl, instruction := rfl }

theorem Alike.step (alike : machine.Alike twin) : Matches machine.step twin.step := by
  unfold Machine.step
  rw [alike.fetch.evaluate]
  cases twin.fetch.evaluate with
  | ok effect =>
      have matched := alike.fetch.apply effect
      dsimp only
      generalize machine.fetch.apply effect = applied, twin.fetch.apply effect = replied at matched ⊢
      obtain ⟨follows⟩ := matched
      exact .both follows
  | error fault => exact alike.fetch.fail fault

theorem Alike.advance (alike : machine.Alike twin) (budget : Nat) :
    Option.Rel Matches (machine.advance budget) (twin.advance budget) := by
  induction budget generalizing machine twin with
  | zero => exact .none
  | succ budget inductionHypothesis =>
      have matched := alike.step
      unfold Machine.advance
      generalize machine.step = stepped, twin.step = replied at matched ⊢
      obtain @⟨next, other, result, follows⟩ := matched
      rcases result with trap | none | event
      · exact .some (.both follows)
      · exact inductionHypothesis follows
      · exact .some (.both follows)

theorem Alike.running (alike : machine.Alike twin) :
    { machine with status := .running }.Alike { twin with status := .running } :=
  { alike with status := rfl }

theorem Alike.supply (alike : machine.Alike twin) (value : Cell) :
    Matches (machine.supply value) (twin.supply value) := by
  unfold Machine.supply
  dsimp only
  rw [alike.running.target]
  cases { twin with status := .running }.target 0 with
  | ok address =>
      have same := congrArg (· + 2) alike.instruction
      exact .both { alike.running with memory := alike.write address value, ip := same }
  | error fault => exact alike.running.fail fault

/-- A call is answered alike by machines that are alike, or by neither within the budget. -/
theorem Alike.resume (alike : machine.Alike twin) (budget : Nat) (input : Option Cell) :
    Option.Rel Matches (machine.resume budget input) (twin.resume budget input) := by
  unfold Machine.resume
  rw [alike.status]
  cases twin.status with
  | halted =>
      rw [alike.instruction]
      exact .some (.both alike)
  | awaitingInput =>
      cases input with
      | none => exact .some (.both alike)
      | some value =>
          have matched := alike.supply value
          dsimp only
          generalize machine.supply value = stored, twin.supply value = replied at matched ⊢
          obtain @⟨next, other, result, follows⟩ := matched
          rcases result with trap | ⟨⟩
          · exact .some (.both follows)
          · exact follows.advance budget
  | ready | running =>
      cases input with
      | none => exact alike.running.advance budget
      | some value =>
          rw [alike.ip]
          exact .some (.both alike)

/-- The answers of machines that are alike match whatever the budgets are. -/
theorem Alike.answers_match {budget more : Nat} {input : Option Cell} {next other : Machine}
    {result answer : Except Trap Event} (alike : machine.Alike twin)
    (resumed : machine.resume budget input = some (next, result))
    (replied : twin.resume more input = some (other, answer)) :
    next.Alike other ∧ result = answer := by
  have matched := alike.resume (max budget more) input
  rw [resume_mono resumed (Nat.le_max_left _ _), resume_mono replied (Nat.le_max_right _ _)] at matched
  obtain ⟨⟨reaches⟩⟩ := matched
  exact ⟨reaches, rfl⟩

/-- The calls of a session return the same if they are made to a machine that is alike. -/
theorem Alike.session {calls : List (Option Cell × Except Trap Event)} {last : Machine}
    (alike : machine.Alike twin) (session : machine.Session calls last) :
    ∃ other, twin.Session calls other ∧ last.Alike other := by
  induction session with
  | opened => exact ⟨twin, .opened, alike⟩
  | @resumed calls last next budget input result _ call inductionHypothesis =>
      obtain ⟨other, second, follows⟩ := inductionHypothesis
      have matched := follows.resume budget input
      rw [call] at matched
      generalize replied : other.resume budget input = reply at matched
      obtain ⟨⟨reaches⟩⟩ := matched
      exact ⟨_, .resumed second replied, reaches⟩

/-- Sessions of machines that are alike can differ only in what the machines are given. -/
theorem Alike.sessions_match {calls others : List (Option Cell × Except Trap Event)}
    {last other : Machine} (alike : machine.Alike twin) (session : machine.Session calls last)
    (second : twin.Session others other) (given : others.map Prod.fst = calls.map Prod.fst) :
    others = calls ∧ last.Alike other := by
  -- Sessions grow at their end, so both are taken apart at their last calls.
  induction session generalizing others other with
  | opened =>
      cases second with
      | opened => exact ⟨rfl, alike⟩
      | resumed => simp at given
  | resumed _ call inductionHypothesis =>
      cases second with
      | opened => simp at given
      | resumed earlier replied =>
          rw [List.map_append, List.map_append] at given
          obtain ⟨before, same⟩ := List.append_inj' given rfl
          obtain ⟨rfl, follows⟩ := inductionHypothesis earlier before
          cases same
          obtain ⟨reaches, rfl⟩ := follows.answers_match call replied
          exact ⟨rfl, reaches⟩

/-- Runs to completion of machines that are alike have the same result. -/
theorem Alike.complete (alike : machine.Alike twin) (budget : Nat) (supplied : Option Cell)
    (values : List Cell) :
    machine.complete budget supplied values = twin.complete budget supplied values := by
  induction budget generalizing machine twin supplied values with
  | zero => rfl
  | succ budget inductionHypothesis =>
      have matched := alike.resume (budget + 1) supplied
      unfold Machine.complete
      generalize machine.resume (budget + 1) supplied = answer,
        twin.resume (budget + 1) supplied = reply at matched ⊢
      cases matched with
      | none => rfl
      | some matched =>
          obtain @⟨next, other, result, follows⟩ := matched
          rcases result with trap | event
          · rfl
          cases event with
          | halted => rfl
          | output value =>
              dsimp only
              rw [inductionHypothesis follows]
          | needInput =>
              cases values with
              | nil =>
                  dsimp only
                  rw [follows.instruction]
              | cons value rest => exact inductionHypothesis follows (some value) rest

end Machine

theorem load_alike_of_zeros (program : Program) (count : Nat) :
    (Machine.load (program ++ List.replicate count 0)).Alike (Machine.load program) where
  memory := Memory.read_load_append_zeros program count
  ip := rfl
  base := rfl
  status := rfl
  instruction := rfl
  modes _ := rfl

/-- Where memory keeps its cells does not show. The same calls of two machines that are alike
return, and if the machines are given the same then they answer the same and stay alike. So a
program runs as it does with any number of zeros behind it. -/
theorem layout_does_not_show :
    (∀ machine twin : Machine, machine.Alike twin →
      (∀ calls, (∃ last, machine.Session calls last) ↔ ∃ other, twin.Session calls other) ∧
      ∀ calls last others other, machine.Session calls last → twin.Session others other →
        others.map Prod.fst = calls.map Prod.fst → others = calls ∧ last.Alike other) ∧
    ∀ budget program count values,
      run budget (program ++ List.replicate count 0) values = run budget program values := by
  constructor
  · intro machine twin alike
    refine ⟨fun calls => ⟨?_, ?_⟩, ?_⟩
    · rintro ⟨last, session⟩
      obtain ⟨other, second, _⟩ := alike.session session
      exact ⟨other, second⟩
    · rintro ⟨other, second⟩
      obtain ⟨last, session, _⟩ := alike.symm.session second
      exact ⟨last, session⟩
    · intro calls last others other session second given
      exact alike.sessions_match session second given
  · intro budget program count values
    exact (load_alike_of_zeros program count).complete budget none values

/-- A program that is sparse, with a zero written behind it, echoes a value as it does when it
is dense. -/
theorem layout_of_echo_does_not_show :
    let machine := Machine.load [3, 1, 4, 1, 99]
    let twin : Machine :=
      { machine with
        memory := (((((Memory.load []).write 0 3).write 1 1).write 2 4).write 3 1).write 4 99
          |>.write 7 0 }
    let calls : List (Option Cell × Except Trap Event) :=
      [(none, .ok .needInput), (some 5, .ok (.output 5))]
    machine.Alike twin ∧ twin.memory ≠ machine.memory ∧ (∃ last, machine.Session calls last) ∧
      ∃ other, twin.Session calls other := by
  intro machine twin calls
  have alike : machine.Alike twin := by
    refine ⟨?_, rfl, rfl, rfl, rfl, fun _ => rfl⟩
    intro address
    simp only [machine, twin, Machine.load, Memory.read_write, Memory.read_load]
    rcases address with _ | _ | _ | _ | _ | address <;> simp
  have asked : machine.resume 1 none =
      some ({ machine with ip := 1, status := .awaitingInput }, .ok .needInput) := by decide
  have echoed : { machine with ip := 1, status := .awaitingInput }.resume 2 (some 5) =
      some ({ Machine.load [3, 5, 4, 1, 99] with ip := 4, status := .running, instruction := 2 },
        .ok (.output 5)) := by decide
  have session := Machine.Session.resumed (.resumed .opened asked) echoed
  refine ⟨alike, ?_, ⟨_, session⟩, ?_⟩
  · intro same
    exact absurd (congrArg (fun memory => memory.cells.size) same) (by decide)
  · exact ((layout_does_not_show.1 machine twin alike).1 calls).mp ⟨_, session⟩

end Intcode
