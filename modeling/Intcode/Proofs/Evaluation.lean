/-
This file says what the evaluation of an instruction can give: the faults that
it raises, and the effects that each operation has.
-/

import Intcode.Machine.Step
import Mathlib.Tactic

namespace Intcode

section Except

variable {Error First Second : Type} {first : Except Error First} {rest : First → Except Error Second}

@[simp] theorem ok_bind (value : First) :
    ((.ok value : Except Error First) >>= rest) = rest value := rfl

@[simp] theorem error_bind (error : Error) :
    ((.error error : Except Error First) >>= rest) = .error error := rfl

theorem bind_eq_ok {result : Second} :
    (first >>= rest) = .ok result ↔ ∃ value, first = .ok value ∧ rest value = .ok result := by
  cases first <;> simp

theorem bind_eq_error {error : Error} :
    (first >>= rest) = .error error ↔
      first = .error error ∨ ∃ value, first = .ok value ∧ rest value = .error error := by
  cases first <;> simp

end Except

/-- The faults of instructions. The other faults are those of whoever drives the machine. -/
def Fault.OfInstruction : Fault → Prop
  | .resumeAfterHalt | .unexpectedInput _ | .missingInput => False
  | _ => True

/-- An evaluation raises no fault but those of instructions. -/
def Contained {Result : Type} (evaluation : Except Fault Result) : Prop :=
  ∀ fault, evaluation = .error fault → fault.OfInstruction

theorem Contained.ok {Result : Type} (result : Result) : Contained (.ok result) := by
  intro fault raised
  cases raised

theorem Contained.error {Result : Type} {fault : Fault} (inner : fault.OfInstruction) :
    Contained (Except.error fault : Except Fault Result) := by
  intro raised same
  cases same
  exact inner

theorem Contained.bind {First Second : Type} {first : Except Fault First}
    {rest : First → Except Fault Second} (before : Contained first)
    (after : ∀ value, Contained (rest value)) : Contained (first >>= rest) := by
  intro fault raised
  rcases bind_eq_error.mp raised with early | ⟨value, _, late⟩
  · exact before fault early
  · exact after value fault late

namespace Machine

theorem mode_contained (machine : Machine) (index : Nat) : Contained (machine.mode index) := by
  unfold mode
  split
  · exact .ok _
  · exact .error trivial

theorem location_contained (address : Cell) : Contained (location address) := by
  unfold location
  split
  · exact .error trivial
  · exact .ok _

theorem address_contained (machine : Machine) (index : Nat) : Contained (machine.address index) := by
  apply Contained.bind (machine.mode_contained index)
  intro mode
  cases mode with
  | position => exact location_contained _
  | immediate => exact .ok _
  | relative =>
      dsimp only
      split
      · exact location_contained _
      · exact .error trivial

theorem value_contained (machine : Machine) (index : Nat) : Contained (machine.value index) :=
  (machine.address_contained index).bind fun _ => .ok _

theorem checkTarget_contained (machine : Machine) (index : Nat) :
    Contained (machine.checkTarget index) := by
  apply Contained.bind (machine.mode_contained index)
  intro mode
  cases mode with
  | immediate => exact .error trivial
  | position | relative => exact .ok _

theorem target_contained (machine : Machine) (index : Nat) : Contained (machine.target index) :=
  (machine.checkTarget_contained index).bind fun _ => machine.address_contained index

theorem combine_contained (machine : Machine) (operation : Cell → Cell → Option Cell) :
    Contained (machine.combine operation) := by
  refine (machine.value_contained 0).bind fun left => ?_
  refine (machine.value_contained 1).bind fun right => ?_
  split
  · exact (machine.target_contained 2).bind fun _ => .ok _
  · exact .error trivial

theorem jumpIf_contained (machine : Machine) (taken : Cell → Bool) :
    Contained (machine.jumpIf taken) := by
  refine (machine.value_contained 0).bind fun condition => ?_
  refine (machine.value_contained 1).bind fun destination => ?_
  split
  · exact (location_contained destination).bind fun _ => .ok _
  · exact .ok _

theorem perform_contained (machine : Machine) (opcode : Opcode) :
    Contained (machine.perform opcode) := by
  cases opcode with
  | add | multiply | less | equal =>
      rw [perform]
      exact machine.combine_contained _
  | jumpTrue | jumpZero => exact machine.jumpIf_contained _
  | input => exact (machine.checkTarget_contained 0).bind fun _ => .ok _
  | output => exact (machine.value_contained 0).bind fun _ => .ok _
  | rebase =>
      refine (machine.value_contained 0).bind fun offset => ?_
      split
      · exact .ok _
      · exact .error trivial
  | halt => exact .ok _

/-- Every fault of an evaluation is one of instructions. -/
theorem evaluate_contained (machine : Machine) : Contained machine.evaluate := by
  unfold evaluate
  dsimp only
  split
  · exact machine.perform_contained _
  · exact .error trivial

/-- A parameter can be written through in position mode and in relative mode. -/
theorem checkTarget_eq_ok {machine : Machine} {index : Nat} :
    machine.checkTarget index = .ok () ↔
      Mode.digitAt machine.modes index = 0 ∨ Mode.digitAt machine.modes index = 2 := by
  unfold checkTarget mode
  generalize Mode.digitAt machine.modes index = digit
  match digit with
  | 0 | 2 => exact iff_of_true rfl (by decide)
  | 1 | .ofNat (_ + 3) | .negSucc _ =>
      exact iff_of_false (fun checked => nomatch checked) (by rintro (same | same) <;> cases same)

/-- An input instruction awaits a value if it can be written through. -/
theorem evaluate_eq_checkTarget {machine : Machine}
    (number : Opcode.numberOf (machine.memory.read machine.instruction) = 3) :
    machine.evaluate = (machine.checkTarget 0 >>= fun _ => .ok Effect.await) := by
  unfold evaluate
  dsimp only
  rw [number]
  rfl

theorem evaluate_input {machine : Machine}
    (number : Opcode.numberOf (machine.memory.read machine.instruction) = 3)
    (checked : machine.checkTarget 0 = .ok ()) : machine.evaluate = .ok .await := by
  rw [evaluate_eq_checkTarget number, checked, ok_bind]

theorem combine_eq_ok {machine : Machine} {operation : Cell → Cell → Option Cell} {effect : Effect}
    (evaluated : machine.combine operation = .ok effect) :
    ∃ address value, effect = .store address value ∧ machine.target 2 = .ok address := by
  obtain ⟨left, _, evaluated⟩ := bind_eq_ok.mp evaluated
  obtain ⟨right, _, evaluated⟩ := bind_eq_ok.mp evaluated
  split at evaluated
  next result _ =>
    obtain ⟨address, written, stored⟩ := bind_eq_ok.mp evaluated
    cases stored
    exact ⟨address, result, rfl, written⟩
  next => cases evaluated

theorem jumpIf_eq_ok {machine : Machine} {taken : Cell → Bool} {effect : Effect}
    (evaluated : machine.jumpIf taken = .ok effect) :
    effect = .fallThrough ∨
      ∃ destination target, effect = .jump target ∧ location destination = .ok target := by
  obtain ⟨condition, _, evaluated⟩ := bind_eq_ok.mp evaluated
  obtain ⟨destination, _, evaluated⟩ := bind_eq_ok.mp evaluated
  split at evaluated
  · obtain ⟨target, located, jumped⟩ := bind_eq_ok.mp evaluated
    cases jumped
    exact .inr ⟨destination, target, rfl, located⟩
  · cases evaluated
    exact .inl rfl

/-- What is known of the operation and the parameters behind an effect. -/
def Grounds (machine : Machine) (opcode : Opcode) : Effect → Prop
  | .store address _ => machine.target 2 = .ok address
  | .jump target => ∃ destination, location destination = .ok target
  | .await => opcode = .input ∧ machine.checkTarget 0 = .ok ()
  | .emit _ => opcode = .output
  | .halt => opcode = .halt
  | .fallThrough | .rebase _ => True

theorem perform_grounds {machine : Machine} {opcode : Opcode} {effect : Effect}
    (evaluated : machine.perform opcode = .ok effect) : machine.Grounds opcode effect := by
  cases opcode with
  | add | multiply | less | equal =>
      rw [perform] at evaluated
      obtain ⟨address, value, rfl, written⟩ := combine_eq_ok evaluated
      exact written
  | jumpTrue | jumpZero =>
      obtain rfl | ⟨destination, target, rfl, located⟩ := jumpIf_eq_ok evaluated
      · trivial
      · exact ⟨destination, located⟩
  | input =>
      obtain ⟨_, checked, awaited⟩ := bind_eq_ok.mp evaluated
      cases awaited
      exact ⟨rfl, checked⟩
  | output =>
      obtain ⟨value, _, emitted⟩ := bind_eq_ok.mp evaluated
      cases emitted
      rfl
  | rebase =>
      obtain ⟨offset, _, evaluated⟩ := bind_eq_ok.mp evaluated
      split at evaluated <;> cases evaluated
      trivial
  | halt =>
      cases evaluated
      rfl

/-- An effect comes from the operation that the instruction's first cell selects. -/
theorem evaluate_grounds {machine : Machine} {effect : Effect}
    (evaluated : machine.evaluate = .ok effect) :
    ∃ opcode : Opcode, Opcode.numberOf (machine.memory.read machine.instruction) = opcode.number ∧
      machine.Grounds opcode effect := by
  unfold evaluate at evaluated
  dsimp only at evaluated
  split at evaluated
  next opcode selected =>
    exact ⟨opcode, (Opcode.ofNumber?_eq_some.mp selected).symm, perform_grounds evaluated⟩
  next => cases evaluated

end Machine

end Intcode
