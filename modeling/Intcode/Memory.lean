/-
This file defines memory. It has no end, and a cell that was never written holds zero.
-/

import Intcode.Program.Basic
import Std.Data.ExtTreeMap

namespace Intcode

/-- The loaded program is dense. What is written past its end is kept apart by address,
so that a write to a distant address costs one entry. -/
structure Memory where
  cells : Array Cell
  sparse : Std.ExtTreeMap Nat Cell
deriving DecidableEq

namespace Memory

def load (program : Program) : Memory :=
  { cells := program.toArray, sparse := ∅ }

def read (memory : Memory) (address : Nat) : Cell :=
  match memory.cells[address]? with
  | some cell => cell
  | none => memory.sparse.getD address 0

def write (memory : Memory) (address : Nat) (value : Cell) : Memory :=
  if address < memory.cells.size then
    { memory with cells := memory.cells.setIfInBounds address value }
  else
    { memory with sparse := memory.sparse.insert address value }

/-- A write shows at its own address and nowhere else. -/
theorem read_write (memory : Memory) (address other : Nat) (value : Cell) :
    (memory.write address value).read other =
      if address = other then value else memory.read other := by
  by_cases inside : address < memory.cells.size
  · by_cases same : address = other
    · subst same
      simp [read, write, inside]
    · simp [read, write, inside, same]
  · by_cases same : address = other
    · subst same
      simp [read, write, inside]
    · simp [read, write, inside, same, Std.ExtTreeMap.getD_insert]

@[simp]
theorem size_write (memory : Memory) (address : Nat) (value : Cell) :
    (memory.write address value).cells.size = memory.cells.size := by
  by_cases inside : address < memory.cells.size <;> simp [write, inside]

/-- A write makes a sparse cell only where there is no dense one. -/
theorem mem_sparse_write (memory : Memory) (address : Nat) (value : Cell) (other : Nat) :
    other ∈ (memory.write address value).sparse ↔
      other ∈ memory.sparse ∨ memory.cells.size ≤ other ∧ address = other := by
  unfold write
  split
  next dense =>
    have apart : ¬ (memory.cells.size ≤ other ∧ address = other) := by omega
    simp [apart]
  next beyond =>
    have place : memory.cells.size ≤ other ∧ address = other ↔ address = other := by omega
    simp [place, or_comm]

theorem read_of_size_le {memory : Memory} {address : Nat} (beyond : memory.cells.size ≤ address) :
    memory.read address = memory.sparse.getD address 0 := by
  rw [read, Array.getElem?_eq_none beyond]

/-- The text of the dense cells, in the form of program text. -/
def render (memory : Memory) : String :=
  Program.render memory.cells.toList

end Memory

end Intcode
