/-
This file shows that memory is a map that holds zero where nothing was written. What a
memory holds is told from the writes that were made, and how it is kept depends on nothing
but the last of them at each address.
-/

import Intcode.Proofs.Reloading
import Intcode.Proofs.Simulation
import Mathlib.Data.List.GetD

namespace Intcode.Memory

/-- The memory after writes that are made one after another. -/
def writeAll (memory : Memory) (writes : List (Nat × Cell)) : Memory :=
  writes.foldl (fun memory write => memory.write write.1 write.2) memory

/-- An address is written at least once. -/
def Written (writes : List (Nat × Cell)) (address : Nat) : Prop :=
  ∃ write ∈ writes, write.1 = address

instance (writes : List (Nat × Cell)) (address : Nat) : Decidable (Written writes address) :=
  inferInstanceAs (Decidable (∃ write ∈ writes, write.1 = address))

/-- This value is written to an address, and none after it. -/
def LastWritten (writes : List (Nat × Cell)) (address : Nat) (value : Cell) : Prop :=
  ∃ earlier later, writes = earlier ++ (address, value) :: later ∧ ¬ Written later address

/-- Two sequences have the same writes, and those to one address in the same order. -/
def Rearranges (writes others : List (Nat × Cell)) : Prop :=
  ∀ address, writes.filter (·.1 == address) = others.filter (·.1 == address)

/-- The value that is written last to an address, if one is. -/
def lastValue? (writes : List (Nat × Cell)) (address : Nat) : Option Cell :=
  (writes.filter (·.1 == address)).getLast?.map Prod.snd

section Histories

variable {writes earlier later : List (Nat × Cell)} {address : Nat} {value : Cell}

theorem written_append :
    Written (earlier ++ later) address ↔ Written earlier address ∨ Written later address := by
  simp only [Written, List.mem_append, or_and_right, exists_or]

theorem written_cons {write : Nat × Cell} :
    Written (write :: later) address ↔ write.1 = address ∨ Written later address := by
  simp only [Written, List.mem_cons, or_and_right, exists_or, exists_eq_left]

theorem lastValue?_append (earlier later : List (Nat × Cell)) (address : Nat) :
    lastValue? (earlier ++ later) address =
      (lastValue? later address).or (lastValue? earlier address) := by
  rw [lastValue?, List.filter_append, List.getLast?_append, Option.map_or]
  rfl

theorem lastValue?_cons (write : Nat × Cell) (later : List (Nat × Cell)) (address : Nat) :
    lastValue? (write :: later) address =
      (lastValue? later address).or (if write.1 = address then some write.2 else none) := by
  have split := lastValue?_append [write] later address
  rw [List.singleton_append] at split
  rw [split]
  by_cases here : write.1 = address <;> simp [lastValue?, here]

theorem lastValue?_eq_none : lastValue? writes address = none ↔ ¬ Written writes address := by
  rw [lastValue?, Option.map_eq_none_iff, List.getLast?_eq_none_iff, List.filter_eq_nil_iff]
  simp only [beq_iff_eq, Written, not_exists, not_and]

theorem lastValue?_eq_some :
    lastValue? writes address = some value ↔ LastWritten writes address value := by
  constructor
  · intro last
    obtain ⟨⟨found, _⟩, ended, rfl⟩ := Option.map_eq_some_iff.mp last
    -- The last write to this address is found again among all writes, with none like it after.
    obtain ⟨before, whole⟩ := List.getLast?_eq_some_iff.mp ended
    obtain ⟨front, back, rfl, -, rest⟩ := List.filter_eq_append_iff.mp whole
    obtain ⟨middle, later, rfl, -, here, after⟩ := List.filter_eq_cons_iff.mp rest
    rw [beq_iff_eq] at here
    subst here
    refine ⟨front ++ middle, later, by simp, ?_⟩
    rw [← lastValue?_eq_none, lastValue?, after]
    rfl
  · rintro ⟨earlier, later, rfl, unwritten⟩
    rw [lastValue?_append, lastValue?_cons, lastValue?_eq_none.mpr unwritten, if_pos rfl]
    rfl

theorem exists_lastWritten (written : Written writes address) :
    ∃ value, LastWritten writes address value := by
  simp only [← lastValue?_eq_some]
  exact Option.ne_none_iff_exists'.mp fun none => lastValue?_eq_none.mp none written

end Histories

section Writing

variable (memory : Memory)

/-- After any number of writes, a cell holds what was written last, or what it held before. -/
theorem read_writeAll (writes : List (Nat × Cell)) (address : Nat) :
    (memory.writeAll writes).read address =
      (lastValue? writes address).getD (memory.read address) := by
  induction writes generalizing memory with
  | nil => rfl
  | cons write later inductionHypothesis =>
      have tail := inductionHypothesis (memory.write write.1 write.2)
      rw [read_write] at tail
      refine tail.trans ?_
      rw [lastValue?_cons]
      cases lastValue? later address with
      | some value => rfl
      | none => by_cases here : write.1 = address <;> simp [here]

theorem size_writeAll (writes : List (Nat × Cell)) :
    (memory.writeAll writes).cells.size = memory.cells.size := by
  induction writes generalizing memory with
  | nil => rfl
  | cons write later inductionHypothesis =>
      exact (inductionHypothesis _).trans (size_write memory write.1 write.2)

theorem mem_sparse_writeAll (writes : List (Nat × Cell)) (address : Nat) :
    address ∈ (memory.writeAll writes).sparse ↔
      address ∈ memory.sparse ∨ memory.cells.size ≤ address ∧ Written writes address := by
  induction writes generalizing memory with
  | nil => simp [writeAll, Written]
  | cons write later inductionHypothesis =>
      have tail := inductionHypothesis (memory.write write.1 write.2)
      rw [size_write, mem_sparse_write] at tail
      rw [written_cons, and_or_left, ← or_assoc]
      exact tail

end Writing

/-- Memories with the same number of dense cells and the same sparse addresses, all of them behind
the dense ones, are told apart by reading. -/
theorem eq_of_read {memory other : Memory} (size : memory.cells.size = other.cells.size)
    (beyond : ∀ address ∈ memory.sparse, memory.cells.size ≤ address)
    (keys : ∀ address, address ∈ memory.sparse ↔ address ∈ other.sparse)
    (reads : ∀ address, memory.read address = other.read address) : memory = other := by
  have cells : memory.cells = other.cells := by
    apply Array.toList_inj.mp
    rw [cells_toList, cells_toList, size, funext reads]
  have sparse : memory.sparse = other.sparse := by
    apply Std.ExtTreeMap.ext_getElem?
    intro address
    by_cases written : address ∈ memory.sparse
    · -- A sparse cell is read, since there is no dense one at its address.
      have outside := beyond address written
      have same := reads address
      rw [read_of_size_le outside, read_of_size_le (size ▸ outside)] at same
      rw [Std.ExtTreeMap.getElem?_eq_some_getD written,
        Std.ExtTreeMap.getElem?_eq_some_getD ((keys address).mp written), same]
    · rw [Std.ExtTreeMap.getElem?_eq_none written,
        Std.ExtTreeMap.getElem?_eq_none (mt (keys address).mpr written)]
  cases memory
  cases other
  cases cells
  cases sparse
  rfl

section Loaded

variable (program : Program) {writes others earlier later : List (Nat × Cell)}

theorem size_writeAll_load (writes : List (Nat × Cell)) :
    ((load program).writeAll writes).cells.size = program.length := by
  rw [size_writeAll]
  exact List.size_toArray

/-- The sparse cells are those that were written behind the program. -/
theorem mem_sparse_writeAll_load (writes : List (Nat × Cell)) (address : Nat) :
    address ∈ ((load program).writeAll writes).sparse ↔
      program.length ≤ address ∧ Written writes address := by
  have size : (load program).cells.size = program.length := List.size_toArray
  have empty : address ∉ (load program).sparse := Std.ExtTreeMap.not_mem_empty
  rw [mem_sparse_writeAll, size, or_iff_right empty]

theorem writeAll_load_eq_iff :
    (load program).writeAll writes = (load program).writeAll others ↔
      (∀ address,
        ((load program).writeAll writes).read address =
          ((load program).writeAll others).read address) ∧
      ∀ address, program.length ≤ address → (Written writes address ↔ Written others address) := by
  constructor
  · intro same
    refine ⟨fun address => by rw [same], ?_⟩
    intro address beyond
    have keys := mem_sparse_writeAll_load program writes address
    rw [same, mem_sparse_writeAll_load] at keys
    simpa only [beyond, true_and] using keys.symm
  · rintro ⟨reads, keys⟩
    refine eq_of_read ?_ ?_ ?_ reads
    · rw [size_writeAll_load, size_writeAll_load]
    · intro address written
      rw [size_writeAll_load]
      exact ((mem_sparse_writeAll_load program writes address).mp written).1
    · intro address
      rw [mem_sparse_writeAll_load, mem_sparse_writeAll_load]
      exact and_congr_right (keys address)

/-- Only what is written last to each address matters. -/
theorem writeAll_load_eq_of_last
    (last : ∀ address, lastValue? writes address = lastValue? others address) :
    (load program).writeAll writes = (load program).writeAll others := by
  refine (writeAll_load_eq_iff program).mpr ⟨?_, ?_⟩
  · intro address
    rw [read_writeAll, read_writeAll, last]
  · intro address _
    rw [← not_iff_not, ← lastValue?_eq_none, ← lastValue?_eq_none, last]

theorem writeAll_load_of_overwritten {address : Nat} (value : Cell)
    (overwritten : Written later address) :
    (load program).writeAll (earlier ++ (address, value) :: later) =
      (load program).writeAll (earlier ++ later) := by
  apply writeAll_load_eq_of_last
  intro other
  rw [lastValue?_append, lastValue?_append, lastValue?_cons]
  by_cases here : address = other
  · subst here
    obtain ⟨final, last⟩ := exists_lastWritten overwritten
    rw [lastValue?_eq_some.mpr last]
    rfl
  · rw [if_neg here, Option.or_none]

/-- A zero behind the program is kept, although it reads like a cell that was never written. -/
theorem writeAll_load_of_zero {address : Nat} (beyond : program.length ≤ address)
    (unwritten : ¬ Written (earlier ++ later) address) :
    (load program).writeAll (earlier ++ (address, 0) :: later) ≠
        (load program).writeAll (earlier ++ later) ∧
      ∀ other,
        ((load program).writeAll (earlier ++ (address, 0) :: later)).read other =
          ((load program).writeAll (earlier ++ later)).read other := by
  constructor
  · intro same
    have written : Written (earlier ++ (address, 0) :: later) address :=
      written_append.mpr (.inr (written_cons.mpr (.inl rfl)))
    have keys := ((writeAll_load_eq_iff program).mp same).2 address beyond
    exact unwritten (keys.mp written)
  · intro other
    rw [read_writeAll, read_writeAll]
    by_cases here : address = other
    · subst here
      have last : LastWritten (earlier ++ (address, 0) :: later) address 0 :=
        ⟨earlier, later, rfl, fun after => unwritten (written_append.mpr (.inr after))⟩
      rw [lastValue?_eq_some.mpr last, lastValue?_eq_none.mpr unwritten, read_load]
      exact (List.getD_eq_default program 0 beyond).symm
    · rw [lastValue?_append, lastValue?_append, lastValue?_cons, if_neg here, Option.or_none]

end Loaded

/-- Memory holds at each address what was written there last, or else the program's cell, or else
zero. The dense cells are those of the program's addresses and the sparse ones those that were
written behind it. Two memories of one program are the same exactly if they read the same and the
same addresses behind the program were written, so writes to distinct addresses may change places
and overwritten ones may be left out, but a zero behind the program may not. -/
theorem memory_is_zero_default_map (program : Program) (writes : List (Nat × Cell)) :
    let memory := (load program).writeAll writes
    (∀ address value, LastWritten writes address value → memory.read address = value) ∧
    (∀ address, ¬ Written writes address → memory.read address = program.getD address 0) ∧
    memory.cells.size = program.length ∧
    memory.cells.toList = (List.range program.length).map memory.read ∧
    (∀ address, address ∈ memory.sparse ↔ program.length ≤ address ∧ Written writes address) ∧
    (∀ others,
      let other := (load program).writeAll others
      (memory = other ↔
        (∀ address, memory.read address = other.read address) ∧
        ∀ address, program.length ≤ address →
          (Written writes address ↔ Written others address)) ∧
      (Rearranges writes others → memory = other)) ∧
    ∀ earlier address value later, writes = earlier ++ (address, value) :: later →
      let without := (load program).writeAll (earlier ++ later)
      (Written later address → memory = without) ∧
      (program.length ≤ address → value = 0 → ¬ Written (earlier ++ later) address →
        memory ≠ without ∧ ∀ other, memory.read other = without.read other) := by
  intro memory
  refine ⟨?_, ?_, size_writeAll_load program writes, ?_, mem_sparse_writeAll_load program writes,
    ?_, ?_⟩
  · intro address value last
    rw [read_writeAll, lastValue?_eq_some.mpr last, Option.getD_some]
  · intro address unwritten
    rw [read_writeAll, lastValue?_eq_none.mpr unwritten, Option.getD_none, read_load]
  · rw [cells_toList, size_writeAll_load]
  · intro others other
    refine ⟨writeAll_load_eq_iff program, ?_⟩
    intro rearranges
    apply writeAll_load_eq_of_last
    intro address
    rw [lastValue?, rearranges address, ← lastValue?]
  · rintro earlier address value later rfl
    refine ⟨writeAll_load_of_overwritten program value, ?_⟩
    rintro beyond rfl unwritten
    exact writeAll_load_of_zero program beyond unwritten

/-- Of two writes to one address behind the program only the second one shows, the write to the
program may come after them, and the zero that is written last can not be left out. -/
theorem far_writes_make_zero_default_map :
    let memory := (load [1, 2]).writeAll [(7, 5), (1, 4), (7, 6), (9, 0)]
    memory.read 7 = 6 ∧ memory.read 0 = 1 ∧ memory.read 8 = 0 ∧ memory.cells.size = 2 ∧
      memory = (load [1, 2]).writeAll [(1, 4), (7, 6), (9, 0)] ∧
      memory = (load [1, 2]).writeAll [(7, 5), (7, 6), (9, 0), (1, 4)] ∧
      memory ≠ (load [1, 2]).writeAll [(7, 5), (1, 4), (7, 6)] := by
  intro memory
  obtain ⟨last, unwritten, size, _, _, others, changed⟩ :=
    memory_is_zero_default_map [1, 2] [(7, 5), (1, 4), (7, 6), (9, 0)]
  refine ⟨last 7 6 ⟨[(7, 5), (1, 4)], [(9, 0)], rfl, by decide⟩, unwritten 0 (by decide),
    unwritten 8 (by decide), size, ?_, ?_, ?_⟩
  · exact (changed [] 7 5 _ rfl).1 (by decide)
  · apply (others _).2
    intro address
    by_cases program : address = 1
    · subst program
      rfl
    · simp [List.filter_cons, Ne.symm program]
  · exact ((changed [(7, 5), (1, 4), (7, 6)] 9 0 [] rfl).2 (by decide) rfl (by decide)).1

end Intcode.Memory
