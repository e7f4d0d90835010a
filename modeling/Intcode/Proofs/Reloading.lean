/-
This file shows that what is printed can be loaded. The text of a program is loaded as
that program, and the text of a machine's memory as the cells that stand where the
program was.
-/

import Intcode.Proofs.Grammar
import Intcode.Proofs.Session

namespace Intcode

namespace Program

/-- The text of header lines. -/
def headerText (lines : List (List Char)) : List Char :=
  lines.flatMap (· ++ ['\n'])

/-- Header lines before a text belong to its header. -/
theorem Headed.prepend {lines : List (List Char)} {text body : List Char}
    (headed : Headed text body) (headers : ∀ line ∈ lines, HeaderLine line) :
    Headed (headerText lines ++ text) body := by
  induction lines with
  | nil => exact headed
  | cons line lines inductionHypothesis =>
      rw [List.forall_mem_cons] at headers
      have later := Headed.line headers.1 (inductionHypothesis headers.2)
      simpa [headerText] using later

/-- A text that lists cells is not mistaken for a header. -/
theorem Lists.headed {body : List Char} {cells : List Cell} (lists : Lists body cells) :
    Headed body body := by
  apply Headed.body
  intro marked
  have apart := lists.apart.prefix marked
  rw [List.isChain_pair] at apart
  exact apart rfl rfl

theorem spells_render (cell : Cell) (blanks : List Char)
    (blank : ∀ character ∈ blanks, Text.isBlank character) :
    Spells (cell.render.toList ++ blanks) cell :=
  ⟨cell.render.toList, ⟨[], blanks, rfl, nofun, blank⟩, cell.render_denotes⟩

theorem comma_not_mem_render (cell : Cell) : ',' ∉ cell.render.toList := by
  intro inside
  exact absurd (cell.render_denotes.character inside) (by decide)

/-- The text of a program lists its cells, also with blank characters behind it. -/
theorem lists_render {program : Program} {blanks : List Char} (present : program ≠ [])
    (blank : ∀ character ∈ blanks, Text.isBlank character) :
    Lists ((render program).toList ++ blanks) program := by
  rw [render, String.toList_intercalate]
  induction program with
  | nil => exact absurd rfl present
  | cons cell rest inductionHypothesis =>
      cases rest with
      | nil =>
          have unbroken : ',' ∉ cell.render.toList ++ blanks := by
            simp [comma_not_mem_render cell, Text.comma_not_mem blank]
          refine ⟨_, ?_, .cons (spells_render cell blanks blank) .nil⟩
          simpa using Separated.last unbroken
      | cons second rest =>
          obtain ⟨pieces, separated, spelled⟩ := inductionHypothesis (List.cons_ne_nil second rest)
          have first : Spells cell.render.toList cell := by
            simpa using spells_render cell [] nofun
          refine ⟨cell.render.toList :: pieces, ?_, .cons first spelled⟩
          simpa using Separated.piece (comma_not_mem_render cell) separated

/-- A text is loaded as a program if it is that program's text, with header lines before it and
blank characters behind it. -/
theorem parse_of_render {source : Source} {program : Program} {lines : List (List Char)}
    {blanks : List Char} (present : program ≠ []) (headers : ∀ line ∈ lines, HeaderLine line)
    (blank : ∀ character ∈ blanks, Text.isBlank character)
    (text : source.text.toList = headerText lines ++ ((render program).toList ++ blanks)) :
    parse source = .ok program := by
  have lists := lists_render present blank
  have headed := lists.headed.prepend headers
  rw [← text] at headed
  exact (parse_eq_ok headed).mpr lists

/-- A program that was loaded has a cell. -/
theorem ne_nil_of_parse {source : Source} {program : Program} (parsed : parse source = .ok program) :
    program ≠ [] := by
  obtain ⟨body, headed⟩ := exists_headed source.text.toList
  have size := ((parse_eq_ok headed).mp parsed).length_eq
  rintro rfl
  cases size

end Program

/-- The dense cells are what is read at the first addresses. -/
theorem Memory.cells_toList (memory : Memory) :
    memory.cells.toList = (List.range memory.cells.size).map memory.read := by
  apply List.ext_getElem
  · simp
  · intro address inside _
    rw [Array.length_toList] at inside
    simp [Memory.read, inside]

namespace Machine

variable {machine next : Machine}

theorem apply_size (machine : Machine) (effect : Effect) :
    (machine.apply effect).1.memory.cells.size = machine.memory.cells.size := by
  cases effect <;> simp [apply]

theorem Continues.size (continues : machine.Continues next) :
    next.memory.cells.size = machine.memory.cells.size := by
  obtain ⟨effect, _, applied⟩ := step_eq_ok.mp continues
  have kept := machine.fetch.apply_size effect
  rwa [applied] at kept

theorem Pauses.size {result : Except Trap Event} (pauses : machine.Pauses next result) :
    next.memory.cells.size = machine.memory.cells.size := by
  rcases result with trap | event
  · obtain ⟨_, rfl, _⟩ := pauses_trap.mp pauses
    rfl
  · obtain ⟨effect, _, applied⟩ := step_eq_ok.mp pauses
    have kept := machine.fetch.apply_size effect
    rwa [applied] at kept

theorem Starts.size {input : Option Cell} (starts : machine.Starts input next) :
    next.memory.cells.size = machine.memory.cells.size := by
  cases starts with
  | onward => rfl
  | supplied _ stored =>
      obtain ⟨address, _, rfl⟩ := supply_eq_ok.mp stored
      exact Memory.size_write _ _ _

/-- A call writes to dense cells or beside them, and makes no more of them. -/
theorem Answers.size {budget : Nat} {input : Option Cell} {result : Except Trap Event}
    (answers : Answers budget machine input next result) :
    next.memory.cells.size = machine.memory.cells.size := by
  cases answers with
  | closed | again | refused => rfl
  | unstored _ failed =>
      obtain ⟨_, rfl, _⟩ := supply_eq_error.mp failed
      rfl
  | @executed _ start _ _ starts advanced =>
      obtain ⟨last, executes, pauses⟩ := pauses_of_advance advanced
      have kept : last.memory.cells.size = start.memory.cells.size :=
        executes.keeps (fun _ _ same continues => continues.size.trans same) rfl
      rw [pauses.size, kept, starts.size]

theorem Session.size {program : Program} {calls : List (Option Cell × Except Trap Event)}
    (session : (load program).Session calls machine) :
    machine.memory.cells.size = program.length := by
  induction session with
  | opened => exact List.size_toArray
  | resumed _ call inductionHypothesis =>
      rw [(resume_eq_some.mp call).size, inductionHypothesis]

/-- The dense cells of a machine are what it reads at the addresses of the program. -/
theorem Session.cells {program : Program} {calls : List (Option Cell × Except Trap Event)}
    (session : (load program).Session calls machine) :
    machine.memory.cells.toList = (List.range program.length).map machine.memory.read := by
  rw [machine.memory.cells_toList, session.size]

end Machine

/-- What is printed can be loaded. The text of a program, with header lines before it and blank
characters behind it, is loaded as that program, so a program that was loaded is loaded again from
its own text. The text of a machine's memory, with or without a line feed, is loaded as what the
machine reads at the addresses of the program. -/
theorem printed_text_loads_back :
    (∀ (program : Program) lines blanks path, program ≠ [] →
      (∀ line ∈ lines, Program.HeaderLine line) → (∀ character ∈ blanks, Text.isBlank character) →
      Program.parse
          ⟨String.ofList (Program.headerText lines) ++ program.render ++ String.ofList blanks, path⟩ =
        .ok program) ∧
    (∀ (source : Source) (program : Program) path, Program.parse source = .ok program →
      Program.parse ⟨program.render, path⟩ = .ok program) ∧
    ∀ (program : Program) calls machine path, program ≠ [] →
      (Machine.load program).Session calls machine →
      ∀ ending ∈ ["", "\n"], Program.parse ⟨machine.memory.render ++ ending, path⟩ =
        .ok ((List.range program.length).map machine.memory.read) := by
  refine ⟨?_, ?_, ?_⟩
  · intro program lines blanks path present headers blank
    apply Program.parse_of_render present headers blank
    simp
  · intro source program path parsed
    apply Program.parse_of_render (Program.ne_nil_of_parse parsed) (List.forall_mem_nil _)
      (List.forall_mem_nil _)
    simp [Program.headerText]
  · intro program calls machine path present session ending either
    have filled : (List.range program.length).map machine.memory.read ≠ [] := by simpa using present
    have blank : ∀ character ∈ ending.toList, Text.isBlank character := by
      rcases List.mem_pair.mp either with rfl | rfl <;> exact List.all_eq_true.mp rfl
    apply Program.parse_of_render filled (List.forall_mem_nil _) blank
    simp [Memory.render, session.cells, Program.headerText]

/-- A program that adds to the least cell is loaded from its text, and so is what it leaves. -/
theorem least_cell_loads_back :
    let program : Program := [1101, -9223372036854775808, 3, 0, 99]
    let machine : Machine :=
      { Machine.load [-9223372036854775805, -9223372036854775808, 3, 0, 99] with
        ip := 5, status := .halted, instruction := 4 }
    Program.parse ⟨String.ofList (Program.headerText [['-', '-', '-']]) ++ program.render ++
      String.ofList ['\n'], "least.ic"⟩ = .ok program ∧
    (Machine.load program).Session [(none, .ok .halted)] machine ∧
    Program.parse ⟨machine.memory.render ++ "\n", "dump.ic"⟩ =
      .ok [-9223372036854775805, -9223372036854775808, 3, 0, 99] := by
  intro program machine
  have header : ∀ line ∈ [['-', '-', '-']], Program.HeaderLine line := by
    rw [List.forall_mem_singleton]
    exact ⟨by decide, by decide⟩
  have ended : (Machine.load program).resume 2 none = some (machine, .ok .halted) := by decide
  have session := Machine.Session.resumed .opened ended
  have cells : (List.range program.length).map machine.memory.read =
      [-9223372036854775805, -9223372036854775808, 3, 0, 99] := by decide
  have dumped := printed_text_loads_back.2.2 program _ machine "dump.ic" (by decide) session "\n"
    (by decide)
  rw [cells] at dumped
  have blank : ∀ character ∈ ['\n'], Text.isBlank character := List.all_eq_true.mp rfl
  exact ⟨printed_text_loads_back.1 program _ ['\n'] "least.ic" (by decide) header blank, session,
    dumped⟩

end Intcode
