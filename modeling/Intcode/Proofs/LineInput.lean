/-
This file shows that lines of input are further values for the queue. They are read
one at a time, when they are asked for, and only a line that is asked for can be bad.
-/

import Intcode.Proofs.Demand

namespace Intcode

namespace Feed

/-- The lines of some bytes. A line feed ends a line and belongs to it, and what stands behind
the last line feed is a line if there is anything. -/
inductive Lines : List UInt8 → List (List UInt8) → Prop where
  | nothing : Lines [] []
  | last {line : List UInt8} (present : line ≠ []) (unbroken : 0x0a ∉ line) : Lines line [line]
  | ended {line rest : List UInt8} {lines : List (List UInt8)} (unbroken : 0x0a ∉ line)
      (later : Lines rest lines) : Lines (line ++ 0x0a :: rest) ((line ++ [0x0a]) :: lines)

/-- All bytes have lines. -/
theorem exists_lines (bytes : List UInt8) : ∃ lines, Lines bytes lines := by
  induction bytes with
  | nil => exact ⟨[], .nothing⟩
  | cons byte rest inductionHypothesis =>
      obtain ⟨lines, later⟩ := inductionHypothesis
      by_cases ends : byte = 0x0a
      · subst ends
        exact ⟨[0x0a] :: lines, .ended List.not_mem_nil later⟩
      -- The byte belongs to the first line behind it, or is a line of its own.
      have outside {line : List UInt8} (unbroken : 0x0a ∉ line) : 0x0a ∉ byte :: line := by
        simp [Ne.symm ends, unbroken]
      cases later with
      | nothing => exact ⟨[[byte]], .last (by simp) (outside List.not_mem_nil)⟩
      | last present unbroken => exact ⟨[byte :: rest], .last (by simp) (outside unbroken)⟩
      | ended unbroken later => exact ⟨_, .ended (outside unbroken) later⟩

theorem Lines.splitAfter {bytes : List UInt8} {lines : List (List UInt8)}
    (cut : Lines bytes lines) : Text.splitAfter (· == 0x0a) bytes = lines := by
  have inside {line : List UInt8} (unbroken : 0x0a ∉ line) :
      ∀ byte ∈ line, (byte == 0x0a) = false := by
    intro byte present
    rw [beq_eq_false_iff_ne]
    rintro rfl
    exact unbroken present
  induction cut with
  | nothing => rfl
  | last present unbroken => exact Text.splitAfter_unended (inside unbroken) present
  | ended unbroken _ inductionHypothesis =>
      rw [Text.splitAfter_ended (inside unbroken) (by rfl), inductionHypothesis]

theorem Lines.ofBytes {bytes : List UInt8} {lines : List (List UInt8)} (cut : Lines bytes lines) :
    Feed.ofBytes bytes = .lines lines := by
  rw [Feed.ofBytes, cut.splitAfter]

/-- A line is well-formed text, and without the blank characters at its ends it is the numeral
of a value. -/
def Gives (line : List UInt8) (value : Cell) : Prop :=
  ∃ text, Text.decode? line = some text ∧ Numeral.read (Text.trim text.toList) = .ok value

/-- The first of these lines, if there is one, gives no value. -/
def Stuck (lines : List (List UInt8)) : Prop :=
  ∀ line ∈ lines.head?, ∀ value, ¬ Gives line value

/-- What is said when a value is asked for and the first of these lines gives none. -/
def complaint : List (List UInt8) → String
  | [] => "Input closed before the program finished"
  | line :: _ =>
      match Text.decode? line with
      | none => "Could not read input"
      | some text =>
          "Expected an integer as input, found '" ++ String.ofList (Text.trim text.toList) ++ "'"

theorem Gives.next {line : List UInt8} {value : Cell} (gives : Gives line value)
    (rest : List (List UInt8)) : (lines (line :: rest)).next = .ok (value, lines rest) := by
  obtain ⟨text, decoded, read⟩ := gives
  simp [Feed.next, readLine, decoded, read, Except.map]

theorem Stuck.next {unread : List (List UInt8)} (stuck : Stuck unread) :
    ∃ shortage, (lines unread).next = .error shortage ∧ shortage.message = complaint unread := by
  rcases unread with _ | ⟨line, rest⟩
  · exact ⟨.closed, rfl, rfl⟩
  cases decoded : Text.decode? line with
  | none =>
      refine ⟨.unreadable, ?_, ?_⟩
      · simp [Feed.next, readLine, decoded, Except.map]
      · rw [complaint, decoded]
        rfl
  | some text =>
      cases read : Numeral.read (Text.trim text.toList) with
      | ok value => exact (stuck line rfl value ⟨text, decoded, read⟩).elim
      | error problem =>
          refine ⟨.notInteger (String.ofList (Text.trim text.toList)), ?_, ?_⟩
          · simp [Feed.next, readLine, decoded, read, Except.map]
          · rw [complaint, decoded]
            rfl

/-- Lines that give values do so before those behind them. -/
theorem yields_append {readable unread : List (List UInt8)} {given values : List Cell}
    {shortage : Shortage} (gives : List.Forall₂ Gives readable given)
    (yields : (lines unread).Yields values shortage) :
    (lines (readable ++ unread)).Yields (given ++ values) shortage := by
  induction gives with
  | nil => exact yields
  | cons gives _ inductionHypothesis => exact .drawn (gives.next _) inductionHypothesis

/-- All lines can be divided behind the last one up to which every line gives a value. -/
theorem exists_stuck (lines : List (List UInt8)) :
    ∃ readable unread values, lines = readable ++ unread ∧ List.Forall₂ Gives readable values ∧
      Stuck unread := by
  induction lines with
  | nil => exact ⟨[], [], [], rfl, .nil, nofun⟩
  | cons line lines inductionHypothesis =>
      by_cases gives : ∃ value, Gives line value
      · obtain ⟨value, gives⟩ := gives
        obtain ⟨readable, unread, values, rfl, given, stuck⟩ := inductionHypothesis
        exact ⟨line :: readable, unread, value :: values, rfl, .cons gives given, stuck⟩
      · refine ⟨[], line :: lines, [], rfl, .nil, ?_⟩
        rintro _ ⟨⟩ value given
        exact gives ⟨value, given⟩

theorem exists_yields (unread : List (List UInt8)) :
    ∃ values shortage, (lines unread).Yields values shortage := by
  obtain ⟨readable, rest, values, rfl, gives, stuck⟩ := exists_stuck unread
  obtain ⟨shortage, failed, _⟩ := stuck.next
  exact ⟨values ++ [], shortage, yields_append gives (.short failed)⟩

end Feed

/-- The breakdown with another reason for want of a value. -/
def Breakdown.blame (shortage : Shortage) : Breakdown → Breakdown
  | .trap cause => .trap cause
  | .shortage _ => .shortage shortage

def Dialogue.blame (shortage : Shortage) (dialogue : Dialogue) : Dialogue :=
  { dialogue with breakdown := dialogue.breakdown.map (Breakdown.blame shortage) }

theorem Dialogue.blame_of_complete {dialogue : Dialogue}
    (complete : ∀ shortage, dialogue.breakdown ≠ some (.shortage shortage)) (shortage : Shortage) :
    dialogue.blame shortage = dialogue := by
  rcases dialogue with ⟨outputs, _ | trap | cause, machine⟩
  · rfl
  · rfl
  · exact absurd rfl (complete cause)

/-- A dialogue with a feed goes as if all values of the feed were queued, except that it knows
why there are no more. -/
theorem Machine.converse_yields {feed : Feed} {values : List Cell} {shortage : Shortage}
    (budget : Nat) (machine : Machine) (supplied : Option Cell) (queue : List Cell)
    (yields : feed.Yields values shortage) :
    machine.converse budget supplied queue feed =
      (machine.converse budget supplied (queue ++ values) .nothing).map
        (Dialogue.blame shortage) := by
  induction budget generalizing machine supplied queue feed values with
  | zero => rfl
  | succ budget inductionHypothesis =>
      rcases resumed : machine.resume (budget + 1) supplied with _ | ⟨next, trap | event⟩
      · rw [converse_none resumed, converse_none resumed, Option.map_none]
      · rw [converse_trap resumed, converse_trap resumed]
        rfl
      cases event with
      | halted =>
          rw [converse_halted resumed, converse_halted resumed]
          rfl
      | output value =>
          rw [converse_output resumed, converse_output resumed,
            inductionHypothesis next none queue yields, Option.map_map, Option.map_map]
          rfl
      | needInput =>
          rcases queue with _ | ⟨value, queue⟩
          -- The queue is used up, so that the feed's first value is due on both sides.
          · cases yields with
            | short failed =>
                rw [List.append_nil, converse_short resumed failed, converse_short resumed rfl]
                rfl
            | drawn drawn later =>
                rw [List.nil_append, converse_fed resumed drawn, converse_queued resumed]
                exact inductionHypothesis next _ [] later
          · rw [List.cons_append, converse_queued resumed, converse_queued resumed]
            exact inductionHypothesis next (some value) queue yields

theorem converse_yields {feed : Feed} {values : List Cell} {shortage : Shortage} (budget : Nat)
    (program : Program) (queue : List Cell) (yields : feed.Yields values shortage) :
    converse budget program queue feed =
      (converse budget program (queue ++ values) .nothing).map (Dialogue.blame shortage) :=
  Machine.converse_yields budget (.load program) none queue yields

/-- How a dialogue that reads lines goes, as told by one that has the values of the first lines
in its queue and nothing else. -/
structure Dialogue.Retells (unread : List (List UInt8)) (fed queued : Dialogue) : Prop where
  outputs : fed.outputs = queued.outputs
  machine : fed.machine = queued.machine
  success : fed.failure = none ↔ queued.failure = none
  trap : ∀ trap, queued.breakdown = some (.trap trap) → fed.failure = some trap.message
  shortage : ∀ shortage, queued.breakdown = some (.shortage shortage) →
    fed.failure = some (Feed.complaint unread)

theorem Dialogue.retells_blame {unread : List (List UInt8)} {shortage : Shortage}
    (complains : shortage.message = Feed.complaint unread) (dialogue : Dialogue) :
    Retells unread (dialogue.blame shortage) dialogue where
  outputs := rfl
  machine := rfl
  success := by simp [failure, blame]
  trap trap broken := by simp [failure, blame, broken, Breakdown.blame, Breakdown.message]
  shortage cause broken := by
    simp [failure, blame, broken, Breakdown.blame, Breakdown.message, complains]

/-- The lines of some bytes are `readable`, which give `values`, and behind them `unread`. -/
structure Feed.Reads (bytes : List UInt8) (readable unread : List (List UInt8))
    (values : List Cell) : Prop where
  lines : Lines bytes (readable ++ unread)
  gives : List.Forall₂ Gives readable values

/-- All bytes have lines up to the first that gives no value. -/
theorem Feed.exists_reads (bytes : List UInt8) :
    ∃ readable unread values, Reads bytes readable unread values ∧ Stuck unread := by
  obtain ⟨lines, cut⟩ := exists_lines bytes
  obtain ⟨readable, unread, values, rfl, gives, stuck⟩ := exists_stuck lines
  exact ⟨readable, unread, values, ⟨cut, gives⟩, stuck⟩

section Reads

variable {bytes : List UInt8} {readable unread : List (List UInt8)} {values : List Cell}
  {program : Program} {queue : List Cell} {budget : Nat}

/-- A dialogue that reads lines up to a bad one is told by one that has their values queued. -/
theorem Feed.Reads.retells (reads : Reads bytes readable unread values) (stuck : Stuck unread) :
    Option.Rel (Dialogue.Retells unread) (converse budget program queue (.ofBytes bytes))
      (converse budget program (queue ++ values) .nothing) := by
  obtain ⟨shortage, failed, complains⟩ := stuck.next
  have yields := yields_append reads.gives (.short failed)
  rw [List.append_nil] at yields
  rw [reads.lines.ofBytes, converse_yields budget program queue yields]
  cases converse budget program (queue ++ values) .nothing with
  | none => exact .none
  | some dialogue => exact .some (dialogue.retells_blame complains)

/-- Lines that are not asked for do not matter. -/
theorem Feed.Reads.converse_of_complete (reads : Reads bytes readable unread values)
    {dialogue : Dialogue}
    (conversed : converse budget program (queue ++ values) .nothing = some dialogue)
    (complete : ∀ shortage, dialogue.breakdown ≠ some (.shortage shortage)) :
    converse budget program queue (.ofBytes bytes) = some dialogue := by
  obtain ⟨further, shortage, yields⟩ := exists_yields unread
  have foretells := converse_foretells budget program (queue ++ values) further .nothing
  rw [conversed, List.append_assoc] at foretells
  rw [reads.lines.ofBytes, converse_yields budget program queue (yields_append reads.gives yields),
    foretells.of_complete complete, Option.map_some, Dialogue.blame_of_complete complete]

/-- The values of the first lines can as well be queued. -/
theorem Feed.Reads.converse_eq (reads : Reads bytes readable unread values) {rest : List UInt8}
    (cut : Lines rest unread) :
    converse budget program queue (.ofBytes bytes) =
      converse budget program (queue ++ values) (.ofBytes rest) := by
  obtain ⟨further, shortage, yields⟩ := exists_yields unread
  have whole := converse_yields budget program queue (yields_append reads.gives yields)
  have behind := converse_yields budget program (queue ++ values) yields
  rw [reads.lines.ofBytes, cut.ofBytes, whole, behind, List.append_assoc]

end Reads

/-- Line input is more of the queue. A dialogue that reads lines goes as if the values of all
lines up to the first bad one were queued, and breaks down at that line if it asks for more. Lines
behind those that it asks for do not matter, nor does it matter which values are queued and which
are read. -/
theorem line_input_extends_queue (program : Program) (queue : List Cell) (bytes : List UInt8) :
    (∃ readable unread values, Feed.Reads bytes readable unread values ∧ Feed.Stuck unread) ∧
    ∀ readable unread values, Feed.Reads bytes readable unread values →
      (Feed.Stuck unread → ∀ budget, Option.Rel (Dialogue.Retells unread)
        (converse budget program queue (.ofBytes bytes))
        (converse budget program (queue ++ values) .nothing)) ∧
      (∀ budget dialogue, converse budget program (queue ++ values) .nothing = some dialogue →
        (∀ shortage, dialogue.breakdown ≠ some (.shortage shortage)) →
        converse budget program queue (.ofBytes bytes) = some dialogue) ∧
      ∀ budget rest, Feed.Lines rest unread →
        converse budget program queue (.ofBytes bytes) =
          converse budget program (queue ++ values) (.ofBytes rest) := by
  refine ⟨Feed.exists_reads bytes, ?_⟩
  intro readable unread values reads
  refine ⟨?_, ?_, ?_⟩
  · intro stuck budget
    exact reads.retells stuck
  · intro budget dialogue conversed complete
    exact reads.converse_of_complete conversed complete
  · intro budget rest cut
    exact reads.converse_eq cut

/-- A program that outputs whatever it is given takes a value from the queue and one from a line,
and stops at a line that is a word. -/
theorem echoed_lines_extend_queue :
    let program : Program := [3, 7, 4, 7, 1105, 1, 0, 0]
    let bytes := Text.encode " -7\nx\n"
    Feed.Reads bytes [Text.encode " -7\n"] [Text.encode "x\n"] [-7] ∧
    Feed.Stuck [Text.encode "x\n"] ∧
    ∃ dialogue, converse 6 program [1] (.ofBytes bytes) = some dialogue ∧
      dialogue.outputs = [1, -7] ∧
      dialogue.failure = some "Expected an integer as input, found 'x'" := by
  intro program bytes
  have reads : Feed.Reads bytes [Text.encode " -7\n"] [Text.encode "x\n"] [-7] := by
    have cut : Feed.Lines ([0x20, 0x2d, 0x37] ++ 0x0a :: ([0x78] ++ 0x0a :: []))
        [[0x20, 0x2d, 0x37] ++ [0x0a], [0x78] ++ [0x0a]] :=
      .ended (by decide) (.ended (by decide) .nothing)
    exact ⟨cut, .cons ⟨" -7\n", Text.decode?_encode _, by decide⟩ .nil⟩
  have stuck : Feed.Stuck [Text.encode "x\n"] := by
    rintro _ ⟨⟩ value ⟨text, decoded, read⟩
    rw [Text.decode?_encode] at decoded
    cases decoded
    have word : Numeral.read (Text.trim "x\n".toList) = .error .invalidDigit := by decide
    rw [word] at read
    cases read
  have ended : (converse 6 program ([1] ++ [-7]) .nothing).map
      (fun dialogue => (dialogue.outputs, dialogue.breakdown)) =
      some ([1, -7], some (.shortage .nothingQueued)) := by decide +kernel
  obtain ⟨queued, conversed, told⟩ := Option.map_eq_some_iff.mp ended
  have agrees := ((line_input_extends_queue program [1] bytes).2 _ _ _ reads).1 stuck 6
  rw [conversed] at agrees
  generalize converse 6 program [1] (.ofBytes bytes) = fed at agrees ⊢
  obtain ⟨retells⟩ := agrees
  cases queued
  cases told
  have complains : Feed.complaint [Text.encode "x\n"] = "Expected an integer as input, found 'x'" := by
    rw [Feed.complaint, Text.decode?_encode]
    decide
  refine ⟨reads, stuck, _, rfl, retells.outputs, ?_⟩
  rw [retells.shortage _ rfl, complains]

end Intcode
