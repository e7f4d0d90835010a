/-
This file reads program text with running byte offsets, and reports with spans that are an
offset and a length. A slice of a text is refused unless both its ends are at ends of
characters, and so is a sum above a limit. Nothing is refused as long as the text has fewer
bytes than the limit, and what is read and reported is what `Program.parse` gives.
-/

import Intcode.Proofs.Whereabouts

namespace Intcode

namespace Text

/-- The characters between two byte offsets, if these are in order and at ends of characters. -/
def slice? (text : List Char) (start stop : Nat) : Option (List Char) :=
  if start ≤ stop then do
    let before ← upTo? text start
    let through ← upTo? text stop
    return through.drop before.length
  else
    none

/-- The byte offset of the last line feed. -/
def lastNewline? : List Char → Option Nat
  | [] => none
  | character :: rest =>
      match lastNewline? rest with
      | some offset => some (character.utf8Size + offset)
      | none => if character = '\n' then some 0 else none

/-- Of two parts at the start of a text, the one with no more bytes begins the other. -/
theorem prefix_of_byteLength_le {text before longer : List Char} (first : before <+: text)
    (second : longer <+: text) (less : byteLength before ≤ byteLength longer) :
    before <+: longer := by
  rcases Nat.lt_or_eq_of_le less with less | same
  · obtain ⟨extra, -, rfl⟩ := exists_append_of_byteLength_lt first second less
    exact List.prefix_append before extra
  · have equal := (upTo?_eq_some.mpr ⟨first, same⟩).symm.trans (upTo?_eq_some.mpr ⟨second, rfl⟩)
    cases equal
    exact List.prefix_rfl

/-- A slice is refused exactly if there is no such section between ends of characters. -/
theorem slice?_eq_some {text inside : List Char} {start stop : Nat} :
    slice? text start stop = some inside ↔
      ∃ before after, text = before ++ inside ++ after ∧ byteLength before = start ∧
        byteLength (before ++ inside) = stop := by
  constructor
  · intro found
    unfold slice? at found
    split at found
    next ordered =>
      simp only [Option.bind_eq_bind, Option.bind_eq_some_iff] at found
      obtain ⟨before, foundBefore, through, foundThrough, cut⟩ := found
      cases cut
      obtain ⟨start, rfl⟩ := upTo?_eq_some.mp foundBefore
      obtain ⟨⟨after, whole⟩, rfl⟩ := upTo?_eq_some.mp foundThrough
      obtain ⟨extra, rfl⟩ := prefix_of_byteLength_le start ⟨after, whole⟩ ordered
      rw [List.drop_left]
      exact ⟨before, after, whole.symm, rfl, rfl⟩
    next => cases found
  · rintro ⟨before, after, rfl, rfl, rfl⟩
    have first : upTo? (before ++ inside ++ after) (byteLength before) = some before :=
      upTo?_eq_some.mpr ⟨⟨inside ++ after, (List.append_assoc _ _ _).symm⟩, rfl⟩
    have second : upTo? (before ++ inside ++ after) (byteLength (before ++ inside)) =
        some (before ++ inside) :=
      upTo?_eq_some.mpr ⟨⟨after, rfl⟩, rfl⟩
    have ordered : byteLength before ≤ byteLength (before ++ inside) := by
      rw [byteLength_append]
      omega
    simp only [slice?, if_pos ordered, first, second, Option.bind_eq_bind, Option.bind_some,
      List.drop_left]
    rfl

-- The first character takes two bytes, and no slice begins between them.
example : slice? "é,x".toList 1 3 = none ∧ slice? "é,x".toList 2 3 = some [','] := by
  decide

theorem slice?_append (before inside after : List Char) :
    slice? (before ++ inside ++ after) (byteLength before) (byteLength before + byteLength inside) =
      some inside :=
  slice?_eq_some.mpr ⟨before, after, rfl, rfl, byteLength_append before inside⟩

theorem slice?_zero (before after : List Char) :
    slice? (before ++ after) 0 (byteLength before) = some before := by
  have first := slice?_append [] before after
  rwa [List.nil_append, byteLength, Nat.zero_add] at first

theorem slice?_rest (before after : List Char) :
    slice? (before ++ after) (byteLength before) (byteLength (before ++ after)) = some after := by
  have last := slice?_append before after []
  rwa [List.append_nil, ← byteLength_append] at last

/-- There is no line feed where none is found. -/
theorem newline_not_mem_of_lastNewline? {text : List Char} (missing : lastNewline? text = none) :
    '\n' ∉ text := by
  induction text with
  | nil => exact List.not_mem_nil
  | cons character rest inductionHypothesis =>
      rw [lastNewline?] at missing
      split at missing
      next => cases missing
      next later =>
        split at missing
        next => cases missing
        next other =>
          exact List.not_mem_cons_of_ne_of_not_mem (Ne.symm other) (inductionHypothesis later)

/-- The text behind the last line feed has no other. -/
theorem exists_cut_of_lastNewline? {text : List Char} {offset : Nat}
    (found : lastNewline? text = some offset) :
    ∃ above left, text = above ++ '\n' :: left ∧ byteLength above = offset ∧ '\n' ∉ left := by
  induction text generalizing offset with
  | nil => cases found
  | cons character rest inductionHypothesis =>
      rw [lastNewline?] at found
      split at found
      next later foundLater =>
        cases found
        obtain ⟨above, left, rfl, rfl, clear⟩ := inductionHypothesis foundLater
        exact ⟨character :: above, left, rfl, rfl, clear⟩
      next missing =>
        split at found
        next newline =>
          cases found
          subst newline
          exact ⟨[], rest, rfl, rfl, newline_not_mem_of_lastNewline? missing⟩
        next => cases found

end Text

section Columns

variable {text above left : List Char}

theorem Text.bne_newline (clear : '\n' ∉ text) :
    ∀ character ∈ text.reverse, (character != '\n') = true := by
  intro character inside
  rw [bne_iff_ne]
  rintro rfl
  exact clear (List.mem_reverse.mp inside)

theorem Position.column_of_clear (clear : '\n' ∉ text) : (atEnd text).column = text.length := by
  rw [atEnd, List.takeWhile_eq_self_iff.mpr (Text.bne_newline clear), List.length_reverse]

theorem Position.column_of_cut (clear : '\n' ∉ left) :
    (atEnd (above ++ '\n' :: left)).column = left.length := by
  have turned : (above ++ '\n' :: left).reverse = left.reverse ++ '\n' :: above.reverse := by
    simp
  rw [atEnd, turned, List.takeWhile_append_of_pos (Text.bne_newline clear)]
  simp

end Columns

/-- A sum of two offsets or lengths, if it is not above the limit. -/
def add? (limit left right : Nat) : Option Nat :=
  if left + right ≤ limit then some (left + right) else none

/-- A difference, if there is one. -/
def subtract? (left right : Nat) : Option Nat :=
  if right ≤ left then some (left - right) else none

theorem add?_eq {limit left right : Nat} (room : left + right ≤ limit) :
    add? limit left right = some (left + right) :=
  if_pos room

/-- A section of a source by its place in bytes. Nothing is known of its ends. -/
structure ByteSpan where
  source : Source
  offset : Nat
  length : Nat
deriving DecidableEq

structure ByteNote where
  span : ByteSpan
  hint : Option String
deriving DecidableEq

structure ByteDiagnostic where
  reason : String
  notes : List ByteNote
deriving DecidableEq

namespace ByteSpan

variable (limit : Nat)

def point (source : Source) (offset : Nat) : ByteSpan :=
  { source := source, offset := offset, length := 0 }

def stop? (span : ByteSpan) : Option Nat :=
  add? limit span.offset span.length

def contents? (span : ByteSpan) : Option (List Char) := do
  Text.slice? span.source.text.toList span.offset (← span.stop? limit)

/-- The line feeds before a byte offset. -/
def line? (span : ByteSpan) (offset : Nat) : Option Nat := do
  let before ← Text.slice? span.source.text.toList 0 offset
  return before.count '\n'

/-- The characters between the last line feed before a byte offset and that offset. -/
def column? (span : ByteSpan) (offset : Nat) : Option Nat := do
  let before ← Text.slice? span.source.text.toList 0 offset
  match Text.lastNewline? before with
  | some newline =>
      let left ← Text.slice? before (← add? limit newline 1) (Text.byteLength before)
      return left.length
  | none => return before.length

def excerpt? (span : ByteSpan) : Option Excerpt := do
  let line ← span.line? span.offset
  let column ← span.column? limit span.offset
  let contents ← span.contents? limit
  return {
    path := span.source.path
    position := { line := line, column := column }
    line := ((span.source.line line).reverse.dropWhile (· == '\r')).reverse
    width := contents.length }

def describe? (span : ByteSpan) : Option String := do
  let contents ← span.contents? limit
  let stop ← span.stop? limit
  return "Span \x7b contents: " ++ Text.quote contents ++ ", start: " ++ toString span.offset ++
    ", end: " ++ toString stop ++ " \x7d"

end ByteSpan

def ByteNote.render? (limit : Nat) (note : ByteNote) : Option String := do
  let excerpt ← note.span.excerpt? limit
  match note.hint with
  | some hint => return excerpt.renderWith (" note: " ++ hint)
  | none => return excerpt.render

def ByteDiagnostic.render? (limit : Nat) (diagnostic : ByteDiagnostic) : Option String := do
  let notes ← diagnostic.notes.mapM (·.render? limit)
  return String.join notes ++ "Syntax Error: " ++ diagnostic.reason

/-- The place of a span in bytes. -/
def Span.toBytes (span : Span) : ByteSpan :=
  { source := span.source, offset := span.start, length := span.length }

def Note.toBytes (note : Note) : ByteNote :=
  { span := note.span.toBytes, hint := note.hint }

def Diagnostic.toBytes (diagnostic : Diagnostic) : ByteDiagnostic :=
  { reason := diagnostic.reason, notes := diagnostic.notes.map Note.toBytes }

theorem Span.toBytes_eq {source : Source} {before inside after : List Char}
    (text : source.text.toList = before ++ inside ++ after) :
    Span.toBytes ⟨source.path, before, inside, after⟩ =
      ⟨source, Text.byteLength before, Text.byteLength inside⟩ := by
  rw [toBytes, Span.source, ← text, String.ofList_toList]
  rfl

section Places

variable {limit : Nat} {span : Span} (room : span.stop < limit)

theorem Span.slice?_before (span : Span) :
    Text.slice? span.source.text.toList 0 span.start = some span.before := by
  rw [span.source_toList, List.append_assoc]
  exact Text.slice?_zero _ _

theorem ByteSpan.line?_toBytes (span : Span) :
    span.toBytes.line? span.start = some span.position.line := by
  rw [line?, Span.toBytes, span.slice?_before]
  rfl

include room

theorem ByteSpan.stop?_toBytes : span.toBytes.stop? limit = some span.stop :=
  add?_eq (Nat.le_of_lt room)

theorem ByteSpan.contents?_toBytes : span.toBytes.contents? limit = some span.inside := by
  rw [contents?, stop?_toBytes room, Option.bind_eq_bind, Option.bind_some, Span.toBytes,
    span.source_toList]
  exact Text.slice?_append span.before span.inside span.after

theorem ByteSpan.column?_toBytes :
    span.toBytes.column? limit span.start = some span.position.column := by
  rw [column?, Span.toBytes, span.slice?_before, Option.bind_eq_bind, Option.bind_some]
  split
  next newline found =>
    obtain ⟨above, left, cut, rfl, clear⟩ := Text.exists_cut_of_lastNewline? found
    have cutBehind : span.before = (above ++ ['\n']) ++ left := by
      rw [cut]
      simp
    have behind : Text.byteLength above + 1 = Text.byteLength (above ++ ['\n']) := by
      rw [Text.byteLength_append]
      rfl
    have fits : Text.byteLength above + 1 ≤ limit := by
      have start : span.start = Text.byteLength (above ++ ['\n']) + Text.byteLength left := by
        rw [Span.start, cutBehind, Text.byteLength_append]
      rw [Span.stop] at room
      omega
    have rest : Text.slice? span.before (Text.byteLength above + 1) (Text.byteLength span.before) =
        some left := by
      rw [behind, cutBehind]
      exact Text.slice?_rest _ _
    rw [add?_eq fits, Option.bind_eq_bind, Option.bind_some, rest, Span.position, cut,
      Position.column_of_cut clear]
    rfl
  next missing =>
    rw [Span.position, Position.column_of_clear (Text.newline_not_mem_of_lastNewline? missing)]
    rfl

theorem ByteSpan.excerpt?_toBytes : span.toBytes.excerpt? limit = some span.excerpt := by
  have line : span.toBytes.line? span.toBytes.offset = some span.position.line := line?_toBytes span
  have column : span.toBytes.column? limit span.toBytes.offset = some span.position.column :=
    column?_toBytes room
  rw [excerpt?, line, column, contents?_toBytes room]
  rfl

theorem ByteSpan.describe?_toBytes : span.toBytes.describe? limit = some span.describe := by
  rw [describe?, contents?_toBytes room, stop?_toBytes room]
  rfl

end Places

section Ends

variable (span : Span)

theorem Span.isValid_start : String.Pos.Raw.IsValid span.source.text ⟨span.start⟩ :=
  (span.source.exists_position?_iff span.start).mp ⟨span.position, span.position?_start⟩

theorem Span.isValid_stop : String.Pos.Raw.IsValid span.source.text ⟨span.stop⟩ := by
  rw [← Source.exists_position?_iff]
  have length := Text.byteLength_append span.before span.inside
  exact ⟨_, span.source.position?_eq_some.mpr
    ⟨span.before ++ span.inside, span.after, span.source_toList, length, rfl⟩⟩

end Ends

section Rendering

variable {limit : Nat}

theorem ByteNote.render?_toBytes {note : Note} (room : note.span.stop < limit) :
    note.toBytes.render? limit = some note.render := by
  obtain ⟨span, hint⟩ := note
  have excerpt := ByteSpan.excerpt?_toBytes room
  cases hint <;> rw [render?, Note.toBytes, excerpt] <;> rfl

theorem ByteDiagnostic.render?_toBytes {diagnostic : Diagnostic}
    (room : ∀ note ∈ diagnostic.notes, note.span.stop < limit) :
    diagnostic.toBytes.render? limit = some diagnostic.render := by
  obtain ⟨reason, notes⟩ := diagnostic
  have rendered :
      (notes.map Note.toBytes).mapM (·.render? limit) = some (notes.map Note.render) := by
    induction notes with
    | nil => rfl
    | cons note notes inductionHypothesis =>
        rw [List.forall_mem_cons] at room
        rw [List.map_cons, List.mapM_cons, ByteNote.render?_toBytes room.1,
          inductionHypothesis room.2]
        rfl
  rw [render?, Diagnostic.toBytes, rendered]
  rfl

end Rendering

namespace Bytewise

/-- A reading ends with a value or with a report, unless it is refused. -/
abbrev Reading (Result : Type) := ExceptT ByteDiagnostic Option Result

variable (limit : Nat) (source : Source)

/-- A report with one note that has no hint. -/
def report (reason : String) (span : ByteSpan) : ByteDiagnostic :=
  { reason := reason, notes := [{ span := span, hint := none }] }

/-- Adds up the lengths of header lines. -/
def skipHeader (start : Nat) : List (List Char) → Option Nat
  | [] => some start
  | line :: lines =>
      if Program.isHeaderLine line then do
        skipHeader (← add? limit start (Text.byteLength line)) lines
      else
        some start

/-- Reads the piece at a byte offset. The offset behind its comma comes with the cell. -/
def parseCell (offset : Nat) (piece : List Char) : Reading (Cell × Nat) := do
  let leading ← subtract? (Text.byteLength piece) (Text.byteLength (Text.trimStart piece))
  let core := Text.trim piece
  let span : ByteSpan := ⟨source, ← add? limit offset leading, Text.byteLength core⟩
  let next ← add? limit offset (← add? limit (Text.byteLength piece) 1)
  if core.isEmpty then
    throw (report "Expected an integer, found nothing" span)
  else
    match Numeral.read core with
    | .ok cell => return (cell, next)
    | .error .outOfRange =>
        throw {
          reason := "The integer '" ++ String.ofList core ++ "' does not fit in 64 bits"
          notes := [{
            span := span
            hint := some ("cells range from " ++ Cell.render Int64.minValue ++ " to " ++
              Cell.render Int64.maxValue) }] }
    | .error _ =>
        throw (report ("Expected an integer, found '" ++ String.ofList core ++ "'") span)

/-- Reads pieces that have one comma between them, after the cells before them. -/
def parseCells (offset : Nat) (cells : Program) : List (List Char) → Reading Program
  | [] => return cells
  | piece :: pieces => do
      let (cell, next) ← parseCell limit source offset piece
      parseCells next (cells ++ [cell]) pieces

def parse : Reading Program := do
  let text := source.text.toList
  let start ← skipHeader limit 0 (Text.splitAfter (· == '\n') text)
  let body ← Text.slice? text start (Text.byteLength text)
  if (Text.trim body).isEmpty then
    throw (report "Expected a program, found nothing" (.point source start))
  else
    parseCells limit source start [] (body.splitOn ',')

variable {limit : Nat} {source : Source}

section Running

variable {First Second : Type} {reading : Reading First} {rest : First → Reading Second}

theorem run_bind_ok {value : First} (ran : reading.run = some (.ok value)) :
    (reading >>= rest).run = (rest value).run := by
  rw [ExceptT.run_bind, ran]
  rfl

theorem run_bind_error {report : ByteDiagnostic} (ran : reading.run = some (.error report)) :
    (reading >>= rest).run = some (.error report) := by
  rw [ExceptT.run_bind, ran]
  rfl

/-- A reading goes on with what was found. -/
theorem run_bind_lift {found : Option First} {value : First} (present : found = some value) :
    ((liftM found : Reading First) >>= rest).run = (rest value).run := by
  rw [present]
  rfl

end Running

theorem skipHeader_eq {front : List Char} {lines : List (List Char)}
    (room : Text.byteLength (front ++ lines.flatten) ≤ limit) :
    skipHeader limit (Text.byteLength front) lines =
      some (Text.byteLength (front ++ (lines.takeWhile Program.isHeaderLine).flatten)) := by
  induction lines generalizing front with
  | nil => simp [skipHeader]
  | cons line lines inductionHypothesis =>
      rw [skipHeader]
      split
      next isHeader =>
        rw [List.flatten_cons, ← List.append_assoc] at room
        have fits : Text.byteLength front + Text.byteLength line ≤ limit := by
          rw [Text.byteLength_append, Text.byteLength_append] at room
          omega
        rw [add?_eq fits, Option.bind_eq_bind, Option.bind_some, ← Text.byteLength_append,
          inductionHypothesis room, List.takeWhile_cons_of_pos isHeader, List.flatten_cons,
          List.append_assoc]
      next isBody =>
        rw [List.takeWhile_cons_of_neg isBody, List.flatten_nil, List.append_nil]

/-- The bytes of the blank characters at the start are those that are missing without them. -/
theorem subtract?_trimStart (piece : List Char) :
    subtract? (Text.byteLength piece) (Text.byteLength (Text.trimStart piece)) =
      some (Text.byteLength (piece.takeWhile Text.isBlank)) := by
  have whole : Text.byteLength piece = Text.byteLength (piece.takeWhile Text.isBlank) +
      Text.byteLength (Text.trimStart piece) := by
    rw [← Text.byteLength_append, Text.trimStart, List.takeWhile_append_dropWhile]
  rw [subtract?, if_pos (by omega)]
  congr 1
  omega

/-- What is read by characters, reported with places in bytes. -/
def located {Result : Type} (result : Except Program.ParseError Result) :
    Except ByteDiagnostic Result :=
  result.mapError fun error => error.diagnostic.toBytes

section Agreement

variable {front piece rest : List Char} {cells : Program} {pieces : List (List Char)}

/-- A piece is read with byte offsets as it is by characters, and the offset behind it follows. -/
theorem run_parseCell (text : source.text.toList = front ++ piece ++ rest)
    (room : Text.byteLength source.text.toList < limit) :
    (parseCell limit source (Text.byteLength front) piece).run =
      some (located ((Program.parseCell source front.length piece).map fun cell =>
        (cell, Text.byteLength (front ++ piece ++ [','])))) := by
  have bytes := congrArg Text.byteLength text
  rw [Text.byteLength_append, Text.byteLength_append] at bytes
  have pieceBytes := congrArg Text.byteLength (Text.trims piece).cut
  rw [Text.byteLength_append, Text.byteLength_append] at pieceBytes
  have place := Span.toBytes_eq (Program.cut_core text)
  rw [Text.byteLength_append] at place
  have next : Text.byteLength (front ++ piece ++ [',']) =
      Text.byteLength front + (Text.byteLength piece + 1) := by
    rw [Text.byteLength_append, Text.byteLength_append, Nat.add_assoc]
    rfl
  unfold parseCell
  rw [run_bind_lift (subtract?_trimStart piece), run_bind_lift (add?_eq (by omega)),
    run_bind_lift (add?_eq (by omega)), run_bind_lift (add?_eq (by omega)),
    Program.parseCell_eq text, ← place, next]
  by_cases empty : Text.trim piece = []
  · rw [if_pos (List.isEmpty_iff.mpr empty), Numeral.read_eq_empty.mpr empty]
    rfl
  · rw [if_neg (mt List.isEmpty_iff.mp empty)]
    cases isRead : Numeral.read (Text.trim piece) with
    | ok cell => rfl
    | error problem =>
        cases problem with
        | empty => exact absurd (Numeral.read_eq_empty.mp isRead) empty
        | invalidDigit => rfl
        | outOfRange => rfl

/-- A piece is read, then those behind it. -/
theorem run_parseCells_cons (text : source.text.toList = front ++ piece ++ rest)
    (room : Text.byteLength source.text.toList < limit)
    (later : ∀ cell,
      (parseCells limit source (Text.byteLength (front ++ piece ++ [','])) (cells ++ [cell])
          pieces).run =
        some (located ((Program.parseCells source (front ++ piece ++ [',']).length pieces).map
          (cells ++ [cell] ++ ·)))) :
    (parseCells limit source (Text.byteLength front) cells (piece :: pieces)).run =
      some (located
        ((Program.parseCells source front.length (piece :: pieces)).map (cells ++ ·))) := by
  have first := run_parseCell text room
  have length : (front ++ piece ++ [',']).length = front.length + piece.length + 1 := by
    rw [List.length_append, List.length_append, List.length_singleton]
  rw [parseCells, Program.parseCells]
  cases parsed : Program.parseCell source front.length piece with
  | error error =>
      rw [parsed] at first
      exact run_bind_error first
  | ok cell =>
      rw [parsed] at first
      rw [run_bind_ok first]
      refine (later cell).trans ?_
      rw [length]
      cases Program.parseCells source (front.length + piece.length + 1) pieces with
      | error error => rfl
      | ok others =>
          simp only [Except.map, List.append_assoc, List.singleton_append]
          rfl

/-- Pieces are read with byte offsets as they are by characters. -/
theorem run_parseCells {body : List Char} (separated : Program.Separated body pieces)
    (text : source.text.toList = front ++ body)
    (room : Text.byteLength source.text.toList < limit) :
    (parseCells limit source (Text.byteLength front) cells pieces).run =
      some (located ((Program.parseCells source front.length pieces).map (cells ++ ·))) := by
  induction separated generalizing front cells with
  | @last piece _ =>
      rw [← List.append_nil (front ++ piece)] at text
      refine run_parseCells_cons text room fun cell => ?_
      rw [Program.parseCells, Except.map, List.append_nil]
      rfl
  | @piece piece rest pieces _ _ inductionHypothesis =>
      rw [← List.append_assoc] at text
      refine run_parseCells_cons text room fun cell => inductionHypothesis ?_
      rw [text, List.append_assoc _ [','], List.singleton_append]

/-- Reading with byte offsets gives what reading by characters gives, and nothing is refused. -/
theorem run_parse (room : Text.byteLength source.text.toList < limit) :
    (parse limit source).run = some (located (Program.parse source)) := by
  have whole := Program.header_append_drop source.text.toList
  have start : skipHeader limit 0 (Text.splitAfter (· == '\n') source.text.toList) =
      some (Text.byteLength (Program.header source.text.toList)) := by
    have fits : Text.byteLength ([] ++ (Text.splitAfter (· == '\n') source.text.toList).flatten) ≤
        limit := by
      rw [List.nil_append, Text.splitAfter_flatten]
      exact Nat.le_of_lt room
    exact skipHeader_eq fits
  unfold parse Program.parse
  dsimp only
  rw [run_bind_lift start]
  generalize Program.header source.text.toList = header at *
  generalize source.text.toList.drop header.length = body at *
  have rest : Text.slice? source.text.toList (Text.byteLength header)
      (Text.byteLength source.text.toList) = some body := by
    rw [← whole]
    exact Text.slice?_rest header body
  rw [run_bind_lift rest]
  by_cases blank : ∀ character ∈ body, Text.isBlank character
  · have cut : source.text.toList = header ++ [] ++ body := by
      rw [List.append_nil, whole]
    have place : Span.toBytes (.cut source header.length 0) =
        .point source (Text.byteLength header) := by
      rw [← List.length_nil, Span.cut_eq cut]
      exact Span.toBytes_eq cut
    rw [if_pos (List.isEmpty_iff.mpr (Text.trim_eq_nil.mpr blank)),
      if_pos (List.all_eq_true.mpr blank), ← place]
    rfl
  · rw [if_neg (mt (Text.trim_eq_nil.mp ∘ List.isEmpty_iff.mp) blank),
      if_neg (mt List.all_eq_true.mp blank),
      run_parseCells (Program.separated_splitOn body) whole.symm room]
    cases Program.parseCells source header.length (body.splitOn ',') <;> rfl

end Agreement

end Bytewise

namespace Program

open Text (isBlank)

/-- The report of a text is found by its places in bytes. -/
theorem found_in_bytes {source : Source} {error : ParseError} {limit : Nat}
    (failed : parse source = .error error)
    (room : Text.byteLength source.text.toList < limit) :
    error.span.toBytes.contents? limit = some error.span.inside ∧
    error.span.toBytes.excerpt? limit = some error.span.excerpt ∧
    error.span.toBytes.describe? limit = some error.span.describe ∧
    error.diagnostic.toBytes.render? limit = some error.diagnostic.render := by
  have fits : error.span.stop < limit := by
    have within := error.span.stop_le
    rw [source_of_parse_eq_error failed] at within
    omega
  have noted : ∀ note ∈ error.diagnostic.notes, note.span.stop < limit := by
    intro note inside
    rw [List.mem_singleton.mp inside]
    exact fits
  exact ⟨ByteSpan.contents?_toBytes fits, ByteSpan.excerpt?_toBytes fits,
    ByteSpan.describe?_toBytes fits, ByteDiagnostic.render?_toBytes noted⟩

/-- A piece that spells no cell is quoted, unless there is nothing in it. -/
theorem reports_badCell {error : ParseError} {problem : Numeral.Problem} {core : List Char}
    (isProblem : error.problem = .badCell problem) (inside : error.span.inside = core)
    (isRead : Numeral.read core = .error problem) :
    (core = [] → error.Reports "Expected an integer, found nothing" none) ∧
    (core ≠ [] →
      error.ReportsForm (String.ofList core) ∨ error.ReportsRange (String.ofList core)) := by
  subst inside
  constructor
  · intro none
    rw [Numeral.read_eq_empty.mpr none, Except.error.injEq] at isRead
    subst isRead
    have reported := error.reports_reason_hint
    rwa [ParseError.reason, ParseError.hint, isProblem] at reported
  · intro present
    cases problem with
    | empty => exact absurd (Numeral.read_eq_empty.mp isRead) present
    | invalidDigit => exact .inl (ParseError.reportsForm_of_problem isProblem)
    | outOfRange => exact .inr (ParseError.reportsRange_of_problem isProblem)

/-- Reading with byte offsets is never refused and gives what reading by characters gives. An error
is reported with one note, whose span is a section of the text between ends of characters, so that
its contents, its excerpt and the text of the report are found. If the body has nothing but blank
characters then the span is empty and where the header ends. Otherwise it is the first piece that
spells no cell, without the blank characters around it, and the reason quotes it or says that there
is nothing. -/
theorem parse_error_points_at_first_bad_cell (source : Source) :
    (∀ limit, Text.byteLength source.text.toList < limit →
      (Bytewise.parse limit source).run =
        some ((parse source).mapError fun error => error.diagnostic.toBytes)) ∧
    ∀ error, parse source = .error error →
      (∀ limit, Text.byteLength source.text.toList < limit →
        error.span.toBytes.contents? limit = some error.span.inside ∧
        error.span.toBytes.excerpt? limit = some error.span.excerpt ∧
        error.span.toBytes.describe? limit = some error.span.describe ∧
        error.diagnostic.toBytes.render? limit = some error.diagnostic.render) ∧
      error.span.source = source ∧
      error.span.stop ≤ Text.byteLength source.text.toList ∧
      String.Pos.Raw.IsValid source.text ⟨error.span.start⟩ ∧
      String.Pos.Raw.IsValid source.text ⟨error.span.stop⟩ ∧
      Span.ofBytes? source error.span.start error.span.length = some error.span ∧
      source.position? error.span.start = some error.span.position ∧
      ∃ front body, source.text.toList = front ++ body ∧ Headed source.text.toList body ∧
        ((∀ character ∈ body, isBlank character) →
          error.span.start = Text.byteLength front ∧ error.span.contents = "" ∧
          error.Reports "Expected a program, found nothing" none) ∧
        ((¬ ∀ character ∈ body, isBlank character) →
          ∃ before piece leading core trailing, FirstBad body before piece ∧
            Text.Trims leading core trailing piece ∧
            error.span.start = Text.byteLength (front ++ pieceText before) +
              Text.byteLength leading ∧
            error.span.contents = String.ofList core ∧
            (core = [] → error.Reports "Expected an integer, found nothing" none) ∧
            (core ≠ [] →
              error.Reports ("Expected an integer, found '" ++ String.ofList core ++ "'") none ∨
              error.Reports ("The integer '" ++ String.ofList core ++ "' does not fit in 64 bits")
                (some "cells range from -9223372036854775808 to 9223372036854775807"))) := by
  refine ⟨fun limit => Bytewise.run_parse, ?_⟩
  intro error failed
  obtain ⟨body, headed⟩ := exists_headed source.text.toList
  have whole := source_of_parse_eq_error failed
  refine ⟨fun limit => found_in_bytes failed, whole, ?_, ?_, ?_, ?_, ?_,
    header source.text.toList, body, headed.text_eq, headed, ?_, ?_⟩
  · rw [← whole]
    exact error.span.stop_le
  · rw [← whole]
    exact error.span.isValid_start
  · rw [← whole]
    exact error.span.isValid_stop
  · rw [← whole]
    exact error.span.ofBytes?_start_length
  · rw [← whole]
    exact error.span.position?_start
  · intro blank
    rw [parse_eq_error_of_blank headed blank failed]
    exact ⟨rfl, rfl, rfl⟩
  · intro notBlank
    obtain ⟨before, piece, bad, problem, rest, isRead, isError⟩ :=
      parse_eq_error_of_not_blank headed notBlank failed
    have isProblem : error.problem = .badCell problem := by rw [isError]
    have inside : error.span.inside = Text.trim piece := by rw [isError]
    have start : error.span.start =
        Text.byteLength (header source.text.toList ++ pieceText before) +
          Text.byteLength (piece.takeWhile isBlank) := by
      rw [isError]
      exact Text.byteLength_append _ _
    exact ⟨before, piece, piece.takeWhile isBlank, Text.trim piece, Text.trailing piece, bad,
      Text.trims piece, start, congrArg String.ofList inside,
      reports_badCell isProblem inside isRead⟩

/-- Behind a header and a blank character of three bytes, the bad piece is found at its core. -/
theorem bad_cell_found_behind_header :
    let source := Source.unnamed "--é\n1,\u3000x,2"
    ∃ error, parse source = .error error ∧
      (Bytewise.parse 100 source).run =
        some (.error
          { reason := "Expected an integer, found 'x'"
            notes := [{ span := ⟨source, 10, 1⟩, hint := none }] }) ∧
      Span.ofBytes? source 10 1 = some error.span ∧
      error.span.toBytes.contents? 100 = some ['x'] := by
  intro source
  have failed : parse source =
      .error ⟨.badCell .invalidDigit,
        ⟨"./source", "--é\n1,\u3000".toList, ['x'], [',', '2']⟩⟩ := by
    decide +kernel
  have room : Text.byteLength source.text.toList < 100 := by
    decide +kernel
  obtain ⟨agreed, reported⟩ := parse_error_points_at_first_bad_cell source
  obtain ⟨found, _, _, _, _, place, _⟩ := reported _ failed
  have read := agreed 100 room
  rw [failed] at read
  exact ⟨_, failed, read, place, (found 100 room).1⟩

end Program

end Intcode
