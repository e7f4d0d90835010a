/-
This file shows that header lines before a text change nothing but places. The text is
read as it is without them, and what is reported of it is further on by the bytes and the
lines of the header.
-/

import Intcode.Proofs.Underline
import Intcode.Proofs.Reloading

namespace Intcode

theorem Text.firstLine_append_newline (front back : List Char) :
    firstLine (front ++ '\n' :: back) = firstLine front := by
  induction front with
  | nil => simp [firstLine]
  | cons character front inductionHypothesis =>
      unfold firstLine at inductionHypothesis ⊢
      rw [List.cons_append, List.takeWhile_cons, List.takeWhile_cons, inductionHypothesis]

/-- Errors can be changed in each of two steps. -/
theorem mapError_bind {Error First Second : Type} (result : Except Error First)
    (next : First → Except Error Second) (change : Error → Error) :
    (result >>= next).mapError change =
      result.mapError change >>= fun value => (next value).mapError change := by
  cases result <;> rfl

/-- A source with more text before it. -/
def Source.prepend (front : List Char) (source : Source) : Source :=
  { source with text := String.ofList front ++ source.text }

theorem Source.prepend_toList (front : List Char) (source : Source) :
    (source.prepend front).text.toList = front ++ source.text.toList := by
  simp [prepend]

/-- The same section of a text with more text before it. -/
def Span.shift (front : List Char) (span : Span) : Span :=
  { span with before := front ++ span.before }

theorem Span.cut_prepend (front : List Char) (source : Source) (skipped width : Nat) :
    cut (source.prepend front) (front.length + skipped) width =
      (cut source skipped width).shift front := by
  simp only [cut, shift, Source.prepend_toList, List.take_length_add_append,
    List.drop_length_add_append]
  rfl

theorem Span.source_shift (front : List Char) (span : Span) :
    (span.shift front).source = span.source.prepend front := by
  simp [shift, source, Source.prepend]

namespace Program

/-- The same error of a text with more text before it. -/
def ParseError.shift (front : List Char) (error : ParseError) : ParseError :=
  { error with span := error.span.shift front }

section Parsing

variable (front : List Char) (source : Source)

theorem parseCell_prepend (skipped : Nat) (piece : List Char) :
    parseCell (source.prepend front) (front.length + skipped) piece =
      (parseCell source skipped piece).mapError (ParseError.shift front) := by
  unfold parseCell
  dsimp only
  cases Numeral.read (Text.trim piece) with
  | ok cell => rfl
  | error problem =>
      dsimp only
      rw [Nat.add_assoc, Span.cut_prepend]
      rfl

/-- Pieces are found further on by as much as stands before the text. -/
theorem parseCells_prepend (skipped : Nat) (pieces : List (List Char)) :
    parseCells (source.prepend front) (front.length + skipped) pieces =
      (parseCells source skipped pieces).mapError (ParseError.shift front) := by
  induction pieces generalizing skipped with
  | nil => rfl
  | cons piece pieces inductionHypothesis =>
      have later := inductionHypothesis (skipped + piece.length + 1)
      rw [← Nat.add_assoc, ← Nat.add_assoc] at later
      rw [parseCells, parseCells, parseCell_prepend, later, mapError_bind]
      congr 1
      funext cell
      rw [mapError_bind]
      rfl

/-- Header lines before a text go before its own. -/
theorem header_prepend {lines : List (List Char)} (headers : ∀ line ∈ lines, HeaderLine line)
    (text : List Char) : header (headerText lines ++ text) = headerText lines ++ header text := by
  obtain ⟨body, headed⟩ := exists_headed text
  have whole := (headed.prepend headers).text_eq
  nth_rewrite 1 [headed.text_eq] at whole
  rw [← List.append_assoc] at whole
  exact (List.append_cancel_right whole).symm

/-- A text is read as before if header lines come before it, but what is reported of it is further
on. -/
theorem parse_prepend {lines : List (List Char)} (headers : ∀ line ∈ lines, HeaderLine line) :
    parse (source.prepend (headerText lines)) =
      (parse source).mapError (ParseError.shift (headerText lines)) := by
  unfold parse
  dsimp only
  rw [Source.prepend_toList, header_prepend headers, List.length_append,
    List.drop_length_add_append]
  split
  · rw [Span.cut_prepend]
    rfl
  · exact parseCells_prepend _ _ _ _

end Parsing

section Places

variable {lines : List (List Char)}

/-- The lines of a text come behind those of its header. -/
theorem splitOn_prepend (headers : ∀ line ∈ lines, HeaderLine line) (text : List Char) :
    (headerText lines ++ text).splitOn '\n' = lines ++ text.splitOn '\n' := by
  induction lines with
  | nil => rfl
  | cons line lines inductionHypothesis =>
      rw [List.forall_mem_cons] at headers
      have cut : headerText (line :: lines) ++ text = line ++ '\n' :: (headerText lines ++ text) := by
        simp [headerText]
      rw [cut, List.splitOn_append_cons_self_of_not_mem headers.1.unbroken,
        inductionHypothesis headers.2, List.cons_append]

theorem count_headerText (headers : ∀ line ∈ lines, HeaderLine line) :
    (headerText lines).count '\n' = lines.length := by
  have split := Text.length_splitOn_newline (headerText lines ++ [])
  rw [splitOn_prepend headers, List.append_nil, List.length_append] at split
  exact (Nat.add_right_cancel split).symm

/-- A header ends with a line end, so that a column behind it is counted from there. -/
theorem lastLine_prepend (lines : List (List Char)) (text : List Char) :
    Text.lastLine (headerText lines ++ text) = Text.lastLine text := by
  induction lines with
  | nil => rfl
  | cons line lines inductionHypothesis =>
      have turned : (headerText (line :: lines) ++ text).reverse =
          (headerText lines ++ text).reverse ++ '\n' :: line.reverse := by
        simp [headerText]
      rw [Text.lastLine, turned, Text.firstLine_append_newline, ← Text.lastLine,
        inductionHypothesis]

theorem excerpt_shift (headers : ∀ line ∈ lines, HeaderLine line) (span : Span) :
    (span.shift (headerText lines)).excerpt =
      { span.excerpt with
        position := ⟨span.position.line + lines.length, span.position.column⟩ } := by
  have place : (span.shift (headerText lines)).position =
      ⟨span.position.line + lines.length, span.position.column⟩ := by
    simp only [Span.position_eq, Span.shift, List.count_append, count_headerText headers,
      lastLine_prepend, Nat.add_comm lines.length]
  have line : (span.shift (headerText lines)).source.line (span.position.line + lines.length) =
      span.source.line span.position.line := by
    rw [Span.source_shift, Source.line, Source.line, Source.prepend_toList, splitOn_prepend headers,
      List.getD_eq_getElem?_getD, List.getElem?_append_right (by omega), Nat.add_sub_cancel,
      ← List.getD_eq_getElem?_getD]
  rw [Span.excerpt, place]
  dsimp only
  rw [line]
  rfl

end Places

/-- Header lines before a text do not change which program it is. If the text is no program then the
same is reported of it behind the header lines, with the same contents, column, line of text and
width, further on by the bytes of the header and by its number of lines. -/
theorem header_only_shifts_places (source : Source) {lines : List (List Char)}
    (headers : ∀ line ∈ lines, HeaderLine line) :
    let longer := source.prepend (headerText lines)
    (∀ program, parse longer = .ok program ↔ parse source = .ok program) ∧
    ∀ error, parse source = .error error →
      ∃ shifted, parse longer = .error shifted ∧
        (∃ reason hint, error.Reports reason hint ∧ shifted.Reports reason hint) ∧
        shifted.span.contents = error.span.contents ∧
        shifted.span.length = error.span.length ∧
        shifted.span.start = error.span.start + Text.byteLength (headerText lines) ∧
        shifted.span.excerpt =
          { error.span.excerpt with
            position :=
              ⟨error.span.position.line + lines.length, error.span.position.column⟩ } := by
  intro longer
  have same : parse longer = (parse source).mapError (ParseError.shift (headerText lines)) :=
    parse_prepend source headers
  constructor
  · intro program
    rw [same]
    cases parse source <;> simp [Except.mapError]
  · intro error failed
    rw [failed] at same
    have reported : (error.shift (headerText lines)).Reports error.reason error.hint :=
      (error.shift (headerText lines)).reports_reason_hint
    refine ⟨error.shift (headerText lines), same,
      ⟨error.reason, error.hint, error.reports_reason_hint, reported⟩, rfl, rfl, ?_, ?_⟩
    · rw [Nat.add_comm]
      exact Text.byteLength_append _ _
    · exact excerpt_shift headers error.span

/-- The cell in the second line is found in the fourth one behind two header lines, one of them with
a character of two bytes. -/
theorem two_header_lines_shift_places :
    ∃ error shifted, parse (.unnamed "1,\nx") = .error error ∧
      parse (.unnamed "--é\n--\n1,\nx") = .error shifted ∧
      error.span.start = 3 ∧ shifted.span.start = 11 ∧
      shifted.ReportsForm "x" ∧
      shifted.span.excerpt = ⟨"./source", ⟨3, 0⟩, ['x'], 1⟩ := by
  have headers : ∀ line ∈ ["--é".toList, "--".toList], HeaderLine line := by
    simp only [List.forall_mem_cons]
    exact ⟨⟨by decide, by decide⟩, ⟨by decide, by decide⟩, nofun⟩
  have failed : parse (.unnamed "1,\nx") =
      .error ⟨.badCell .invalidDigit, ⟨"./source", ['1', ',', '\n'], ['x'], []⟩⟩ := by
    decide +kernel
  have longer : (Source.unnamed "1,\nx").prepend (headerText ["--é".toList, "--".toList]) =
      .unnamed "--é\n--\n1,\nx" := by
    decide +kernel
  obtain ⟨shifted, again, ⟨reason, hint, reported, reportedAgain⟩, _, _, start, excerpt⟩ :=
    (header_only_shifts_places (.unnamed "1,\nx") headers).2 _ failed
  rw [longer] at again
  cases reported
  refine ⟨_, shifted, failed, again, by decide, start.trans (by decide), reportedAgain, ?_⟩
  rw [excerpt]
  decide +kernel

end Program

end Intcode
